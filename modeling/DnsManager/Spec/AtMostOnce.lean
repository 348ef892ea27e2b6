import DnsManager.Spec.ApplyCalls
import DnsManager.Spec.Sample

/-!
# Every change set is applied at most once

Any number of workers and of `validate` requests act on the same change sets, in any
order. The guarded `UPDATE` of a worker and the transaction of a request both move a change
set along the life cycle, so only one worker ever claims it.

## Key results
- `handle_moves`: what an allowed command does to the statuses.
- `Claims.step`: every allowed command keeps the invariant.
- `legalHistory_and_appliedOnce`: over every run the statuses form a path of
  `can_transition_to` from `draft`, and the items of a change set are applied at most once.
-/

namespace DnsManager

open Prog (Event Monitor Only Pool)

/-! ## What a command does to the statuses -/

/-- A committed write has moved one change set from `s` to `t`. -/
structure Moved (w w' : World) (id : String) (s t : ChangeSetStatus) : Prop where
  commits : w'.commits = w.commits + 1
  source : w.db.statusOf id = some s
  target : w'.db.statusOf id = some t
  others : ∀ id', id' ≠ id → w'.db.statusOf id' = w.db.statusOf id'

/-- Nothing was written to the database. -/
structure Quiet (w w' : World) : Prop where
  db : w'.db = w.db
  commits : w'.commits = w.commits

/-- An `UPDATE` of the status of a row that is there. -/
private theorem moved_setStatus {w : World} {id : String} {s : ChangeSetStatus}
    (hs : w.db.statusOf id = some s) {guard : Changeset → Bool}
    (hguard : ∀ row : Changeset, row.status = s → guard row = true) (t : ChangeSetStatus)
    (now : String) : Moved w (w.commit (w.db.setStatus id guard t now)) id s t := by
  refine ⟨rfl, hs, ?_, fun id' hid => ?_⟩
  -- the row of the id passes the guard, and no other row has that id
  · change (w.db.setStatus id guard t now).statusOf id = some t
    rw [Database.statusOf_setStatus]
    obtain ⟨row, hrow, hstatus⟩ := Option.map_eq_some_iff.mp hs
    have hkey := (Table.find?_eq_some.mp hrow).2
    simp [hrow, hkey, hguard row hstatus]
  · change (w.db.setStatus id guard t now).statusOf id' = w.db.statusOf id'
    rw [Database.statusOf_setStatus, Database.statusOf]
    cases hrow : w.db.changesets.find? id' with
    | none => rfl
    | some row =>
      have hkey := (Table.find?_eq_some.mp hrow).2
      have hne : row.id ≠ id := by rw [hkey]; exact hid
      simp [hne]

theorem quiet_query {α : Type} (env : Env) (w : World) (answer : Database → α) :
    Quiet w (w.query env answer).2 := by
  unfold World.query
  split <;> exact ⟨rfl, rfl⟩

theorem quiet_call (env : Env) (w : World) (b : ProviderBinding) (key : RecordKey)
    (value : Option ProviderRecord) : Quiet w (w.call env b key value).2 := by
  unfold World.call
  split <;> exact ⟨rfl, rfl⟩

/-- The guarded `UPDATE` of a worker moves the row or writes nothing, and its reply tells. -/
theorem updateStatusWhere_cases (env : Env) (w : World) (id : String) (s t : ChangeSetStatus) :
    Quiet w (updateStatusWhere env w id s t).2 ∧
        (∀ n, (updateStatusWhere env w id s t).1 ≠ .ok (n + 1)) ∨
      Moved w (updateStatusWhere env w id s t).2 id s t := by
  unfold updateStatusWhere
  split
  · exact .inl ⟨⟨rfl, rfl⟩, fun _ h => (nomatch h)⟩
  · split
    · next hs =>
      exact .inr (moved_setStatus hs (fun row hrow => by simp [hrow]) t _)
    · exact .inl ⟨⟨rfl, rfl⟩, fun _ h => (nomatch h)⟩

/-- The `UPDATE` of a transaction moves the row from the status that was read, if nothing was
    written since, or writes nothing. -/
theorem updateStatusTx_cases (env : Env) (w : World) (id : String) {s : ChangeSetStatus}
    (t : ChangeSetStatus) {snapshot : Nat}
    (hread : snapshot = w.commits → w.db.statusOf id = some s) :
    Quiet w (updateStatusTx env w id t snapshot).2 ∨
      Moved w (updateStatusTx env w id t snapshot).2 id s t := by
  unfold updateStatusTx
  split
  · exact .inl ⟨rfl, rfl⟩
  · split
    · next hcommits => exact .inr (moved_setStatus (hread hcommits.symm) (fun _ _ => rfl) t _)
    · exact .inl ⟨rfl, rfl⟩

/-- A command that has claimed a change set has moved it to `applying`. -/
theorem moved_of_claimOf {env : Env} {c : Cmd} {w : World} {id : String}
    (h : claimOf c (handle env c w).1 = some id) :
    Moved w (handle env c w).2 id .validated .applying := by
  cases c with
  | updateStatus id' s t =>
    -- only the `UPDATE` from `validated` to `applying` that affects a row claims
    rcases updateStatusWhere_cases env w id' s t with ⟨-, hno⟩ | hmoved
    · unfold claimOf at h
      split at h
      · next hc hr =>
        cases hc
        exact (hno _ hr).elim
      · cases h
    · unfold claimOf at h
      split at h
      · next hc hr =>
        cases hc
        cases h
        exact hmoved
      · cases h
  | _ => cases h

/-- What a transaction has read is what the database holds. -/
theorem of_readOf {env : Env} {c : Cmd} {w : World} {id : String} {status : ChangeSetStatus}
    {snapshot : Nat} (h : readOf c (handle env c w).1 = some (id, status, snapshot)) :
    snapshot = w.commits ∧ w.db.statusOf id = some status ∧ Quiet w (handle env c w).2 := by
  cases c with
  | txSelect id' =>
    have hquiet : Quiet w (handle env (.txSelect id') w).2 := quiet_query env w _
    -- a query that failed has read nothing
    simp only [handle, World.query] at h
    split at h
    · cases h
    · cases hfind : w.db.changesets.find? id' with
      | none => simp [hfind, readOf] at h
      | some row =>
        simp only [hfind, readOf, Option.some.injEq, Prod.mk.injEq] at h
        obtain ⟨rfl, rfl, rfl⟩ := h
        exact ⟨rfl, by simp [Database.statusOf, hfind], hquiet⟩
  | _ => cases h

/-- What an allowed command does to the statuses: nothing, or one transition of the life cycle.
    The phase of a transaction has to be right about what was read. -/
theorem handle_moves {env : Env} {c : Cmd} {w : World} {phase : Phase} (hc : phase.Allows c)
    (hreading : ∀ id status snapshot, phase = .reading id status snapshot →
      snapshot = w.commits → w.db.statusOf id = some status) :
    Quiet w (handle env c w).2 ∨
      ∃ id s t, Moved w (handle env c w).2 id s t ∧ s.canTransitionTo t = true := by
  cases c with
  | instant => exact .inl ⟨rfl, rfl⟩
  | updateStatus id s t =>
    rcases updateStatusWhere_cases env w id s t with ⟨hquiet, -⟩ | hmoved
    · exact .inl hquiet
    · exact .inr ⟨id, s, t, hmoved, hc⟩
  | txUpdate id t snapshot =>
    -- the transition was checked against the status the transaction has read
    obtain ⟨s, hphase, hcan⟩ := hc
    rcases updateStatusTx_cases env w id t (hreading id s snapshot hphase) with hquiet | hmoved
    · exact .inl hquiet
    · exact .inr ⟨id, s, t, hmoved, hcan⟩
  | upsertRecord | deleteRecord => exact .inl (quiet_call ..)
  | _ => exact .inl (quiet_query ..)

/-! ## The phases of the threads -/

/-- An event of the life cycle. -/
abbrev CmdEvent := Event Cmd Cmd.Reply

/-- The phase of a thread after the events of a log. -/
def phaseOf (i : Nat) (log : List CmdEvent) : Phase := lifecycle.after i log

/-- The items of the change set were queried. -/
def Queried (id : String) (log : List CmdEvent) : Prop := ∃ e ∈ log, e.cmd = .selectItems id

theorem phaseOf_concat (i : Nat) (log : List CmdEvent) (e : CmdEvent) :
    phaseOf i (log ++ [e]) =
      if e.thread = i then (phaseOf i log).next e.cmd e.reply else phaseOf i log :=
  lifecycle.after_concat i log e

theorem queried_concat {id : String} {log : List CmdEvent} {e : CmdEvent} :
    Queried id (log ++ [e]) ↔ Queried id log ∨ e.cmd = .selectItems id := by
  simp [Queried, or_and_right, exists_or]

/-- How a thread has come to its next phase. -/
theorem Phase.next_cases (phase : Phase) (c : Cmd) (r : c.Reply) :
    (∃ id, claimOf c r = some id ∧ phase.next c r = .claimed id) ∨
      (∃ id status snapshot, readOf c r = some (id, status, snapshot) ∧
        phase.next c r = .reading id status snapshot) ∨
      (∃ id, c = .selectItems id ∧ phase.next c r = .applying id) ∨
      (∀ id, c ≠ .selectItems id) ∧ (phase.next c r = .idle ∨ phase.next c r = phase) := by
  unfold Phase.next
  cases hclaim : claimOf c r with
  | some id => exact .inl ⟨id, rfl, rfl⟩
  | none =>
    cases hread : readOf c r with
    | some read => exact .inr (.inl ⟨read.1, read.2.1, read.2.2, rfl, rfl⟩)
    | none =>
      cases c with
      | selectItems id => exact .inr (.inr (.inl ⟨id, rfl, rfl⟩))
      | txUpdate => exact .inr (.inr (.inr ⟨fun _ h => (nomatch h), .inl rfl⟩))
      | _ => exact .inr (.inr (.inr ⟨fun _ h => (nomatch h), .inr rfl⟩))

/-! ## The invariant -/

/-- What holds of the database and the threads at every moment of a run. -/
structure Claims (w : World) (log : List CmdEvent) : Prop where
  /-- A transaction is right about what it has read, unless something was written since. -/
  reading : ∀ i id status snapshot, phaseOf i log = .reading id status snapshot →
    snapshot ≤ w.commits ∧ (snapshot = w.commits → w.db.statusOf id = some status)
  /-- Before a change set is claimed nobody holds it and nobody has queried its items. -/
  fresh : ∀ id s, w.db.statusOf id = some s → s.rank < ChangeSetStatus.applying.rank →
    (∀ i, phaseOf i log ≠ .claimed id) ∧ ¬ Queried id log
  /-- One thread only holds a change set whose items were not queried. -/
  unique : ∀ i j id, phaseOf i log = .claimed id → phaseOf j log = .claimed id → i = j
  unused : ∀ i id, phaseOf i log = .claimed id → ¬ Queried id log
  /-- The items of a change set are queried at most once. -/
  once : ∀ id, (log.filter fun e => e.cmd = .selectItems id).length ≤ 1

/-- The event of a command that is issued now. -/
def issued (env : Env) (w : World) (i : Nat) (c : Cmd) : CmdEvent := ⟨i, c, (handle env c w).1⟩

section Steps

variable {env : Env} {w : World} {log : List CmdEvent} {i j : Nat} {c : Cmd} {id : String}

/-- A thread that has claimed a change set has done so now or not queried the items yet. -/
private theorem claimed_issued (h : phaseOf j (log ++ [issued env w i c]) = .claimed id) :
    j = i ∧ claimOf c (handle env c w).1 = some id ∨
      phaseOf j log = .claimed id ∧ (j = i → ∀ id', c ≠ .selectItems id') := by
  rw [phaseOf_concat] at h
  split at h
  · next hij =>
    obtain rfl : i = j := hij
    rcases (phaseOf i log).next_cases c (handle env c w).1 with
      ⟨id', hclaim, hnext⟩ | ⟨id', s, n, -, hnext⟩ | ⟨id', -, hnext⟩ | ⟨hitems, hnext | hnext⟩
    · cases hnext.symm.trans h
      exact .inl ⟨rfl, hclaim⟩
    · exact nomatch hnext.symm.trans h
    · exact nomatch hnext.symm.trans h
    · exact nomatch hnext.symm.trans h
    · exact .inr ⟨hnext.symm.trans h, fun _ => hitems⟩
  · next hij => exact .inr ⟨h, fun hji => absurd hji.symm hij⟩

/-- A thread in a transaction has read now or before. -/
private theorem reading_issued {status : ChangeSetStatus} {snapshot : Nat}
    (h : phaseOf j (log ++ [issued env w i c]) = .reading id status snapshot) :
    readOf c (handle env c w).1 = some (id, status, snapshot) ∨
      phaseOf j log = .reading id status snapshot := by
  rw [phaseOf_concat] at h
  split at h
  · next hij =>
    obtain rfl : i = j := hij
    rcases (phaseOf i log).next_cases c (handle env c w).1 with
      ⟨id', -, hnext⟩ | ⟨id', s, n, hread, hnext⟩ | ⟨id', -, hnext⟩ | ⟨-, hnext | hnext⟩
    · exact nomatch hnext.symm.trans h
    · cases hnext.symm.trans h
      exact .inl hread
    · exact nomatch hnext.symm.trans h
    · exact nomatch hnext.symm.trans h
    · exact .inr (hnext.symm.trans h)
  · exact .inr h

end Steps

namespace Claims

variable {env : Env} {w : World} {log : List CmdEvent} {i : Nat} {c : Cmd}

/-- What an allowed command does to the statuses. -/
theorem moves (h : Claims w log) (hc : (phaseOf i log).Allows c) :
    Quiet w (handle env c w).2 ∨
      ∃ id s t, Moved w (handle env c w).2 id s t ∧ s.canTransitionTo t = true :=
  handle_moves hc fun id status snapshot hphase => (h.reading i id status snapshot hphase).2

/-- A change set below `applying` was below `applying` before the command. -/
private theorem rank_before (h : Claims w log) (hc : (phaseOf i log).Allows c) {id : String}
    {s : ChangeSetStatus} (hs : (handle env c w).2.db.statusOf id = some s)
    (hrank : s.rank < ChangeSetStatus.applying.rank) :
    ∃ s₀, w.db.statusOf id = some s₀ ∧ s₀.rank < ChangeSetStatus.applying.rank := by
  rcases h.moves hc with hquiet | ⟨id', s', t', hmoved, hcan⟩
  · exact ⟨s, hquiet.db ▸ hs, hrank⟩
  · by_cases hid : id = id'
    · subst hid
      obtain rfl := Option.some.inj (hmoved.target.symm.trans hs)
      exact ⟨s', hmoved.source, (ChangeSetStatus.rank_lt_of_canTransitionTo hcan).trans hrank⟩
    · exact ⟨s, (hmoved.others id hid).symm.trans hs, hrank⟩

/-- When a claim succeeds nobody has held the change set or queried its items. -/
private theorem fresh_of_claimOf (h : Claims w log) {id : String}
    (hclaim : claimOf c (handle env c w).1 = some id) :
    (∀ i, phaseOf i log ≠ .claimed id) ∧ ¬ Queried id log :=
  h.fresh id .validated (moved_of_claimOf hclaim).source (by decide)

private theorem reading_step (h : Claims w log) (hc : (phaseOf i log).Allows c) (j : Nat)
    (id : String) (status : ChangeSetStatus) (snapshot : Nat)
    (hphase : phaseOf j (log ++ [issued env w i c]) = .reading id status snapshot) :
    snapshot ≤ (handle env c w).2.commits ∧
      (snapshot = (handle env c w).2.commits →
        (handle env c w).2.db.statusOf id = some status) := by
  rcases reading_issued hphase with hread | hold
  · obtain ⟨rfl, hstatus, hquiet⟩ := of_readOf hread
    rw [hquiet.commits, hquiet.db]
    exact ⟨Nat.le_refl _, fun _ => hstatus⟩
  · obtain ⟨hle, hstatus⟩ := h.reading j id status snapshot hold
    rcases h.moves hc with hquiet | ⟨id', s', t', hmoved, -⟩
    · rw [hquiet.commits, hquiet.db]
      exact ⟨hle, hstatus⟩
    · -- the commit has moved on, so the snapshot is no longer the current one
      rw [hmoved.commits]
      exact ⟨by omega, fun heq => absurd heq (by omega)⟩

private theorem fresh_step (h : Claims w log) (hc : (phaseOf i log).Allows c) (id : String)
    (s : ChangeSetStatus) (hs : (handle env c w).2.db.statusOf id = some s)
    (hrank : s.rank < ChangeSetStatus.applying.rank) :
    (∀ j, phaseOf j (log ++ [issued env w i c]) ≠ .claimed id) ∧
      ¬ Queried id (log ++ [issued env w i c]) := by
  obtain ⟨s₀, hs₀, hrank₀⟩ := h.rank_before hc hs hrank
  obtain ⟨hfree, hnew⟩ := h.fresh id s₀ hs₀ hrank₀
  constructor
  · intro j hphase
    rcases claimed_issued hphase with ⟨-, hclaim⟩ | ⟨hold, -⟩
    · -- a claim that succeeds now leaves the change set in `applying`
      obtain rfl := Option.some.inj ((moved_of_claimOf hclaim).target.symm.trans hs)
      exact absurd hrank (Nat.lt_irrefl _)
    · exact hfree j hold
  · rw [queried_concat]
    rintro (hold | hcmd)
    · exact hnew hold
    · have hclaimed : phaseOf i log = .claimed id := by
        obtain rfl : c = .selectItems id := hcmd
        exact hc
      exact hfree i hclaimed

private theorem unique_step (h : Claims w log) (j k : Nat) (id : String)
    (hj : phaseOf j (log ++ [issued env w i c]) = .claimed id)
    (hk : phaseOf k (log ++ [issued env w i c]) = .claimed id) : j = k := by
  rcases claimed_issued hj with ⟨rfl, hclaim⟩ | ⟨hoj, -⟩
  · rcases claimed_issued hk with ⟨rfl, -⟩ | ⟨hok, -⟩
    · rfl
    · exact absurd hok ((h.fresh_of_claimOf hclaim).1 k)
  · rcases claimed_issued hk with ⟨rfl, hclaim⟩ | ⟨hok, -⟩
    · exact absurd hoj ((h.fresh_of_claimOf hclaim).1 j)
    · exact h.unique j k id hoj hok

private theorem unused_step (h : Claims w log) (hc : (phaseOf i log).Allows c) (j : Nat)
    (id : String) (hj : phaseOf j (log ++ [issued env w i c]) = .claimed id) :
    ¬ Queried id (log ++ [issued env w i c]) := by
  rw [queried_concat]
  rintro (hold | hcmd)
  · rcases claimed_issued hj with ⟨-, hclaim⟩ | ⟨hoj, -⟩
    · exact (h.fresh_of_claimOf hclaim).2 hold
    · exact h.unused j id hoj hold
  · obtain rfl : c = .selectItems id := hcmd
    rcases claimed_issued hj with ⟨-, hclaim⟩ | ⟨hoj, hother⟩
    · cases hclaim
    · exact hother (h.unique j i id hoj hc) id rfl

private theorem once_step (h : Claims w log) (hc : (phaseOf i log).Allows c) (id : String) :
    ((log ++ [issued env w i c]).filter fun e => e.cmd = .selectItems id).length ≤ 1 := by
  rw [List.filter_append, List.length_append]
  by_cases hcmd : c = .selectItems id
  · subst hcmd
    -- the claim was not used before
    have hnone : log.filter (fun e => e.cmd = .selectItems id) = [] :=
      List.filter_eq_nil_iff.mpr fun e he hcmd =>
        h.unused i id hc ⟨e, he, of_decide_eq_true hcmd⟩
    rw [hnone, List.length_nil, Nat.zero_add]
    exact List.length_filter_le _ _
  · have hnot : [issued env w i c].filter (fun e => e.cmd = .selectItems id) = [] :=
      List.filter_eq_nil_iff.mpr fun e he => by
        rw [List.mem_singleton.mp he]
        exact fun h => hcmd (of_decide_eq_true h)
    rw [hnot]
    exact h.once id

/-- Every allowed command keeps the invariant. -/
theorem step (h : Claims w log) (hc : (phaseOf i log).Allows c) :
    Claims (handle env c w).2 (log ++ [issued env w i c]) where
  reading := h.reading_step hc
  fresh := h.fresh_step hc
  unique := h.unique_step
  unused := h.unused_step hc
  once := h.once_step hc

/-- The invariant holds before anything has happened. -/
theorem start (w : World) : Claims w [] where
  reading _ _ _ _ h := nomatch h
  fresh _ _ _ _ := ⟨fun _ h => (nomatch h), fun ⟨_, he, _⟩ => (nomatch he)⟩
  unique _ _ _ h := nomatch h
  unused _ _ h := nomatch h
  once _ := Nat.zero_le _

end Claims

/-! ## Runs -/

/-- The statuses of a change set, one for each moment of a run. -/
structure LegalHistory (statuses : List (Option ChangeSetStatus)) : Prop where
  start : statuses.head? = some (some .draft)
  path : statuses.IsChain fun s t =>
    s = t ∨ ∃ a b, s = some a ∧ t = some b ∧ a.canTransitionTo b = true
  terminal : ∀ pre s post, statuses = pre ++ some s :: post → s.isTerminal = true →
    ∀ t ∈ post, t = some s

/-- Let the threads have come to the given calls of `apply_items` by the end of a log. For every
    change set it was called at most once, and every write to a provider was made by a thread after
    its last call, for a change set that no other thread has called it for. -/
structure AppliedOnce (calls : List CmdEvent → Nat → List ApplyCall) (log : List CmdEvent) :
    Prop where
  once : ∀ id i, (calls log i).countP (·.changesetId = id) ≤ 1
  oneThread : ∀ i j, ∀ call ∈ calls log i, ∀ other ∈ calls log j,
    call.changesetId = other.changesetId → i = j
  soleWriter : ∀ pre e post, log = pre ++ e :: post → e.cmd.isProviderWrite = true →
    ∃ call, (calls pre e.thread).getLast? = some call ∧
      ∀ i, ∀ other ∈ calls log i, other.changesetId = call.changesetId → i = e.thread

/-- A path of the life cycle does not leave a terminal status. -/
private theorem terminal_of_path {statuses pre post : List (Option ChangeSetStatus)}
    {s : ChangeSetStatus} (hpath : statuses.IsChain fun s t =>
      s = t ∨ ∃ a b, s = some a ∧ t = some b ∧ a.canTransitionTo b = true)
    (hsplit : statuses = pre ++ some s :: post) (hs : s.isTerminal = true) :
    ∀ t ∈ post, t = some s := by
  rw [hsplit] at hpath
  have htail := hpath.right_of_append
  clear hsplit hpath
  -- every later status is the one before it, since no transition leaves a terminal one
  induction post with
  | nil => exact fun t ht => (nomatch ht)
  | cons t post ih =>
    obtain ⟨hrel, hrest⟩ := List.isChain_cons_cons.mp htail
    have ht : t = some s := by
      rcases hrel with rfl | ⟨a, b, ha, -, hcan⟩
      · rfl
      · cases ha
        rw [ChangeSetStatus.not_canTransitionTo_of_isTerminal hs] at hcan
        cases hcan
    subst ht
    rintro t (_ | ⟨_, ht⟩)
    · rfl
    · exact ih hrest t ht

/-- Two queries for the items of one change set are the same. -/
private theorem Claims.query_unique {w : World} {log : List CmdEvent} (h : Claims w log)
    {e e' : CmdEvent} (he : e ∈ log) (he' : e' ∈ log) {id : String} (hcmd : e.cmd = .selectItems id)
    (hcmd' : e'.cmd = .selectItems id) : e = e' := by
  have hmem : e ∈ log.filter fun e => e.cmd = .selectItems id :=
    List.mem_filter.mpr ⟨he, decide_eq_true hcmd⟩
  have hmem' : e' ∈ log.filter fun e => e.cmd = .selectItems id :=
    List.mem_filter.mpr ⟨he', decide_eq_true hcmd'⟩
  have honce := h.once id
  match hfilter : log.filter fun e => e.cmd = .selectItems id with
  | [] =>
    rw [hfilter] at hmem
    cases hmem
  | [x] =>
    rw [hfilter, List.mem_singleton] at hmem hmem'
    rw [hmem, hmem']
  | x :: y :: rest =>
    rw [hfilter] at honce
    exact absurd honce (by simp)

/-- The calls of the threads by the end of a log: each is paid for with a query of its thread, and a
    thread that writes to a provider has made one. -/
structure CallsPaid (calls : List CmdEvent → Nat → List ApplyCall) (log : List CmdEvent) :
    Prop where
  paid : ∀ id i, (calls log i).countP (·.changesetId = id) ≤
    (Pool.ownLog i log).countP (·.1.queries id)
  grow : ∀ pre post i, log = pre ++ post → calls pre i <+: calls log i
  writes : ∀ pre e post, log = pre ++ e :: post → e.cmd.isProviderWrite = true →
    calls pre e.thread ≠ []

/-- A thread that has made a call has queried the items of its change set. -/
private theorem CallsPaid.exists_query {calls : List CmdEvent → Nat → List ApplyCall}
    {log : List CmdEvent} (h : CallsPaid calls log) {i : Nat} {call : ApplyCall}
    (hcall : call ∈ calls log i) :
    ∃ e ∈ log, e.thread = i ∧ e.cmd = .selectItems call.changesetId := by
  have hpos : 0 < (calls log i).countP (·.changesetId = call.changesetId) :=
    List.countP_pos_iff.mpr ⟨call, hcall, decide_eq_true rfl⟩
  obtain ⟨e, he, hquery⟩ := List.countP_pos_iff.mp (hpos.trans_le (h.paid _ i))
  obtain ⟨e', he', hi, rfl⟩ := Pool.mem_ownLog.mp he
  exact ⟨e', he', hi, of_decide_eq_true hquery⟩

/-- The log of a run with the invariant, in which the calls are paid for. -/
theorem Claims.appliedOnce {w : World} {log : List CmdEvent} (h : Claims w log)
    {calls : List CmdEvent → Nat → List ApplyCall} (hcalls : CallsPaid calls log) :
    AppliedOnce calls log := by
  have hthread : ∀ i j, ∀ call ∈ calls log i, ∀ other ∈ calls log j,
      call.changesetId = other.changesetId → i = j := by
    intro i j call hcall other hother hsame
    obtain ⟨e, he, rfl, hcmd⟩ := hcalls.exists_query hcall
    obtain ⟨e', he', rfl, hcmd'⟩ := hcalls.exists_query hother
    rw [← hsame] at hcmd'
    rw [h.query_unique he he' hcmd hcmd']
  refine ⟨fun id i => ?_, hthread, fun pre e post hlog hwrite => ?_⟩
  · -- the queries of one thread are among all of them
    have hown : (Pool.ownLog i log).countP (·.1.queries id) ≤
        log.countP (fun e => e.cmd = .selectItems id) := by
      unfold Pool.ownLog
      rw [List.countP_filterMap]
      refine List.countP_mono_left fun e _ hquery => ?_
      split at hquery <;> simp_all [Cmd.queries]
    have honce := h.once id
    rw [← List.countP_eq_length_filter] at honce
    exact ((hcalls.paid id i).trans hown).trans honce
  · obtain ⟨call, hlast⟩ := Option.ne_none_iff_exists'.mp
      (mt List.getLast?_eq_none_iff.mp (hcalls.writes pre e post hlog hwrite))
    have hcall : call ∈ calls log e.thread :=
      (hcalls.grow pre (e :: post) e.thread hlog).subset (List.mem_of_getLast? hlast)
    exact ⟨call, hlast, fun i other hother hsame => hthread i e.thread other hother call hcall hsame⟩

section Deployment

variable [CryptoLib] [SerdeJson]

/-- Workers that process a batch each, and requests to validate change sets. -/
def deployment (workers : List ReconcileWorker) (requests : List String) (w : World) :
    Pool Cmd Cmd.Reply World where
  state := w
  threads := workers.map (fun worker => worker.processApplyBatch.detach) ++
    requests.map fun id => (validateChangeset id).detach

/-- The calls of `apply_items` that the threads have come to by the end of a log. -/
def deploymentCalls (workers : List ReconcileWorker) (log : List CmdEvent) (i : Nat) :
    List ApplyCall :=
  match workers[i]? with
  | some worker => worker.applyCalls worker.processApplyBatchCalls (Pool.ownLog i log)
  | none => []

/-- In every run the calls are paid for. -/
private theorem callsPaid_deployment (workers : List ReconcileWorker) (requests : List String)
    (env : Env) (w : World) (schedule : List Nat) :
    CallsPaid (deploymentCalls workers)
      ((deployment workers requests w).exec (handle env) schedule).log where
  paid id i := by
    unfold deploymentCalls
    split
    · exact (calling_processApplyBatchCalls _).countP_le id _
    · exact Nat.zero_le _
  grow pre post i hlog := by
    unfold deploymentCalls
    split
    · rw [hlog, Pool.ownLog_append]
      exact applyCalls_prefix ..
    · exact List.nil_prefix
  writes pre e post hlog hwrite := by
    have he : e ∈ ((deployment workers requests w).exec (handle env) schedule).log := by
      rw [hlog]
      exact List.mem_append_right pre List.mem_cons_self
    obtain ⟨t, t', ht, hpath⟩ := Pool.path_of_mem_log rfl he
    rw [hlog, Pool.ownLog_split] at hpath
    change (workers.map _ ++ requests.map _)[e.thread]? = some t at ht
    rw [List.getElem?_append] at ht
    unfold deploymentCalls
    split at ht
    · rw [List.getElem?_map, Option.map_eq_some_iff] at ht
      obtain ⟨worker, hworker, rfl⟩ := ht
      obtain ⟨p, hp⟩ := hpath.of_detach
      rw [← inline_processApplyBatchCalls] at hp
      simp only [hworker]
      exact (calling_processApplyBatchCalls worker).ne_nil hp hwrite
    · -- a request writes to no provider
      rw [List.getElem?_map, Option.map_eq_some_iff] at ht
      obtain ⟨id, -, rfl⟩ := ht
      have honly : Only (fun c => c.isProviderWrite = false) (validateChangeset id) :=
        only_validateChangeset rfl (fun _ => rfl) rfl rfl
      have hquiet := honly.detach.path hpath ⟨e.cmd, e.reply⟩
        (List.mem_append_right _ List.mem_cons_self)
      rw [hwrite] at hquiet
      cases hquiet

private theorem deployment_invariant (workers : List ReconcileWorker) (requests : List String)
    (w : World) : Pool.Invariant lifecycle Claims (deployment workers requests w) := by
  refine .start (.start w) fun t ht => ?_
  rcases List.mem_append.mp ht with ht | ht
  · obtain ⟨worker, -, rfl⟩ := List.mem_map.mp ht
    exact (obeys_processApplyBatch worker .idle).detach
  · obtain ⟨id, -, rfl⟩ := List.mem_map.mp ht
    exact (obeys_validateChangeset .idle id).detach

/-- For every interleaving of workers and validation requests on drafts, the statuses of every
    change set have a legal history, and every change set is applied at most once. -/
theorem legalHistory_and_appliedOnce (workers : List ReconcileWorker) (requests : List String)
    (env : Env) (w : World) (hdraft : ∀ row ∈ w.db.changesets.rows, row.status = .draft)
    (schedule : List Nat) :
    (∀ id ∈ w.db.changesets.keys,
      LegalHistory (((deployment workers requests w).history (handle env) schedule).map
        (·.db.statusOf id))) ∧
    AppliedOnce (deploymentCalls workers)
      ((deployment workers requests w).exec (handle env) schedule).log := by
  have hstep : ∀ (s : World) (log : List CmdEvent) (i : Nat) (c : Cmd), Claims s log →
      lifecycle.allows (lifecycle.after i log) c →
      Claims (handle env c s).2 (log ++ [⟨i, c, (handle env c s).1⟩]) :=
    fun s log i c h hc => h.step hc
  have hstart := deployment_invariant workers requests w
  refine ⟨fun id hid => ?_, (Pool.invariant_exec hstep hstart schedule).holds.appliedOnce
    (callsPaid_deployment workers requests env w schedule)⟩
  have hpath : (((deployment workers requests w).history (handle env) schedule).map
      (·.db.statusOf id)).IsChain fun s t =>
        s = t ∨ ∃ a b, s = some a ∧ t = some b ∧ a.canTransitionTo b = true := by
    rw [List.isChain_map]
    refine Pool.isChain_history hstep (fun s => .inl rfl) (fun s log i c h hc => ?_) hstart schedule
    -- a command moves one change set at most, and the path is that of a single one
    rcases h.moves hc with hquiet | ⟨id', a, b, hmoved, hcan⟩
    · exact .inl (by rw [hquiet.db])
    · by_cases hid' : id = id'
      · subst hid'
        exact .inr ⟨a, b, hmoved.source, hmoved.target, hcan⟩
      · exact .inl (hmoved.others id hid').symm
  refine ⟨?_, hpath, fun pre s post => terminal_of_path hpath⟩
  obtain ⟨row, hrow, rfl⟩ := Table.mem_keys.mp hid
  rw [List.head?_map, Pool.head?_history]
  simp [deployment, Database.statusOf, Table.find?_eq_some.mpr ⟨hrow, rfl⟩, hdraft row hrow]

end Deployment

section Sample

open Sample

/-- The draft of a change set that creates `www`. -/
private def draftWorld : World :=
  { db := createdWww, contents := fun _ _ => none }

/-- The request to validate goes first; then two workers that have both read the change set as
    validated take turns. -/
private def racingWorkers : List Nat := List.replicate 4 2 ++ (List.replicate 12 [0, 1]).flatten

/-- The log of their race. -/
private def raceLog : List CmdEvent :=
  ((deployment [worker, worker] ["c1"] draftWorld).exec (handle (env fun _ => .ok))
    racingWorkers).log

/-- The change set is applied, by one of the two workers. -/
theorem legalHistory_and_appliedOnce_race :
    AppliedOnce (deploymentCalls [worker, worker]) raceLog ∧
      ((deploymentCalls [worker, worker] raceLog 0).map (·.changesetId),
        (deploymentCalls [worker, worker] raceLog 1).map (·.changesetId)) = (["c1"], []) ∧
      ((deployment [worker, worker] ["c1"] draftWorld).exec
        (handle (env fun _ => .ok)) racingWorkers).state.db.statusOf "c1" = some .applied :=
  ⟨(legalHistory_and_appliedOnce [worker, worker] ["c1"] (env fun _ => .ok) draftWorld
    (by decide +kernel) racingWorkers).2, by decide +kernel, by decide +kernel⟩

end Sample

end DnsManager
