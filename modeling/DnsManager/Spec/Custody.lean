import DnsManager.Spec.RequestWrites
import DnsManager.Spec.SystemLifecycle

/-!
# Who may move a change set

From the moment a worker has claimed a change set, its status is the one that this worker
has given it: no request and no other loop, of this worker or of one that is started later,
moves it any more. So a worker that crashes leaves what it held as it was, and nobody takes it
over.

## Key results
- `Custody.step`: every sanctioned command keeps the invariant.
- `crash_is_final`: what a thread holds that issues nothing any more stays as it is.
-/

namespace DnsManager

open Prog (Obeys Pool)

section

variable [SerdeJson]

/-- The change set a thread holds. -/
def holdOf (i : Nat) (entries : List SystemEntry) : Hold :=
  Log.hold (applyPart (Pool.own i entries))

/-- What is held after a command of the process. -/
def Hold.nextOf (hold : Hold) : (c : SystemCmd) → c.Reply → Hold
  | .apply c, r => hold.next c r
  | _, _ => hold

theorem holdOf_concat (i : Nat) (entries : List SystemEntry) (x : SystemEntry) :
    holdOf i (entries ++ [x]) = if x.event.thread = i then
      (holdOf i entries).nextOf x.event.cmd x.event.reply else holdOf i entries := by
  unfold holdOf
  rw [Pool.own_append, applyPart_append]
  obtain ⟨s, j, c, r⟩ := x
  by_cases hj : j = i
  · subst hj
    have hown : Pool.own j [(⟨s, j, c, r⟩ : SystemEntry)] = [⟨c, r⟩] := by simp [Pool.own]
    rw [hown, if_pos rfl]
    cases c with
    | apply c => exact Log.hold_concat ..
    | sync c => exact congrArg Log.hold (List.append_nil _)
    | api c => exact congrArg Log.hold (List.append_nil _)
  · have hown : Pool.own i [(⟨s, j, c, r⟩ : SystemEntry)] = [] := by simp [Pool.own, hj]
    rw [hown, if_neg hj]
    exact congrArg Log.hold (List.append_nil _)

/-- A command takes hold of a change set, or all threads hold what they held. -/
theorem Hold.nextOf_cases (hold : Hold) (c : SystemCmd) (r : c.Reply) :
    (∃ id s t, c = .apply (.updateStatus id s t) ∧ c.committed r = true ∧
        hold.nextOf c r = some (id, t)) ∨
      (∀ id s t, c = .apply (.updateStatus id s t) → c.committed r = false) ∧
        hold.nextOf c r = hold := by
  cases c with
  | apply c =>
    cases c with
    | updateStatus id s t =>
      cases r with
      | error e => exact .inr ⟨fun _ _ _ _ => rfl, rfl⟩
      | ok n =>
        cases n with
        | zero => exact .inr ⟨fun _ _ _ _ => rfl, rfl⟩
        | succ n => exact .inl ⟨id, s, t, rfl, rfl, rfl⟩
    | _ => exact .inr ⟨fun _ _ _ h => (nomatch h), rfl⟩
  | sync c => exact .inr ⟨fun _ _ _ h => (nomatch h), rfl⟩
  | api c => exact .inr ⟨fun _ _ _ h => (nomatch h), rfl⟩

/-! ## Who changes a status -/

omit [SerdeJson] in
theorem statusOf_setStatus_of_ne {db : Database} {id id' : String} (hne : id' ≠ id)
    (guard : Changeset → Bool) (status : ChangeSetStatus) (now : String) :
    (db.setStatus id guard status now).statusOf id' = db.statusOf id' := by
  rw [Database.statusOf_setStatus]
  unfold Database.statusOf
  cases hrow : db.changesets.find? id' with
  | none => rfl
  | some row =>
    have hkey := (Table.find?_eq_some.mp hrow).2
    simp [hkey, hne]

omit [SerdeJson] in
theorem statusOf_setStatus_self {db : Database} {id : String} {x y : ChangeSetStatus}
    {guard : Changeset → Bool} {status : ChangeSetStatus} {now : String}
    (hx : db.statusOf id = some x) (hguard : ∀ row : Changeset, row.status = x → guard row = true)
    (hy : (db.setStatus id guard status now).statusOf id = some y) : y = status := by
  obtain ⟨row, hrow, rfl⟩ := Option.map_eq_some_iff.mp hx
  have hkey := (Table.find?_eq_some.mp hrow).2
  rw [Database.statusOf_setStatus, hrow] at hy
  simpa [hkey, hguard row rfl] using hy.symm

/-- Only the two `UPDATE`s of a change set change its status. -/
theorem cmd_of_status_ne {env : SystemEnv} {s : SystemState} {c : SystemCmd} {phase : Phase}
    (hallowed : systemLifecycle.allows phase c) {id : String} {x y : ChangeSetStatus}
    (hx : s.db.statusOf id = some x) (hy : (handleSystem env c s).2.db.statusOf id = some y)
    (hne : x ≠ y) : c.committed (handleSystem env c s).1 = true ∧
      (c = .apply (.updateStatus id x y) ∨ ∃ snapshot, c = .apply (.txUpdate id y snapshot)) := by
  by_cases hother : ∀ c', c ≠ .apply c'
  · -- any other command at most adds a change set
    rcases (draftsAdded_of_allowed env s hallowed hother).1 id with
      hsame | ⟨hnone, -⟩
    · exact absurd (Option.some.inj (hx.symm.trans (hsame.symm.trans hy))) hne
    · exact absurd (hx.symm.trans hnone) (Option.some_ne_none _)
  · obtain ⟨c, rfl⟩ : ∃ c', c = .apply c' := by
      simpa using hother
    have heffect := handleSystem_effect env (.apply c) s
    cases hcommitted : (SystemCmd.apply c).committed (handleSystem env (.apply c) s).1 with
    | false =>
      rw [(heffect.quiet hcommitted).1] at hy
      exact absurd (Option.some.inj (hx.symm.trans hy)) hne
    | true =>
      obtain ⟨hwrote, -⟩ := heffect.wrote hcommitted
      refine ⟨rfl, ?_⟩
      generalize (handleSystem env (.apply c) s).2.db = db at hwrote hy
      cases hwrote with
      | @updateStatus id' source target hstatus =>
        by_cases hid : id = id'
        · subst hid
          obtain rfl := Option.some.inj (hx.symm.trans hstatus)
          obtain rfl := statusOf_setStatus_self hx (fun row hrow => by simp [hrow]) hy
          exact .inl rfl
        · rw [statusOf_setStatus_of_ne hid] at hy
          exact absurd (Option.some.inj (hx.symm.trans hy)) hne
      | @txUpdate id' target =>
        by_cases hid : id = id'
        · subst hid
          obtain rfl := statusOf_setStatus_self hx (fun _ _ => rfl) hy
          exact .inr ⟨_, rfl⟩
        · rw [statusOf_setStatus_of_ne hid] at hy
          exact absurd (Option.some.inj (hx.symm.trans hy)) hne

/-- The guarded `UPDATE` that has affected a row has moved it. -/
theorem moved_of_committed {env : SystemEnv} {s : SystemState} {id : String}
    {source target : ChangeSetStatus}
    (h : (SystemCmd.apply (.updateStatus id source target)).committed
      (handleSystem env (.apply (.updateStatus id source target)) s).1 = true) :
    Moved s.world (handleSystem env (.apply (.updateStatus id source target)) s).2.world
      id source target := by
  rcases updateStatusWhere_cases env.apply s.world id source target with ⟨-, hno⟩ | hmoved
  · change (SystemCmd.apply (.updateStatus id source target)).committed
      (updateStatusWhere env.apply s.world id source target).1 = true at h
    generalize (updateStatusWhere env.apply s.world id source target).1 = r at h hno
    cases r with
    | error e => cases h
    | ok n =>
      cases n with
      | zero => cases h
      | succ n => exact absurd rfl (hno n)
  · exact hmoved

variable [CryptoLib] [Sha256]

/-- Only a run of the worker issues the guarded `UPDATE`. -/
theorem Request.not_makes_updateStatus {state : AppState} {request : Request} {id : String}
    {source target : ChangeSetStatus} :
    ¬ request.Makes state (.apply (.updateStatus id source target)) := by
  intro h
  cases request <;> exact absurd h (acts_eq_false_of rfl)

/-- Only the request to validate it issues the `UPDATE` of a transaction. -/
theorem Request.makes_txUpdate {state : AppState} {request : Request} {id : String}
    {target : ChangeSetStatus} {snapshot : Nat}
    (h : request.Makes state (.apply (.txUpdate id target snapshot))) :
    request = .validateChangeset id ∧ target = .validated := by
  cases request with
  | validateChangeset id' =>
    obtain ⟨rfl, rfl⟩ := h
    exact ⟨rfl, rfl⟩
  | _ => exact absurd h (acts_eq_false_of rfl)

end

/-! ## The invariant -/

section Custody

variable [SerdeJson] [CryptoLib] [Sha256]

/-- The change set was validated by a request of this run. -/
structure Validated (requests : List Request) (entries : List SystemEntry) (id : String) : Prop where
  requested : .validateChangeset id ∈ requests
  committed : ∃ x ∈ entries, (∃ snapshot, x.event.cmd = .apply (.txUpdate id .validated snapshot)) ∧
    x.event.cmd.committed x.event.reply = true

/-- What holds of the database and the threads at every moment of a run from `start`. -/
structure Custody (start : Database) (requests : List Request) (entries : List SystemEntry)
    (s : SystemState) : Prop where
  claims : SystemClaims s (entries.map (·.event))
  /-- What a thread holds has the status that the thread has given it. -/
  holds : ∀ i id status, holdOf i entries = some (id, status) →
    s.db.statusOf id = some status ∧ ChangeSetStatus.applying.rank ≤ status.rank
  unique : ∀ i j id x y, holdOf i entries = some (id, x) → holdOf j entries = some (id, y) → i = j
  /-- A change set that is no draft was validated in this run, or was no draft at its start. -/
  validated : ∀ id status, s.db.statusOf id = some status → status ≠ .draft →
    Validated requests entries id ∨ ∃ before, start.statusOf id = some before ∧ before ≠ .draft

variable {state : AppState} {requests : List Request} {runs : List WorkerRun} {env : SystemEnv}
  {start : Database} {entries : List SystemEntry} {s : SystemState} {i : Nat} {c : SystemCmd}

variable [UnicodeData] [Chrono]

/-- What a command of a thread is allowed by: the life cycle, and a request or a run of the
    worker. -/
structure Allowed (state : AppState) (requests : List Request) (runs : List WorkerRun)
    (log : List (Sigma SystemCmd.Reply)) (c : SystemCmd) : Prop where
  lifecycle : systemLifecycle.allows (systemLifecycle.read log) c
  sanctioned : Sanctioned state requests runs log c

namespace Custody

/-- The guarded `UPDATE` is allowed from `validated`, or from the status that is held. -/
theorem source_of_updateStatus {log : List (Sigma SystemCmd.Reply)} {id : String}
    {source target : ChangeSetStatus}
    (h : Sanctioned state requests runs log (.apply (.updateStatus id source target))) :
    source.canTransitionTo target = true ∧
      (source = .validated ∨ Log.hold (applyPart log) = some (id, source)) := by
  rcases h with ⟨request, -, h⟩ | ⟨run, -, h, -⟩
  · exact absurd h Request.not_makes_updateStatus
  · exact h

/-- The `UPDATE` of a transaction was asked for. -/
theorem request_of_txUpdate {log : List (Sigma SystemCmd.Reply)} {id : String}
    {target : ChangeSetStatus} {snapshot : Nat}
    (h : Sanctioned state requests runs log (.apply (.txUpdate id target snapshot))) :
    .validateChangeset id ∈ requests ∧ target = .validated := by
  rcases h with ⟨request, hmem, h⟩ | ⟨run, -, h, -⟩
  · obtain ⟨rfl, rfl⟩ := Request.makes_txUpdate h
    exact ⟨hmem, rfl⟩
  · exact h.elim

/-- The life cycle of the log is that of the thread's own commands. -/
private theorem lifecycle_after (h : Allowed state requests runs (Pool.own i entries) c) :
    systemLifecycle.allows (systemLifecycle.after i (entries.map (·.event))) c := by
  rw [Pool.after_eq_read]
  exact h.lifecycle

/-- The status of a change set a thread holds: it is another one only by the `UPDATE` of the
    thread that holds it. -/
private theorem holds_step (h : Custody start requests entries s)
    (hc : Allowed state requests runs (Pool.own i entries) c) {j : Nat} {id : String}
    {status : ChangeSetStatus} (hj : holdOf j entries = some (id, status))
    (hother : ∀ t, c = .apply (.updateStatus id status t) →
      c.committed (handleSystem env c s).1 = true → j ≠ i) :
    (handleSystem env c s).2.db.statusOf id = some status := by
  obtain ⟨hstatus, hrank⟩ := h.holds j id status hj
  have hstep := h.claims.statusStep env (lifecycle_after hc) id
  have hthere : s.db.statusOf id ≠ none := by
    rw [hstatus]
    exact Option.some_ne_none _
  obtain ⟨y, hy⟩ := Option.ne_none_iff_exists'.mp
    (h.claims.statusOf_ne_none env (lifecycle_after hc) hthere)
  by_cases hne : status = y
  · rw [hy, hne]
  · exfalso
    obtain ⟨hcommitted, rfl | ⟨snapshot, rfl⟩⟩ := cmd_of_status_ne hc.lifecycle hstatus hy hne
    · -- the `UPDATE` of another thread would be from `validated`, or by the holder
      rcases (source_of_updateStatus hc.sanctioned).2 with rfl | hi
      · exact absurd hrank (by decide)
      · exact hother y rfl hcommitted (h.unique j i id _ _ hj hi)
    · obtain rfl := (request_of_txUpdate hc.sanctioned).2
      rw [hstatus, hy] at hstep
      rcases hstep with hsame | ⟨hnone, -⟩ | ⟨a, b, ha, hb, hcan⟩
      · exact hne (Option.some.inj hsame)
      · cases hnone
      · cases ha
        cases hb
        have hlt := ChangeSetStatus.rank_lt_of_canTransitionTo hcan
        exact absurd (hrank.trans_lt hlt) (by decide)

/-- The thread that has taken hold of a change set now is the only one that holds it. -/
private theorem unique_update (h : Custody start requests entries s) {id : String}
    {source target : ChangeSetStatus}
    (hc : Allowed state requests runs (Pool.own i entries)
      (.apply (.updateStatus id source target)))
    (hmoved : Moved s.world (handleSystem env (.apply (.updateStatus id source target)) s).2.world
      id source target) {j : Nat} {x : ChangeSetStatus} (hj : holdOf j entries = some (id, x)) :
    j = i := by
  obtain ⟨hstatus, hrank⟩ := h.holds j id x hj
  obtain rfl : source = x := Option.some.inj (hmoved.source.symm.trans hstatus)
  rcases (source_of_updateStatus hc.sanctioned).2 with rfl | hi
  · exact absurd hrank (by decide)
  · exact h.unique j i id _ _ hj hi

omit [CryptoLib] [Sha256] [UnicodeData] [Chrono] in
variable (env entries) in
/-- What a thread holds after a command: the change set it has moved with it, or what it held. -/
private theorem holdOf_issued (i j : Nat) (c : SystemCmd) (s : SystemState) :
    (∃ id source target, c = .apply (.updateStatus id source target) ∧
        c.committed (handleSystem env c s).1 = true ∧ j = i ∧
        holdOf j (entries ++ [⟨s, ⟨i, c, (handleSystem env c s).1⟩⟩]) = some (id, target)) ∨
      (∀ id source target, c = .apply (.updateStatus id source target) →
        c.committed (handleSystem env c s).1 = true → j ≠ i) ∧
        holdOf j (entries ++ [⟨s, ⟨i, c, (handleSystem env c s).1⟩⟩]) = holdOf j entries := by
  rw [holdOf_concat]
  split
  · next hij =>
    obtain rfl : i = j := hij
    rcases (holdOf i entries).nextOf_cases c (handleSystem env c s).1 with
      ⟨id, source, target, hcmd, hcommitted, hnext⟩ | ⟨hno, hnext⟩
    · exact .inl ⟨id, source, target, hcmd, hcommitted, rfl, hnext⟩
    · refine .inr ⟨fun id source target hcmd hcommitted => ?_, hnext⟩
      rw [hno id source target hcmd] at hcommitted
      cases hcommitted
  · next hij => exact .inr ⟨fun _ _ _ _ _ hji => hij hji.symm, rfl⟩

private theorem holds_issued (h : Custody start requests entries s)
    (hc : Allowed state requests runs (Pool.own i entries) c) (j : Nat) (id : String)
    (status : ChangeSetStatus)
    (hj : holdOf j (entries ++ [⟨s, ⟨i, c, (handleSystem env c s).1⟩⟩]) = some (id, status)) :
    (handleSystem env c s).2.db.statusOf id = some status ∧
      ChangeSetStatus.applying.rank ≤ status.rank := by
  rcases holdOf_issued env entries i j c s with
    ⟨id', source, target, rfl, hcommitted, -, hnext⟩ | ⟨hother, hnext⟩
  · obtain ⟨rfl, rfl⟩ := Prod.mk.inj (Option.some.inj (hnext.symm.trans hj))
    refine ⟨(moved_of_committed hcommitted).target, ?_⟩
    obtain ⟨hcan, hsource⟩ := source_of_updateStatus hc.sanctioned
    have hlt := ChangeSetStatus.rank_lt_of_canTransitionTo hcan
    rcases hsource with rfl | hi
    · exact hlt
    · exact ((h.holds i id' source hi).2.trans_lt hlt).le
  · rw [hnext] at hj
    exact ⟨h.holds_step hc hj fun t hcmd hcommitted => hother id status t hcmd hcommitted,
      (h.holds j id status hj).2⟩

private theorem unique_issued (h : Custody start requests entries s)
    (hc : Allowed state requests runs (Pool.own i entries) c) (j k : Nat) (id : String)
    (x y : ChangeSetStatus)
    (hj : holdOf j (entries ++ [⟨s, ⟨i, c, (handleSystem env c s).1⟩⟩]) = some (id, x))
    (hk : holdOf k (entries ++ [⟨s, ⟨i, c, (handleSystem env c s).1⟩⟩]) = some (id, y)) :
    j = k := by
  rcases holdOf_issued env entries i j c s with
    ⟨id', source, target, rfl, hcommitted, rfl, hnext⟩ | ⟨-, hnext⟩
  · obtain ⟨rfl, -⟩ := Prod.mk.inj (Option.some.inj (hnext.symm.trans hj))
    rcases holdOf_issued env entries j k
      (.apply (.updateStatus id' source target)) s with ⟨-, -, -, -, -, rfl, -⟩ | ⟨-, hnext'⟩
    · rfl
    · rw [hnext'] at hk
      exact (h.unique_update hc (moved_of_committed hcommitted) hk).symm
  · rcases holdOf_issued env entries i k c s with
      ⟨id', source, target, rfl, hcommitted, rfl, hnext'⟩ | ⟨-, hnext'⟩
    · obtain ⟨rfl, -⟩ := Prod.mk.inj (Option.some.inj (hnext'.symm.trans hk))
      rw [hnext] at hj
      exact h.unique_update hc (moved_of_committed hcommitted) hj
    · rw [hnext] at hj
      rw [hnext'] at hk
      exact h.unique j k id x y hj hk

private theorem validated_issued (h : Custody start requests entries s)
    (hc : Allowed state requests runs (Pool.own i entries) c) (id : String)
    (status : ChangeSetStatus) (hstatus : (handleSystem env c s).2.db.statusOf id = some status)
    (hdraft : status ≠ .draft) :
    Validated requests (entries ++ [⟨s, ⟨i, c, (handleSystem env c s).1⟩⟩]) id ∨
      ∃ before, start.statusOf id = some before ∧ before ≠ .draft := by
  have hold : ∀ x, s.db.statusOf id = some x → x ≠ .draft →
      Validated requests (entries ++ [⟨s, ⟨i, c, (handleSystem env c s).1⟩⟩]) id ∨
        ∃ before, start.statusOf id = some before ∧ before ≠ .draft := fun x hx hne =>
    (h.validated id x hx hne).imp_left fun hv =>
      ⟨hv.requested, hv.committed.imp fun _ he => ⟨List.mem_append_left _ he.1, he.2⟩⟩
  have hstep := h.claims.statusStep env (lifecycle_after hc) id
  rw [hstatus] at hstep
  rcases hstep with hsame | ⟨-, hnew⟩ | ⟨x, y, hx, hy, hcan⟩
  · exact hold status hsame hdraft
  · exact absurd (Option.some.inj hnew) hdraft
  · obtain rfl := Option.some.inj hy
    by_cases hne : x = .draft
    · -- a draft is moved by the transaction of a request only
      subst hne
      obtain ⟨hcommitted, rfl | ⟨snapshot, rfl⟩⟩ :=
        cmd_of_status_ne hc.lifecycle hx hstatus (Ne.symm hdraft)
      · rcases (source_of_updateStatus hc.sanctioned).2 with hsource | hi
        · cases hsource
        · exact absurd (h.holds i id _ hi).2 (by decide)
      · obtain ⟨hrequest, rfl⟩ := request_of_txUpdate hc.sanctioned
        exact .inl ⟨hrequest, _, List.mem_append_right _ List.mem_cons_self, ⟨snapshot, rfl⟩,
          hcommitted⟩
    · exact hold x hx hne

/-- Every sanctioned command keeps the invariant. -/
theorem step (h : Custody start requests entries s)
    (hc : Allowed state requests runs (Pool.own i entries) c) :
    Custody start requests (entries ++ [⟨s, ⟨i, c, (handleSystem env c s).1⟩⟩])
      (handleSystem env c s).2 where
  claims := by
    rw [List.map_append]
    exact h.claims.step (lifecycle_after hc)
  holds := h.holds_issued hc
  unique := h.unique_issued hc
  validated := h.validated_issued hc

omit [CryptoLib] [Sha256] [UnicodeData] [Chrono] in
/-- The invariant holds before anything has happened. -/
theorem init (requests : List Request) (s : SystemState) : Custody s.db requests [] s where
  claims := .start s
  holds _ _ _ h := nomatch h
  unique _ _ _ _ _ h := nomatch h
  validated _ status hs hne := .inr ⟨status, hs, hne⟩

end Custody

/-! ## Runs of the process -/

section Runs

variable (state : AppState) (requests : List Request) (runs : List WorkerRun) (env : SystemEnv)
  (s : SystemState) (schedule : List Nat)

/-- Every command of every thread of the process is allowed. -/
theorem obeys_process_allowed : ∀ t ∈ (process state requests runs s).threads,
    Obeys (Prog.recorder (Allowed state requests runs)) t [] fun _ _ => True := by
  intro t ht
  have hlifecycle : Obeys systemLifecycle t (systemLifecycle.read []) fun _ _ => True :=
    obeys_process state requests runs s t ht
  exact (hlifecycle.recorded.both (obeys_process_sanctioned state requests runs s t ht)).allowing
    fun _ _ h => ⟨h.1, h.2⟩

/-- At every moment of a run the invariant holds. -/
theorem custody_exec : Custody s.db requests
    ((process state requests runs s).trail (handleSystem env) schedule)
    ((process state requests runs s).exec (handleSystem env) schedule).state :=
  Pool.trail_invariant (J := Custody s.db requests) (obeys_process_allowed state requests runs s)
    (.init requests s) (fun _ _ _ _ h hc => h.step hc) schedule

/-- A thread that issues nothing any more, as after a crash, leaves the change set it holds as it
    is for ever: whatever requests and workers do afterwards, its status does not change, and
    nobody else takes hold of it. -/
theorem crash_is_final {i : Nat} {id : String} {status : ChangeSetStatus}
    (hheld : holdOf i ((process state requests runs s).trail (handleSystem env) schedule) =
      some (id, status)) {rest : List Nat} (hcrash : i ∉ rest) :
    ((process state requests runs s).exec (handleSystem env) (schedule ++ rest)).state.db.statusOf
        id = some status ∧
      ∀ j x, holdOf j ((process state requests runs s).trail (handleSystem env) (schedule ++ rest))
        = some (id, x) → j = i := by
  have h := custody_exec state requests runs env s (schedule ++ rest)
  have hstill : holdOf i ((process state requests runs s).trail (handleSystem env)
      (schedule ++ rest)) = some (id, status) := by
    unfold holdOf at hheld ⊢
    rw [Pool.trail_append, Pool.own_append, Pool.own_trail_of_notMem hcrash, List.append_nil]
    exact hheld
  exact ⟨(h.holds i id status hstill).1, fun j x hj => h.unique j i id x status hj hstill⟩

end Runs

end Custody

/-! ## A run of the sample -/

namespace Sample

/-- The requests to create the change set `c1`, which creates `www`, and to validate it. -/
def sentRequests : List Request :=
  [.createChangeset ⟨"c1", "2024-01-15T12:30:00+00:00"⟩
      (request [item "r1" "create" none (some (www "192.0.2.1"))]),
    .validateChangeset "c1"]

/-- A worker that processes one batch of change sets. -/
def workerRun : WorkerRun := ⟨worker, 1, 0, []⟩

def appState : AppState := ⟨⟨.ok kek⟩, ["route53"]⟩

/-- Nothing fails, and the providers list nothing. -/
def systemEnv : SystemEnv := ⟨env fun _ => .ok, syncEnv []⟩

/-- The zone with two bindings, which hold nothing. -/
def systemState : SystemState := { world := { db := twoBindings, contents := fun _ _ => none } }

/-- The process with two runs of the worker, the second one after a restart. -/
abbrev restarted : Pool SystemCmd SystemCmd.Reply SystemState :=
  process appState sentRequests [workerRun, workerRun] systemState

/-- Both requests are served, and the first worker issues `n` commands. -/
def served (n : Nat) : List Nat := List.replicate 4 0 ++ List.replicate 5 1 ++ List.replicate n 2

/-- The worker has claimed the change set and crashes; the worker that is started next leaves it
    alone, though it looks for change sets. -/
theorem crash_is_final_claimed :
    (restarted.exec (handleSystem systemEnv) (served 3 ++ List.replicate 9 5)).state.db.statusOf
        "c1" = some .applying ∧
      ∀ j x, holdOf j (restarted.trail (handleSystem systemEnv) (served 3 ++ List.replicate 9 5))
        = some ("c1", x) → j = 2 :=
  crash_is_final appState sentRequests [workerRun, workerRun] systemEnv systemState (served 3)
    (by decide +kernel) (by decide)

end Sample

end DnsManager
