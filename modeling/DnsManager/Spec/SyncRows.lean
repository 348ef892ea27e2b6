import DnsManager.Spec.Sample
import DnsManager.Spec.SyncPasses

/-!
# The rows of `sync_states` under any run of passes

Observe passes and retry passes write the same table, each with its own arguments, in any order.
A row is determined by the writes to its pair alone: `SyncRun` says so of every state a run
reaches.

## Key results
- `syncRun_exec`: what holds after any schedule of passes.
- `syncRowInvariant_exec`: the counter of a row is the number of failures at the end of the
  writes to its pair, less one, and the other columns fit the status.
-/

namespace DnsManager

open Prog (Event Monitor Obeys Pool)

/-! ## Writes -/

/-- The row a command has written, by its reply. -/
def SyncCmd.wrote : (c : SyncCmd) → c.Reply → Option SyncState
  | .upsertSyncState row, .ok () => some row
  | _, _ => none

/-- The row an event has written. -/
def written (e : SyncEvent) : Option SyncState := e.cmd.wrote e.reply

/-- The rows written to a pair, oldest first. -/
def writesTo (key : String × String) (log : List SyncEvent) : List SyncState :=
  (log.filterMap written).filter (·.key = key)

@[simp] theorem writesTo_nil (key : String × String) : writesTo key [] = [] := rfl

theorem writesTo_append (key : String × String) (log log' : List SyncEvent) :
    writesTo key (log ++ log') = writesTo key log ++ writesTo key log' := by
  simp only [writesTo, List.filterMap_append, List.filter_append]

/-- An event that has written a row. -/
theorem writesTo_singleton {e : SyncEvent} {row : SyncState} (h : written e = some row)
    (key : String × String) : writesTo key [e] = if row.key = key then [row] else [] := by
  simp [writesTo, h, List.filter_cons]

/-- An event that has written nothing. -/
theorem writesTo_singleton_none {e : SyncEvent} (h : written e = none) (key : String × String) :
    writesTo key [e] = [] := by
  simp [writesTo, h]

/-- Only an upsert writes a row. -/
theorem cmd_of_written {e : SyncEvent} {row : SyncState} (h : written e = some row) :
    e.cmd = .upsertSyncState row := by
  obtain ⟨i, c, reply⟩ := e
  cases c with
  | upsertSyncState row' =>
    cases reply with
    | error e => cases h
    | ok _ =>
      cases h
      rfl
  | _ => cases h

theorem mem_writesTo {key : String × String} {log : List SyncEvent} {row : SyncState} :
    row ∈ writesTo key log ↔ (∃ e ∈ log, written e = some row) ∧ row.key = key := by
  simp [writesTo]

/-- The row of an event that has written a pair. -/
theorem exists_written {key : String × String} {e : SyncEvent} (h : writesTo key [e] ≠ []) :
    ∃ row, written e = some row ∧ row.key = key := by
  obtain ⟨row, hmem⟩ := List.exists_mem_of_ne_nil _ h
  obtain ⟨⟨x, hx, hwritten⟩, hkey⟩ := mem_writesTo.mp hmem
  obtain rfl := List.mem_singleton.mp hx
  exact ⟨row, hwritten, hkey⟩

/-- What some writes leave of the row of their pair. -/
def rowAfter (old : Option SyncState) (writes : List SyncState) : Option SyncState :=
  writes.foldl (fun old row => some (row.upserted old)) old

@[simp] theorem rowAfter_nil (old : Option SyncState) : rowAfter old [] = old := rfl

theorem rowAfter_append (old : Option SyncState) (writes writes' : List SyncState) :
    rowAfter old (writes ++ writes') = rowAfter (rowAfter old writes) writes' := List.foldl_append

theorem rowAfter_concat (old : Option SyncState) (writes : List SyncState) (row : SyncState) :
    rowAfter old (writes ++ [row]) = some (row.upserted (rowAfter old writes)) :=
  rowAfter_append ..

/-- The number of failures at the end of some writes. -/
def failuresAtEnd (writes : List SyncState) : Nat :=
  (writes.reverse.takeWhile (·.status = .syncFailed)).length

theorem failuresAtEnd_concat (writes : List SyncState) (row : SyncState) :
    failuresAtEnd (writes ++ [row]) =
      if row.status = .syncFailed then failuresAtEnd writes + 1 else 0 := by
  simp only [failuresAtEnd, List.reverse_append, List.reverse_cons, List.reverse_nil,
    List.nil_append, List.singleton_append, List.takeWhile_cons, decide_eq_true_eq]
  split <;> rfl

/-- The last event of a log in a split of it. -/
theorem split_concat {log pre post : List SyncEvent} {e x : SyncEvent}
    (h : log ++ [e] = pre ++ x :: post) :
    (post = [] ∧ x = e ∧ pre = log) ∨ ∃ post', post = post' ++ [e] ∧ log = pre ++ x :: post' := by
  rcases List.eq_nil_or_concat' post with rfl | ⟨post', last, rfl⟩
  · obtain ⟨rfl, hlast⟩ := List.append_inj' h rfl
    exact .inl ⟨rfl, (List.cons.inj hlast).1.symm, rfl⟩
  · rw [← List.cons_append, ← List.append_assoc] at h
    obtain ⟨rfl, hlast⟩ := List.append_inj' h rfl
    obtain ⟨rfl, -⟩ := List.cons.inj hlast
    exact .inr ⟨post', rfl, rfl⟩

/-- The first write to a pair. -/
private theorem exists_first_write {key : String × String} {log : List SyncEvent}
    {first : SyncState} (h : (writesTo key log).head? = some first) :
    ∃ pre e post, log = pre ++ e :: post ∧ writesTo key pre = [] ∧ written e = some first ∧
      first.key = key := by
  induction log with
  | nil => cases h
  | cons e log ih =>
    rw [← List.singleton_append, writesTo_append] at h
    by_cases hnone : writesTo key [e] = []
    · -- the first write is further on
      rw [hnone] at h
      obtain ⟨pre, x, post, rfl, hpre, hx, hkey⟩ := ih h
      refine ⟨e :: pre, x, post, rfl, ?_, hx, hkey⟩
      rw [← List.singleton_append, writesTo_append, hnone, hpre]
      rfl
    · -- this is the first one
      obtain ⟨row, hwritten, hkey⟩ := exists_written hnone
      rw [writesTo_singleton hwritten, if_pos hkey] at h
      cases h
      exact ⟨[], e, log, rfl, rfl, hwritten, hkey⟩

/-! ## What a command changes -/

/-- A query changes no table. -/
@[simp] theorem SyncWorld.db_query (env : SyncEnv) (w : SyncWorld) {α : Type}
    (answer : Database → α) : (w.query env answer).2.db = w.db := by
  unfold SyncWorld.query
  split <;> rfl

/-- A write statement fails and changes no table, or it does what it says. -/
theorem SyncWorld.write_cases (env : SyncEnv) (w : SyncWorld)
    (statement : Database → Except Violation Database) :
    (∃ e, (w.write env statement).1 = .error e ∧ (w.write env statement).2.db = w.db) ∨
      ∃ db, statement w.db = .ok db ∧ (w.write env statement).1 = .ok () ∧
        (w.write env statement).2.db = db := by
  unfold SyncWorld.write
  cases env.writes w.writes with
  | some e => exact .inl ⟨e, rfl, rfl⟩
  | none =>
    cases hdb : statement w.db with
    | error v => exact .inl ⟨v.display, rfl, rfl⟩
    | ok db => exact .inr ⟨db, rfl, rfl, rfl⟩

/-- A command leaves the bindings and the desired records alone, and changes the row of a pair
    only by writing it. -/
theorem handleSync_changes (env : SyncEnv) (i : Nat) (c : SyncCmd) (w : SyncWorld) :
    (handleSync env c w).2.db.bindings = w.db.bindings ∧
      (handleSync env c w).2.db.desiredRecords = w.db.desiredRecords ∧
      ∀ key, (handleSync env c w).2.db.syncStates.find? key =
        rowAfter (w.db.syncStates.find? key)
          (writesTo key [⟨i, c, (handleSync env c w).1⟩]) := by
  cases c with
  | upsertSyncState row =>
    simp only [handleSync]
    rcases w.write_cases env (·.upsertSyncState row) with ⟨e, hreply, hdb⟩ | ⟨db, hok, hreply, hdb⟩
    · -- a refused statement is no write
      simp only [hreply, hdb, true_and]
      exact fun key => rfl
    · obtain ⟨hbindings, hdesired⟩ := Database.upsertSyncState_frame hok
      simp only [hreply, hdb]
      refine ⟨hbindings, hdesired, fun key => ?_⟩
      rw [writesTo_singleton (show written ⟨i, .upsertSyncState row, .ok ()⟩ = some row from rfl)]
      refine (Database.find?_upsertSyncState hok key).trans ?_
      split <;> rfl
  | listRecords b creds => exact ⟨rfl, rfl, fun key => rfl⟩
  | utcNow => exact ⟨rfl, rfl, fun key => rfl⟩
  | _ =>
    refine ⟨by simp [handleSync], by simp [handleSync], fun key => ?_⟩
    rw [writesTo_singleton_none rfl]
    simp [handleSync]

/-! ## What a pass has read -/

/-- What a pass has read is in the database, under the id it is used with. -/
structure PassState.ReadFrom (db : Database) (σ : PassState) : Prop where
  bindings : ∀ p ∈ σ.bindings, p.2 ∈ db.bindings ∧ p.2.id = p.1
  records : ∀ p ∈ σ.records, p.2 ∈ db.desiredRecords ∧ p.2.id = p.1

/-- A query fails or answers what the database holds. -/
theorem SyncWorld.query_cases (env : SyncEnv) (w : SyncWorld) {α : Type} (answer : Database → α) :
    (∃ e, (w.query env answer).1 = .error e) ∨ (w.query env answer).1 = .ok (answer w.db) := by
  unfold SyncWorld.query
  split
  · exact .inl ⟨_, rfl⟩
  · exact .inr rfl

/-- A pass reads what the database holds. -/
theorem PassState.ReadFrom.next {σ : PassState} {w : SyncWorld} (h : σ.ReadFrom w.db) (env : SyncEnv)
    (c : SyncCmd) : (σ.next c (handleSync env c w).1).ReadFrom w.db := by
  -- a reply adds rows of the table it reads, under the ids that were asked for
  cases c with
  | utcNow => exact ⟨h.bindings, h.records⟩
  | selectActive =>
    simp only [handleSync]
    rcases w.query_cases env fun db => db.bindings.select fun b => b.status == .active with
      ⟨e, hreply⟩ | hreply <;> rw [hreply]
    · exact h
    · refine ⟨List.forall_mem_append.mpr ⟨h.bindings, fun p hp => ?_⟩, h.records⟩
      obtain ⟨b, hb, rfl⟩ := List.mem_map.mp hp
      exact ⟨(Table.mem_select.mp hb).1, rfl⟩
  | selectDesired bindingId =>
    simp only [handleSync]
    rcases w.query_cases env (·.desiredOf bindingId) with ⟨e, hreply⟩ | hreply <;> rw [hreply]
    · exact h
    · refine ⟨h.bindings, List.forall_mem_append.mpr ⟨h.records, fun p hp => ?_⟩⟩
      obtain ⟨r, hr, rfl⟩ := List.mem_map.mp hp
      exact ⟨Database.mem_desiredRecords_of_mem_desiredOf hr, rfl⟩
  | selectFailed => exact h
  | selectBinding id =>
    simp only [handleSync]
    rcases w.query_cases env (·.bindings.find? id) with ⟨e, hreply⟩ | hreply <;> rw [hreply]
    · exact h
    · cases hfind : w.db.bindings.find? id with
      | none => exact h
      | some b =>
        obtain ⟨hb, rfl⟩ := Table.find?_eq_some.mp hfind
        refine ⟨List.forall_mem_append.mpr ⟨h.bindings, fun p hp => ?_⟩, h.records⟩
        obtain rfl : p = (b.id, b) := by simpa using hp
        exact ⟨hb, rfl⟩
  | selectRecord id =>
    simp only [handleSync]
    rcases w.query_cases env (·.desiredRecords.find? id) with ⟨e, hreply⟩ | hreply <;> rw [hreply]
    · exact h
    · cases hfind : w.db.desiredRecords.find? id with
      | none => exact h
      | some r =>
        refine ⟨h.bindings, List.forall_mem_append.mpr ⟨h.records, fun p hp => ?_⟩⟩
        obtain rfl : p = (id, r) := by simpa using hp
        exact Table.find?_eq_some.mp hfind
  | listRecords b creds => exact ⟨h.bindings, h.records⟩
  | upsertSyncState row => exact h

/-- A write tells its pass nothing. -/
private theorem PassState.next_of_written {e : SyncEvent} {row : SyncState} (h : written e = some row)
    (σ : PassState) : σ.next e.cmd e.reply = σ := by
  obtain ⟨i, c, reply⟩ := e
  obtain rfl : c = .upsertSyncState row := cmd_of_written h
  rfl

/-! ## Runs -/

section Worker

variable [CryptoLib] [SerdeJson] [UnicodeData] [Chrono] (worker : ReconcileWorker)

/-- What holds in every state of a run that started with the database `db`: its bindings and
    records are what they were, the passes have read them, every row is what the writes to its
    pair leave, and every command was allowed. -/
structure SyncRun (db : Database) (w : SyncWorld) (log : List SyncEvent) : Prop where
  bindings : w.db.bindings = db.bindings
  desiredRecords : w.db.desiredRecords = db.desiredRecords
  read : ∀ i, (passAfter i log).ReadFrom w.db
  rows : ∀ key, w.db.syncStates.find? key = rowAfter (db.syncStates.find? key) (writesTo key log)
  allowed : ∀ pre e post, log = pre ++ e :: post →
    (passMonitor worker).allows (passAfter e.thread pre) e.cmd

/-- The row is the observation of its record that a pass makes which has read this. -/
def PassState.Derives (db : Database) (σ : PassState) (row : SyncState) : Prop :=
  ∃ binding record fetched t o, db.bindings.find? row.providerBindingId = some binding ∧
    db.desiredRecords.find? row.recordId = some record ∧ σ.instant = some t ∧
    Fetched worker binding σ.listing fetched ∧ observation fetched record = some o ∧
    row = o.row row.recordId row.providerBindingId (Chrono.toRfc3339 t)

variable {worker}

/-- A run after one more command. -/
theorem SyncRun.step {db : Database} {w : SyncWorld} {log : List SyncEvent}
    (h : SyncRun worker db w log) (env : SyncEnv) (i : Nat) (c : SyncCmd)
    (hallowed : (passMonitor worker).allows (passAfter i log) c) :
    SyncRun worker db (handleSync env c w).2 (log ++ [⟨i, c, (handleSync env c w).1⟩]) := by
  obtain ⟨hbindings, hdesired, hrows⟩ := handleSync_changes env i c w
  have hread : ∀ {σ : PassState}, σ.ReadFrom w.db → σ.ReadFrom (handleSync env c w).2.db := by
    rintro σ ⟨hb, hr⟩
    exact ⟨by rwa [hbindings], by rwa [hdesired]⟩
  refine ⟨hbindings.trans h.bindings, hdesired.trans h.desiredRecords, fun j => ?_, fun key => ?_,
    fun pre e post hsplit => ?_⟩
  · -- only the pass that issued the command has read more
    rw [passAfter_concat]
    split
    · exact hread ((h.read j).next env c)
    · exact hread (h.read j)
  · rw [hrows, h.rows, writesTo_append, rowAfter_append]
  · -- the command is the one just allowed, or an earlier one
    rcases split_concat hsplit with ⟨-, rfl, rfl⟩ | ⟨post', -, hpre⟩
    · exact hallowed
    · exact h.allowed pre e post' hpre

/-- What holds after any schedule of passes. -/
theorem syncRun_exec (env : SyncEnv) (w : SyncWorld) (passes : List SyncPass)
    (schedule : List Nat) :
    Pool.Invariant (passMonitor worker) (SyncRun worker w.db)
      ((syncPool worker w passes).exec (handleSync env) schedule) := by
  have hstart : SyncRun worker w.db w [] :=
    ⟨rfl, rfl, fun _ => ⟨nofun, nofun⟩, fun _ => rfl, fun pre e post h => by simp at h⟩
  exact Pool.invariant_exec (fun _ _ i c h hallowed => h.step _ i c hallowed)
    (syncPool_invariant worker hstart passes) schedule

/-! ## The columns of a row -/

/-- The columns of a written row fit its status. -/
structure SyncState.Fits (row : SyncState) : Prop where
  lastError : row.lastError.isSome ↔ row.status = .syncFailed
  inSync : row.status = .inSync → row.lastObservedValue.isSome

omit [CryptoLib] [Chrono] in
/-- What is observed when the fetch succeeded is no failure. -/
private theorem observation_ok {actual : RecordKey → Option ProviderRecord}
    {record : DesiredRecord} {o : Observation} (h : observation (.ok actual) record = some o) :
    o.error = none ∧ o.status ≠ .syncFailed := by
  simp only [observation] at h
  split at h
  · cases h
  · split at h <;> cases h
    · simp
    · refine ⟨rfl, ?_⟩
      change (if _ then SyncStatus.drift else SyncStatus.inSync) ≠ _
      split <;> simp

/-- A row that follows from what was read: a fresh one, whose columns fit its status, with the
    time the pass has taken. -/
theorem PassState.Justifies.fits {σ : PassState} {row : SyncState} (h : σ.Justifies worker row) :
    row.Fits ∧ row.retryCount = 0 ∧ ∃ t, σ.instant = some t ∧ row.createdAt = Chrono.toRfc3339 t := by
  cases h with
  | failed recordId hbinding hinstant hfetched =>
    exact ⟨⟨by simp [Observation.row], nofun⟩, rfl, _, hinstant, rfl⟩
  | compared hbinding hinstant hfetched hrecord hobserved hvalue =>
    obtain ⟨herror, hstatus⟩ := observation_ok hobserved
    exact ⟨⟨by simp [Observation.row, herror, hstatus], hvalue⟩, rfl, _, hinstant, rfl⟩

omit [CryptoLib] [SerdeJson] [UnicodeData] [Chrono] in
/-- What writes of fitting rows leave, when there was no row. -/
private theorem rowAfter_columns {writes : List SyncState}
    (hfits : ∀ row ∈ writes, row.Fits ∧ row.retryCount = 0) :
    (writes = [] ∧ rowAfter none writes = none) ∨ ∃ s, rowAfter none writes = some s ∧ s.Fits ∧
      (∃ first, writes.head? = some first ∧ s.createdAt = first.createdAt) ∧
      (s.status ≠ .syncFailed → s.retryCount = 0 ∧ failuresAtEnd writes = 0) ∧
      (s.status = .syncFailed → s.retryCount = failuresAtEnd writes - 1) := by
  induction writes using List.reverseRecOn with
  | nil => exact .inl ⟨rfl, rfl⟩
  | append_singleton writes row ih =>
    obtain ⟨⟨herror, hinSync⟩, hcount⟩ := hfits row (List.mem_append_right _ List.mem_cons_self)
    refine .inr ⟨_, rowAfter_concat .., ?_⟩
    rw [failuresAtEnd_concat]
    rcases ih fun r hr => hfits r (List.mem_append_left _ hr) with
      ⟨rfl, hnone⟩ | ⟨s, hs, -, ⟨first, hfirst, hcreated⟩, hresolved, hfailing⟩
    · -- the first write is inserted as it is
      rw [hnone]
      refine ⟨⟨herror, hinSync⟩, ⟨row, rfl, rfl⟩, fun hstatus => ⟨hcount, if_neg hstatus⟩,
        fun hstatus => ?_⟩
      have hrow : row.status = .syncFailed := hstatus
      rw [if_pos hrow]
      exact hcount
    · -- a later write keeps the creation time, and counts on after a failure
      rw [hs]
      refine ⟨⟨herror, hinSync⟩, ⟨first, by simp [hfirst], hcreated⟩,
        fun hstatus => ⟨if_pos hstatus, if_neg hstatus⟩, fun hstatus => ?_⟩
      have hrow : row.status = .syncFailed := hstatus
      rw [if_pos hrow]
      change (if row.status ≠ .syncFailed then 0
        else if s.status = .syncFailed then s.retryCount + 1 else 0) = _
      rw [if_neg (not_not_intro hrow)]
      split
      · next hfailed =>
        rw [hfailing hfailed]
        omega
      · next hok =>
        rw [(hresolved hok).2]
        rfl

/-- What the columns of a row say about the writes to its pair in the log. -/
structure SyncRowInvariant (log : List SyncEvent) (s : SyncState) : Prop where
  resolved : s.status ≠ .syncFailed → s.retryCount = 0
  failing : s.status = .syncFailed → s.retryCount = failuresAtEnd (writesTo s.key log) - 1
  fits : s.Fits
  /-- `created_at` is the time that was taken by the pass that wrote the pair first. -/
  created : ∃ pre e post t, log = pre ++ e :: post ∧ writesTo s.key pre = [] ∧
    writesTo s.key [e] ≠ [] ∧ (passAfter e.thread pre).instant = some t ∧
    s.createdAt = Chrono.toRfc3339 t

/-- The row of a pair after one more event of a run. -/
theorem SyncRun.find?_concat {db : Database} {w w' : SyncWorld} {log : List SyncEvent}
    {e : SyncEvent} (h : SyncRun worker db w log) (h' : SyncRun worker db w' (log ++ [e]))
    (key : String × String) : w'.db.syncStates.find? key =
      rowAfter (w.db.syncStates.find? key) (writesTo key [e]) := by
  rw [h'.rows, h.rows, writesTo_append, rowAfter_append]

/-- A write in a run follows from what its pass has read. -/
theorem SyncRun.justified {db : Database} {w : SyncWorld} {log pre post : List SyncEvent}
    {e : SyncEvent} {row : SyncState} (h : SyncRun worker db w log) (hlog : log = pre ++ e :: post)
    (hrow : written e = some row) : (passAfter e.thread pre).Justifies worker row := by
  have hallowed := h.allowed pre e post hlog
  rw [cmd_of_written hrow] at hallowed
  exact hallowed

/-- The record of a row that was written. -/
private theorem SyncRun.exists_record {db : Database} {w : SyncWorld} {pre : List SyncEvent}
    {e : SyncEvent} (h : SyncRun worker db w (pre ++ [e])) {row : SyncState}
    (hrow : written e = some row) : ∃ record, w.db.desiredRecords.find? row.recordId = some record := by
  have hfind := h.rows row.key
  rw [writesTo_append, writesTo_singleton hrow, if_pos rfl, rowAfter_concat] at hfind
  obtain ⟨hmem, hkey⟩ := Table.find?_eq_some.mp hfind
  obtain ⟨record, hrecord, hid⟩ := Table.mem_keys.mp (w.db.syncRecord _ hmem)
  exact ⟨record, Table.find?_eq_some.mpr ⟨hrecord, hid.trans (Prod.mk.inj hkey).1⟩⟩

/-- The last write of a run is derived from what its pass has read. -/
theorem SyncRun.derives {db : Database} {w : SyncWorld} {pre : List SyncEvent} {e : SyncEvent}
    (h : SyncRun worker db w (pre ++ [e])) {row : SyncState} (hrow : written e = some row) :
    (passAfter e.thread pre).Derives worker w.db row := by
  have hjustified := h.justified rfl hrow
  have hread : (passAfter e.thread pre).ReadFrom w.db := by
    have hread := h.read e.thread
    rwa [passAfter_concat, if_pos rfl, PassState.next_of_written hrow] at hread
  have hbinding : ∀ {bindingId binding}, (bindingId, binding) ∈ (passAfter e.thread pre).bindings →
      w.db.bindings.find? bindingId = some binding :=
    fun hb => Table.find?_eq_some.mpr (hread.bindings _ hb)
  cases hjustified with
  | failed recordId hb hinstant hfetched =>
    -- the foreign key gives the record
    obtain ⟨record, hrecord⟩ := h.exists_record hrow
    exact ⟨_, record, _, _, _, hbinding hb, hrecord, hinstant, hfetched, rfl, rfl⟩
  | compared hb hinstant hfetched hr hobserved hvalue =>
    exact ⟨_, _, _, _, _, hbinding hb, Table.find?_eq_some.mpr (hread.records _ hr), hinstant,
      hfetched, hobserved, rfl⟩

/-- A row that comes from the writes to its pair alone fits them, when each follows from what its
    pass has read. -/
theorem syncRowInvariant_of_writes {log : List SyncEvent} {s : SyncState}
    (hrow : rowAfter none (writesTo s.key log) = some s)
    (hjustified : ∀ pre e post row, log = pre ++ e :: post → written e = some row →
      ∃ worker : ReconcileWorker, (passAfter e.thread pre).Justifies worker row) :
    SyncRowInvariant log s := by
  have hfits : ∀ row ∈ writesTo s.key log, row.Fits ∧ row.retryCount = 0 := by
    intro row hmem
    obtain ⟨⟨e, he, hwritten⟩, -⟩ := mem_writesTo.mp hmem
    obtain ⟨pre, post, hlog⟩ := List.append_of_mem he
    obtain ⟨worker, hrow⟩ := hjustified pre e post row hlog hwritten
    exact ⟨hrow.fits.1, hrow.fits.2.1⟩
  rcases rowAfter_columns hfits with
    ⟨-, hnone⟩ | ⟨s', hs', hcolumns, ⟨first, hfirst, hcreated⟩, hresolved, hfailing⟩
  · rw [hnone] at hrow
    cases hrow
  obtain rfl : s' = s := Option.some.inj (hs'.symm.trans hrow)
  obtain ⟨pre, e, post, hlog, hpre, hwritten, hkey⟩ := exists_first_write hfirst
  obtain ⟨worker, hfirstRow⟩ := hjustified pre e post first hlog hwritten
  obtain ⟨-, -, t, hinstant, htime⟩ := hfirstRow.fits
  refine ⟨fun hstatus => (hresolved hstatus).1, hfailing, hcolumns,
    ⟨pre, e, post, t, hlog, hpre, ?_, hinstant, hcreated.trans htime⟩⟩
  rw [writesTo_singleton hwritten, if_pos hkey]
  exact List.cons_ne_nil _ _

/-- In a run from an empty table, every row fits the writes to its pair. -/
private theorem SyncRun.syncRowInvariant {db : Database} {w : SyncWorld} {log : List SyncEvent}
    (h : SyncRun worker db w log) (hempty : db.syncStates.rows = []) {s : SyncState}
    (hs : s ∈ w.db.syncStates) : SyncRowInvariant log s := by
  -- no row was there at first, so this one comes from its writes alone
  have hfresh : db.syncStates.find? s.key = none := Table.find?_eq_none.mpr fun a ha => by
    rw [Table.mem_def, hempty] at ha
    cases ha
  have hrow : rowAfter none (writesTo s.key log) = some s := by
    rw [← hfresh, ← h.rows]
    exact Table.find?_eq_some.mpr ⟨hs, rfl⟩
  exact syncRowInvariant_of_writes hrow fun pre e post row hlog hwritten =>
    ⟨worker, h.justified hlog hwritten⟩

variable (worker)

/-- From an empty table, after any schedule of observe and retry passes every row fits the writes
    to its pair, and the next step of any pass changes no row but that of the pair it writes. -/
theorem syncRowInvariant_exec (env : SyncEnv) {w : SyncWorld}
    (hempty : w.db.syncStates.rows = []) (passes : List SyncPass) (schedule : List Nat) :
    let pool := (syncPool worker w passes).exec (handleSync env) schedule
    (∀ s ∈ pool.state.db.syncStates, SyncRowInvariant pool.log s) ∧
      ∀ i key, (∀ row reply, (pool.step (handleSync env) i).log =
          pool.log ++ [⟨i, .upsertSyncState row, reply⟩] → row.key ≠ key) →
        (pool.step (handleSync env) i).state.db.syncStates.find? key =
          pool.state.db.syncStates.find? key := by
  intro pool
  have hpool : Pool.Invariant (passMonitor worker) (SyncRun worker w.db) pool :=
    syncRun_exec env w passes schedule
  refine ⟨fun s hs => hpool.holds.syncRowInvariant hempty hs, fun i key hother => ?_⟩
  rcases hpool.step_cases (h := handleSync env) i with hsame | ⟨c, -, hstate, hlog⟩
  · exact congrArg (fun p => p.state.db.syncStates.find? key) hsame
  · obtain ⟨-, -, hrows⟩ := handleSync_changes env i c pool.state
    rw [hstate, hrows]
    -- only an upsert of the row itself changes it
    have hnone : writesTo key [⟨i, c, (handleSync env c pool.state).1⟩] = [] := by
      by_contra hne
      obtain ⟨row, hwritten, hkey⟩ := exists_written hne
      obtain rfl : c = .upsertSyncState row := cmd_of_written hwritten
      exact hother row _ hlog hkey
    rw [hnone]
    rfl

end Worker

section Sample

open Sample

/-- Two observe passes whose listings are refused, one after the other. -/
def refusedTwice : Pool SyncCmd SyncCmd.Reply SyncWorld :=
  (syncPool worker { db := twoBindings } [.observe, .observe]).exec (handleSync refusing)
    (List.replicate 12 0 ++ List.replicate 12 1)

/-- The second pass counts on. -/
theorem syncRowInvariant_exec_twice :
    ∃ s ∈ refusedTwice.state.db.syncStates, SyncRowInvariant refusedTwice.log s ∧
      s.retryCount = 1 := by
  have hcount : (refusedTwice.state.db.syncStates.find? ("r1", "b1")).map (·.retryCount) =
      some 1 := by
    decide +kernel
  obtain ⟨s, hs, hretry⟩ := Option.map_eq_some_iff.mp hcount
  have hmem := (Table.find?_eq_some.mp hs).1
  have hrows : ∀ s ∈ refusedTwice.state.db.syncStates, SyncRowInvariant refusedTwice.log s := by
    unfold refusedTwice
    exact (syncRowInvariant_exec worker refusing (w := { db := twoBindings }) rfl
      [.observe, .observe] (List.replicate 12 0 ++ List.replicate 12 1)).1
  exact ⟨s, hmem, hrows s hmem, hretry⟩

end Sample

end DnsManager
