import DnsManager.ForStd.Calls
import DnsManager.Spec.RetryRows

/-!
# What a retry pass fetches and writes

The pass fetches once for each binding with a due row and writes the due rows of the binding from
what it has fetched, each once. `processRetryBatchCalls` is the pass with `fetch_actual_records` as
a procedure, so that its calls stand among the events of an execution.

## Key results
- `inline_processRetryBatchCalls`: the program with calls is the pass.
- `fetches_processRetryBatchCalls`, `upserts_processRetryBatch`: its fetches and writes.
- `mem_retryFetches`, `mem_retryWrites`: which they are.
- `observedRow_of_due`, `rowRetried_observedRow`: the rows they leave.
-/

namespace DnsManager

open Prog (CallReply calls handleCalls inline invoke lift liftExcept turn)

/-! ## The upserts of an execution -/

/-- The key of the sync state that a command upserts. -/
def upsertKey : Sigma SyncCmd.Reply → Option (String × String)
  | ⟨.upsertSyncState row, _⟩ => some row.key
  | _ => none

/-- The keys of the sync states that an execution upserts, one for each statement. -/
def upserts {ε α : Type} (env : SyncEnv) (p : Prog SyncCmd SyncCmd.Reply ε α) (w : SyncWorld) :
    List (String × String) :=
  (p.events (handleSync env) w).filterMap upsertKey

section Upserts

variable {ε α β : Type} (env : SyncEnv)

theorem upserts_bind (p : Prog SyncCmd SyncCmd.Reply ε α) (f : α → Prog SyncCmd SyncCmd.Reply ε β)
    (w : SyncWorld) :
    upserts env (p >>= f) w = upserts env p w ++
      match p.run (handleSync env) w with
      | (.ok a, w') => upserts env (f a) w'
      | (.error _, _) => [] := by
  rw [upserts, Prog.filterMap_events_bind]
  cases p.run (handleSync env) w with
  | mk r w' => cases r <;> rfl

@[simp] theorem upserts_liftExcept (x : Except ε α) (w : SyncWorld) :
    upserts env (Prog.liftExcept x) w = [] := by
  cases x <;> rfl

@[simp] theorem upserts_pure (a : α) (w : SyncWorld) :
    upserts env (pure a : Prog SyncCmd SyncCmd.Reply ε α) w = [] := rfl

theorem upserts_issue (c : SyncCmd) (w : SyncWorld) :
    @upserts String (no_index c.Reply) env c.issue w =
      (upsertKey ⟨c, (handleSync env c w).1⟩).toList := by
  change List.filterMap upsertKey [_] = _
  rw [List.filterMap_eq_flatMap_toList, List.flatMap_singleton]

@[simp] theorem upserts_attempt (p : SyncM α) (w : SyncWorld) :
    upserts env (p.attempt : SyncM (Except String α)) w = upserts env p w := by
  rw [upserts, Prog.events_attempt, upserts]

/-- A loop upserts turn by turn. -/
theorem upserts_turns (f : α → SyncM Unit) (turns : List α) (w : SyncWorld) :
    upserts env (forM turns fun x => turn (f x)) w =
      (turnVisits env f turns w).flatMap fun v => upserts env (f v.1) v.2 :=
  Prog.filterMap_events_turns upsertKey f turns w

/-- An upsert writes its row. -/
theorem upserts_upsertSyncState (recordId bindingId : String)
    (value observedAt : Option String) (status : SyncStatus) (error : Option String) (now : String)
    (w : SyncWorld) :
    upserts env (upsertSyncState recordId bindingId value observedAt status error now) w =
      [(recordId, bindingId)] := by
  unfold upsertSyncState
  rw [upserts_bind, upserts_issue, run_syncIssue]
  simp only [upserts_liftExcept, List.append_nil]
  rfl

end Upserts

/-! ## The pass as a program that calls the fetch -/

section Worker

variable [CryptoLib] [SerdeJson] [UnicodeData] [Chrono] (worker : ReconcileWorker)

/-- `retry_one_binding`, with `fetch_actual_records` called. -/
def retryOneBindingCalls (bindingId : String) (entries : List SyncStateFailedRow) :
    FetchProg String Unit := do
  let now := Chrono.toRfc3339 (← lift (SyncCmd.issue .utcNow))
  let binding ← match ← liftExcept (← lift (SyncCmd.issue (.selectBinding bindingId))) with
    | some binding => (pure binding : FetchProg String ProviderBinding)
    | none => .throw s!"provider_binding '{bindingId}' not found"
  match ← invoke binding with
  | .ok actual =>
    forM entries fun entry =>
      turn (lift (ReconcileWorker.retryResolveEntry binding.id now actual entry))
  | .error providerErr =>
    forM entries fun entry =>
      turn (lift (upsertSyncState entry.recordId bindingId none (some now) .syncFailed
        (some providerErr) now))

/-- `process_retry_batch`, with `fetch_actual_records` called. -/
def processRetryBatchCalls (hash : HashOrder) : FetchProg String Unit := do
  let rows ← liftExcept (← lift (SyncCmd.issue .selectFailed))
  if rows.isEmpty then pure ()
  else
    let now ← lift (SyncCmd.issue .utcNow)
    let due := rows.filter (shouldRetry · now)
    forM (hash.order (due.map (·.providerBindingId)).dedup) fun bindingId => do
      let _ ← ((retryOneBindingCalls bindingId
        (due.filter fun row => row.providerBindingId = bindingId)).attempt :
          FetchProg String (Except String Unit))
      pure ()

/-- The calls of the fetch are its executions, the rest is the same program. -/
theorem inline_retryOneBindingCalls (bindingId : String) (entries : List SyncStateFailedRow) :
    (retryOneBindingCalls bindingId entries).inline worker.fetchActualRecords =
      worker.retryOneBinding bindingId entries := by
  unfold retryOneBindingCalls ReconcileWorker.retryOneBinding
  simp only [Prog.inline_bind, Prog.inline_lift, Prog.inline_liftExcept]
  refine bind_congr fun now => bind_congr fun reply => bind_congr fun found => ?_
  cases found with
  | none => rfl
  | some binding =>
    change (invoke binding >>= _).inline _ = (worker.fetchActualRecords binding).attempt >>= _
    rw [Prog.inline_invoke_bind]
    refine bind_congr fun fetched => ?_
    cases fetched <;> simp only [Prog.inline_forM, Prog.inline_turn, Prog.inline_lift] <;> rfl

theorem inline_processRetryBatchCalls (hash : HashOrder) :
    (processRetryBatchCalls hash).inline worker.fetchActualRecords =
      worker.processRetryBatch hash := by
  unfold processRetryBatchCalls ReconcileWorker.processRetryBatch
  simp only [Prog.inline_bind, Prog.inline_lift, Prog.inline_liftExcept]
  refine bind_congr fun reply => bind_congr fun rows => ?_
  split
  · rfl
  · simp only [Prog.inline_bind, Prog.inline_lift, Prog.inline_forM, Prog.inline_attempt,
      inline_retryOneBindingCalls]
    rfl

/-! ## The fetches -/

/-- The calls of `fetch_actual_records` in an execution, with their outcomes. -/
def ReconcileWorker.fetches {ε α : Type} (p : FetchProg ε α) (env : SyncEnv) (w : SyncWorld) :
    List (ProviderBinding × Except String (RecordKey → Option ProviderRecord)) :=
  calls (p.events (handleCalls (handleSync env) worker.fetchActualRecords) w)

/-- What the pass fetches: in every turn the binding of the turn. -/
def ReconcileWorker.retryFetches (hash : HashOrder) (env : SyncEnv) (w : SyncWorld) :
    List (ProviderBinding × Except String (RecordKey → Option ProviderRecord)) :=
  (w.db.retryTurns hash (env.now w.readings)).map fun binding =>
    (binding, (worker.retryOutcome hash env w binding).map actualMap)

/-- A turn fetches once. -/
private theorem calls_retryOneBindingCalls {env : SyncEnv} (henv : env.Reliable) {w : SyncWorld}
    {binding : ProviderBinding} (hb : binding ∈ w.db.bindings)
    (entries : List SyncStateFailedRow) :
    calls ((retryOneBindingCalls binding.id entries).events
      (handleCalls (handleSync env) worker.fetchActualRecords) w) =
        [(binding, worker.fetched env w.listings binding)] := by
  unfold retryOneBindingCalls
  simp only [Prog.calls_events_bind, Prog.calls_events_lift, Prog.calls_events_invoke,
    Prog.run_lift, Prog.run_invoke, run_syncIssue, handleSync, henv.query, Prog.run_liftExcept,
    Prog.events_liftExcept, Prog.run_pure, Prog.events_pure, Prog.calls_nil, List.nil_append,
    Table.find?_eq_some.mpr ⟨hb, rfl⟩, run_fetchActualRecords]
  -- nothing is fetched for an entry
  cases worker.fetched env w.listings binding <;>
    simp only [Prog.calls_events_turns, Prog.calls_events_lift,
      List.flatMap_eq_nil_iff.mpr fun _ _ => rfl, List.append_nil]

/-- The pass fetches in every turn, the binding of the turn. -/
theorem fetches_processRetryBatchCalls
    (hjson : ∀ r, ∃ text, SerdeJson.recordToString r = .ok text) {env : SyncEnv}
    (henv : env.Reliable) (hash : HashOrder) (w : SyncWorld) :
    worker.fetches (processRetryBatchCalls hash) env w = worker.retryFetches hash env w := by
  unfold ReconcileWorker.fetches ReconcileWorker.retryFetches processRetryBatchCalls
  simp only [Prog.calls_events_bind, Prog.calls_events_lift, Prog.run_lift, run_syncIssue,
    handleSync, henv.query, Prog.run_liftExcept, Prog.events_liftExcept, Prog.calls_nil,
    List.nil_append]
  cases hempty : w.db.failedRows.isEmpty with
  | true =>
    rw [Database.retryTurns_eq_nil hash _ hempty]
    rfl
  | false =>
    simp only [Bool.false_eq_true, if_false, Prog.calls_events_bind, Prog.calls_events_lift,
      Prog.run_lift, run_syncIssue, handleSync, List.nil_append,
      SyncWorld.retryStart_of_failed hempty]
    have hids := w.db.forM_retryTurns hash (env.now w.readings) fun bindingId =>
      turn (retryOneBindingCalls bindingId (w.db.dueOf (env.now w.readings) bindingId))
    refine (congrArg (fun p => calls (Prog.events _ p _)) hids).trans ?_
    rw [Prog.calls_events_turns, List.map_eq_flatMap]
    simp only [inline_retryOneBindingCalls]
    rw [← Prog.flatMap_fst_visits (h := handleSync env)
      (f := fun binding => turn (worker.retryTurn w.db (env.now w.readings) binding)) _ _
      w.retryStart]
    refine List.flatMap_congr fun v hv => ?_
    obtain ⟨hrows, -⟩ := find?_processRetryBatch worker hjson henv hash w
    rw [← fetched_of_turnVisit worker hjson henv hv]
    refine calls_retryOneBindingCalls worker henv ?_ _
    rw [(hrows v hv).1.bindings]
    exact (Database.mem_retryTurns.mp (fst_mem_of_turnVisit hv)).1

/-! ## The writes -/

/-- The key that a retry writes for an entry, if it finds anything out. -/
def writtenKey (db : Database) (bindingId : String)
    (fetched : Except String (RecordKey → Option ProviderRecord)) (entry : SyncStateFailedRow) :
    Option (String × String) :=
  ((db.desiredRecords.find? entry.recordId).bind (observation fetched)).map fun _ =>
    (entry.recordId, bindingId)

omit [CryptoLib] [Chrono] in
/-- An entry is written once or not at all. -/
private theorem upserts_retryEntry (hjson : ∀ r, ∃ text, SerdeJson.recordToString r = .ok text)
    {env : SyncEnv} (henv : env.Reliable) (bindingId now : String)
    (fetched : Except String (RecordKey → Option ProviderRecord)) {entry : SyncStateFailedRow}
    {w : SyncWorld} (hentry : entry.recordId ∈ w.db.desiredRecords.keys) :
    upserts env (retryEntry bindingId now fetched entry) w =
      (writtenKey w.db bindingId fetched entry).toList := by
  obtain ⟨record, hrecord, hid⟩ := Table.mem_keys.mp hentry
  have hfind := Table.find?_eq_some.mpr ⟨hrecord, hid⟩
  simp only [writtenKey, hfind, Option.bind_some]
  cases fetched with
  | error e => exact upserts_upsertSyncState ..
  | ok actual =>
    simp only [retryEntry, ReconcileWorker.retryResolveEntry, upserts_bind, run_syncIssue,
      handleSync, henv.query, Prog.run_liftExcept, upserts_liftExcept, hfind, Prog.run_pure]
    simp only [upserts_issue, upsertKey, upserts_pure, Option.toList_none, List.nil_append]
    unfold observation
    cases parseDesiredRecord record with
    | error e => rfl
    | ok desired =>
      cases hactual : actual desired.key with
      | none => simp only [hactual, upserts_upsertSyncState, Option.map_some, Option.toList_some]
      | some r =>
        obtain ⟨text, htext⟩ := hjson r
        simp only [hactual, htext, Except.mapError, upserts_bind, upserts_liftExcept,
          Prog.run_liftExcept, upserts_upsertSyncState, List.nil_append, Option.map_some,
          Option.toList_some]

omit [UnicodeData] [Chrono] in
/-- The fetch writes nothing. -/
theorem upserts_fetchActualRecords (env : SyncEnv) (binding : ProviderBinding)
    (w : SyncWorld) : upserts env (worker.fetchActualRecords binding) w = [] := by
  unfold ReconcileWorker.fetchActualRecords
  split
  · rfl
  · cases worker.decryptCredentials binding.credentialsBlob binding.credentialsDek with
    | error e => rfl
    | ok creds =>
      simp only [upserts_bind, upserts_issue, upsertKey, upserts_liftExcept, upserts_pure,
        Prog.run_liftExcept, run_syncIssue, handleSync, Option.toList_none, List.nil_append]
      cases env.listings w.listings binding creds <;> rfl

/-- A turn writes entry by entry. -/
private theorem upserts_retryOneBinding
    (hjson : ∀ r, ∃ text, SerdeJson.recordToString r = .ok text) {env : SyncEnv}
    (henv : env.Reliable) {db : Database} {binding : ProviderBinding} (hb : binding ∈ db.bindings)
    {entries : List SyncStateFailedRow}
    (hentries : ∀ e ∈ entries, e.recordId ∈ db.desiredRecords.keys) {w : SyncWorld}
    (hw : SameConfig db w.db) :
    upserts env (worker.retryOneBinding binding.id entries) w =
      entries.filterMap (writtenKey db binding.id (worker.fetched env w.listings binding)) := by
  have hfind : w.db.bindings.find? binding.id = some binding := by
    rw [hw.bindings]
    exact Table.find?_eq_some.mpr ⟨hb, rfl⟩
  -- the upserts are those of the loop over the entries
  have hloop : upserts env (worker.retryOneBinding binding.id entries) w =
      upserts env (forM entries fun entry => turn (retryEntry binding.id
        (Chrono.toRfc3339 (env.now w.readings)) (worker.fetched env w.listings binding) entry))
        (worker.entriesStart binding w) := by
    unfold ReconcileWorker.retryOneBinding
    simp only [upserts_bind, upserts_issue, upsertKey, Option.toList_none, List.nil_append,
      run_syncIssue, handleSync, henv.query, Prog.run_liftExcept, upserts_liftExcept, hfind,
      Prog.run_pure, upserts_pure, Prog.run_attempt, upserts_attempt,
      upserts_fetchActualRecords, run_fetchActualRecords]
    cases worker.fetched env w.listings binding <;> rfl
  have hconfig : ∀ v ∈ turnVisits env (retryEntry binding.id
      (Chrono.toRfc3339 (env.now w.readings)) (worker.fetched env w.listings binding)) entries
      (worker.entriesStart binding w), SameConfig db v.2.db := by
    refine Prog.visits_invariant (I := fun w : SyncWorld => SameConfig db w.db) (fun e he w hw => ?_)
      hw
    rw [Prog.run_turn]
    exact (leaves_retryEntry hjson henv hb _ _ (hentries e he) w hw).1
  rw [hloop, upserts_turns, List.filterMap_eq_flatMap_toList]
  refine (List.flatMap_congr fun v hv => ?_).trans (Prog.flatMap_fst_visits _ entries
    (worker.entriesStart binding w))
  have hentry := hentries v.1 (fst_mem_of_turnVisit hv)
  rw [← (hconfig v hv).desiredRecords] at hentry
  rw [upserts_retryEntry hjson henv _ _ _ hentry]
  unfold writtenKey
  rw [(hconfig v hv).desiredRecords]

/-- What the pass writes: for each of its fetches the entries of the binding. -/
def ReconcileWorker.retryWrites (hash : HashOrder) (env : SyncEnv) (w : SyncWorld) :
    List (String × String) :=
  (worker.retryFetches hash env w).flatMap fun fetch =>
    (w.db.dueOf (env.now w.readings) fetch.1.id).filterMap (writtenKey w.db fetch.1.id fetch.2)

/-- The pass writes for each of its fetches the entries of the binding. -/
theorem upserts_processRetryBatch (hjson : ∀ r, ∃ text, SerdeJson.recordToString r = .ok text)
    {env : SyncEnv} (henv : env.Reliable) (hash : HashOrder) (w : SyncWorld) :
    upserts env (worker.processRetryBatch hash) w = worker.retryWrites hash env w := by
  unfold ReconcileWorker.retryWrites ReconcileWorker.retryFetches ReconcileWorker.processRetryBatch
  rw [List.flatMap_map]
  simp only [upserts_bind, upserts_issue, upsertKey, Option.toList_none, upserts_liftExcept,
    List.nil_append, run_syncIssue, handleSync, henv.query, Prog.run_liftExcept]
  cases hempty : w.db.failedRows.isEmpty with
  | true =>
    rw [Database.retryTurns_eq_nil hash _ hempty]
    rfl
  | false =>
    simp only [Bool.false_eq_true, if_false, upserts_bind, upserts_issue, upsertKey,
      Option.toList_none, List.nil_append, run_syncIssue, handleSync,
      SyncWorld.retryStart_of_failed hempty]
    have hids := w.db.forM_retryTurns hash (env.now w.readings) fun bindingId =>
      turn (worker.retryOneBinding bindingId (w.db.dueOf (env.now w.readings) bindingId))
    refine (congrArg (fun p => upserts env p _) hids).trans ?_
    rw [upserts_turns, ← Prog.flatMap_fst_visits (h := handleSync env)
      (f := fun binding => turn (worker.retryTurn w.db (env.now w.readings) binding)) _ _
      w.retryStart]
    refine List.flatMap_congr fun v hv => ?_
    obtain ⟨hrows, -⟩ := find?_processRetryBatch worker hjson henv hash w
    rw [← fetched_of_turnVisit worker hjson henv hv]
    exact upserts_retryOneBinding worker hjson henv
      (Database.mem_retryTurns.mp (fst_mem_of_turnVisit hv)).1
      (fun e he => (Database.keys_of_mem_dueRows (List.mem_of_mem_filter he)).1) (hrows v hv).1

/-! ## Which fetches and writes these are -/

section Pass

variable {worker} {env : SyncEnv} {hash : HashOrder} {w : SyncWorld}

omit [UnicodeData] in
/-- No binding is fetched twice. -/
theorem nodup_retryFetches : ((worker.retryFetches hash env w).map (·.1.id)).Nodup := by
  unfold ReconcileWorker.retryFetches
  rw [List.map_map]
  exact w.db.nodup_retryTurns hash (env.now w.readings)

omit [UnicodeData] in
/-- The bindings with a due row are fetched. -/
theorem mem_retryFetches {binding : ProviderBinding} :
    (∃ fetch ∈ worker.retryFetches hash env w, fetch.1 = binding) ↔ binding ∈ w.db.bindings ∧
      ∃ s ∈ w.db.syncStates, s.providerBindingId = binding.id ∧ s.status = .syncFailed ∧
        s.Due (env.now w.readings) := by
  have hturns : (∃ fetch ∈ worker.retryFetches hash env w, fetch.1 = binding) ↔
      binding ∈ w.db.retryTurns hash (env.now w.readings) := by
    simp [ReconcileWorker.retryFetches]
  rw [hturns, Database.mem_retryTurns]
  refine and_congr_right fun _ => ?_
  constructor
  · rintro ⟨e, he, hbinding⟩
    obtain ⟨s, hs, hfailed, hdue, rfl⟩ := Database.mem_dueRows.mp he
    exact ⟨s, hs, hbinding, hfailed, hdue⟩
  · rintro ⟨s, hs, hbinding, hfailed, hdue⟩
    exact ⟨_, Database.mem_dueRows.mpr ⟨s, hs, hfailed, hdue, rfl⟩, hbinding⟩

omit [UnicodeData] in
/-- A fetch returns what the pass is shown of its binding. -/
theorem snd_of_mem_retryFetches
    {fetch : ProviderBinding × Except String (RecordKey → Option ProviderRecord)}
    (hfetch : fetch ∈ worker.retryFetches hash env w) :
    fetch.2 = (worker.retryOutcome hash env w fetch.1).map actualMap := by
  obtain ⟨binding, -, rfl⟩ := List.mem_map.mp hfetch
  rfl

variable (worker hash) in
/-- A due row is as what the pass is shown of its binding says. -/
theorem observedRow_of_due (hjson : ∀ r, ∃ text, SerdeJson.recordToString r = .ok text)
    (henv : env.Reliable) {binding : ProviderBinding} (hb : binding ∈ w.db.bindings)
    {s : SyncState} (hs : s ∈ w.db.syncStates) (hbinding : s.providerBindingId = binding.id)
    (hfailed : s.status = .syncFailed) (hdue : s.Due (env.now w.readings)) :
    ∃ now, ((worker.processRetryBatch hash).run (handleSync env) w).2.db.syncStates.find? s.key =
      observedRow w.db ((worker.retryOutcome hash env w binding).map actualMap) now s.key
        (some s) := by
  have hdueRow := Database.mem_dueRows.mpr ⟨s, hs, hfailed, hdue, rfl⟩
  obtain ⟨v, hv, rfl⟩ := exists_turnVisit env (worker.retryTurn w.db (env.now w.readings))
    (Database.mem_retryTurns.mpr ⟨hb, _, hdueRow, hbinding⟩) w.retryStart
  obtain ⟨hrows, -⟩ := find?_processRetryBatch worker hjson henv hash w
  have hmem : SyncStateFailedRow.ofState s ∈ w.db.dueOf (env.now w.readings) v.1.id :=
    List.mem_filter.mpr ⟨hdueRow, decide_eq_true hbinding⟩
  have hold : w.db.syncStates.find? s.key = some s := Table.find?_eq_some.mpr ⟨hs, rfl⟩
  have hkey : s.key = (s.recordId, v.1.id) := congrArg (Prod.mk s.recordId) hbinding
  have hrow : Table.find? _ (s.recordId, v.1.id) = worker.turnEffect env w.db v.1 v.2
      (s.recordId, v.1.id) (w.db.syncStates.find? (s.recordId, v.1.id)) := (hrows v hv).2 _ hmem
  rw [← hkey, hold, ReconcileWorker.turnEffect, fetched_of_turnVisit worker hjson henv hv] at hrow
  exact ⟨_, hrow⟩

omit [CryptoLib] [Chrono] in
theorem writtenKey_eq_some {db : Database} {bindingId : String}
    {fetched : Except String (RecordKey → Option ProviderRecord)} {entry : SyncStateFailedRow}
    {key : String × String} (h : writtenKey db bindingId fetched entry = some key) :
    key = (entry.recordId, bindingId) := by
  obtain ⟨_, -, hkey⟩ := Option.map_eq_some_iff.mp h
  exact hkey.symm

omit [CryptoLib] [Chrono] in
/-- Something is found out about an entry unless the fetch succeeded and its record does not
    parse. -/
theorem isSome_writtenKey {db : Database} {bindingId : String}
    {fetched : Except String (RecordKey → Option ProviderRecord)} {entry : SyncStateFailedRow}
    (hentry : entry.recordId ∈ db.desiredRecords.keys) :
    writtenKey db bindingId fetched entry = some (entry.recordId, bindingId) ↔
      ∀ actual, fetched = .ok actual → ∃ record ∈ db.desiredRecords,
        record.id = entry.recordId ∧ ∃ desired, parseDesiredRecord record = .ok desired := by
  obtain ⟨record, hrecord, hid⟩ := Table.mem_keys.mp hentry
  have hfind := Table.find?_eq_some.mpr ⟨hrecord, hid⟩
  simp only [writtenKey, hfind, Option.bind_some]
  cases fetched with
  | error e => simp [observation]
  | ok actual =>
    constructor
    · intro hsome _ _
      refine ⟨record, hrecord, hid, ?_⟩
      cases hparse : parseDesiredRecord record with
      | error e =>
        simp only [observation, hparse, Option.map_none] at hsome
        cases hsome
      | ok desired => exact ⟨desired, rfl⟩
    · intro hparses
      obtain ⟨record', hrecord', hid', desired, hparse⟩ := hparses actual rfl
      obtain rfl := Table.eq_of_key_eq hrecord' hrecord (hid'.trans hid.symm)
      simp only [observation, hparse]
      cases actual desired.key <;> rfl

/-- No row is written twice. -/
theorem nodup_retryWrites : (worker.retryWrites hash env w).Nodup := by
  unfold ReconcileWorker.retryWrites
  rw [List.nodup_flatMap]
  constructor
  · intro fetch _
    refine List.pairwise_filterMap.mpr ?_
    have hdue := w.db.nodup_dueOf (env.now w.readings) fetch.1.id
    refine (List.pairwise_map.mp hdue).imp fun hne key hkey key' hkey' heq => hne ?_
    rw [writtenKey_eq_some hkey, writtenKey_eq_some hkey'] at heq
    exact (Prod.mk.inj heq).1
  · have hfetches : ((worker.retryFetches hash env w).map (·.1.id)).Nodup := nodup_retryFetches
    refine (List.pairwise_map.mp hfetches).imp fun hne key hkey hkey' => hne ?_
    obtain ⟨e, -, he⟩ := List.mem_filterMap.mp hkey
    obtain ⟨e', -, he'⟩ := List.mem_filterMap.mp hkey'
    have heq := (writtenKey_eq_some he).symm.trans (writtenKey_eq_some he')
    exact (Prod.mk.inj heq).2

/-- The due rows are written, whose record parses when the listing succeeded. -/
theorem mem_retryWrites {key : String × String} :
    key ∈ worker.retryWrites hash env w ↔ ∃ s ∈ w.db.syncStates, s.key = key ∧
      s.status = .syncFailed ∧ s.Due (env.now w.readings) ∧
      ∃ binding ∈ w.db.bindings, s.providerBindingId = binding.id ∧
        ∀ records, worker.retryOutcome hash env w binding = .ok records →
          ∃ record ∈ w.db.desiredRecords,
            record.id = s.recordId ∧ ∃ desired, parseDesiredRecord record = .ok desired := by
  unfold ReconcileWorker.retryWrites
  rw [List.mem_flatMap]
  constructor
  · rintro ⟨fetch, hfetch, hkey⟩
    obtain ⟨e, he, hwritten⟩ := List.mem_filterMap.mp hkey
    obtain ⟨he, hid⟩ := List.mem_filter.mp he
    obtain ⟨s, hs, hfailed, hdue, rfl⟩ := Database.mem_dueRows.mp he
    obtain rfl := writtenKey_eq_some hwritten
    have hbinding : s.providerBindingId = fetch.1.id := of_decide_eq_true hid
    have hb := (mem_retryFetches.mp ⟨fetch, hfetch, rfl⟩).1
    refine ⟨s, hs, congrArg (Prod.mk s.recordId) hbinding, hfailed, hdue, fetch.1, hb, hbinding,
      fun records hrecords => ?_⟩
    refine (isSome_writtenKey (w.db.syncRecord s hs)).mp hwritten (actualMap records) ?_
    rw [snd_of_mem_retryFetches hfetch, hrecords]
    rfl
  · rintro ⟨s, hs, rfl, hfailed, hdue, binding, hb, hbinding, hparses⟩
    obtain ⟨fetch, hfetch, rfl⟩ := mem_retryFetches.mpr ⟨hb, s, hs, hbinding, hfailed, hdue⟩
    have hdueRow := Database.mem_dueRows.mpr ⟨s, hs, hfailed, hdue, rfl⟩
    refine ⟨fetch, hfetch, List.mem_filterMap.mpr ⟨.ofState s,
      List.mem_filter.mpr ⟨hdueRow, decide_eq_true hbinding⟩, ?_⟩⟩
    have hwritten : writtenKey w.db fetch.1.id fetch.2 (.ofState s) =
        some (s.recordId, fetch.1.id) := by
      refine (isSome_writtenKey (w.db.syncRecord s hs)).mpr fun actual hactual => ?_
      rw [snd_of_mem_retryFetches hfetch] at hactual
      obtain ⟨records, hrecords, -⟩ := Except.map_eq_ok.mp hactual
      exact hparses records hrecords
    rw [hwritten, ← hbinding]
    rfl

omit [CryptoLib] [Chrono] in
/-- An entry about which nothing is found out keeps its row. -/
private theorem observedRow_of_writtenKey_eq_none {db : Database} {bindingId now : String}
    {fetched : Except String (RecordKey → Option ProviderRecord)} {entry : SyncStateFailedRow}
    {key : String × String} (hkey : key.1 = entry.recordId) (old : Option SyncState)
    (hnone : writtenKey db bindingId fetched entry = none) :
    observedRow db fetched now key old = old := by
  unfold observedRow
  rw [hkey, Option.map_eq_none_iff.mp hnone]

/-- No other row is touched. -/
theorem find?_of_not_mem_retryWrites (hjson : ∀ r, ∃ text, SerdeJson.recordToString r = .ok text)
    (henv : env.Reliable) {key : String × String} (hnot : key ∉ worker.retryWrites hash env w) :
    ((worker.processRetryBatch hash).run (handleSync env) w).2.db.syncStates.find? key =
      w.db.syncStates.find? key := by
  by_cases hdueKey : key ∈ (w.db.dueRows (env.now w.readings)).map (·.key)
  · -- the row is due, so nothing was found out about it
    obtain ⟨e, he, rfl⟩ := List.mem_map.mp hdueKey
    obtain ⟨s, hs, hfailed, hdue, rfl⟩ := Database.mem_dueRows.mp he
    obtain ⟨binding, hb, hbinding⟩ := Table.mem_keys.mp (w.db.syncBinding s hs)
    obtain ⟨now, hrow⟩ := observedRow_of_due worker hash hjson henv hb hs
      hbinding.symm hfailed hdue
    have hold : w.db.syncStates.find? s.key = some s := Table.find?_eq_some.mpr ⟨hs, rfl⟩
    change Table.find? _ s.key = Table.find? _ s.key
    rw [hrow, hold]
    cases hwritten : writtenKey w.db binding.id
      ((worker.retryOutcome hash env w binding).map actualMap) (.ofState s) with
    | none => exact observedRow_of_writtenKey_eq_none rfl _ hwritten
    | some key =>
      obtain rfl := writtenKey_eq_some hwritten
      refine absurd (mem_retryWrites.mpr ⟨s, hs, rfl, hfailed, hdue, binding, hb, hbinding.symm,
        fun records hrecords => ?_⟩) hnot
      refine (isSome_writtenKey (w.db.syncRecord s hs)).mp hwritten (actualMap records) ?_
      rw [hrecords]
      rfl
  · exact (find?_processRetryBatch worker hjson henv hash w).2 key hdueKey

end Pass

end Worker

/-! ## The rows in the terms of the listing -/

/-- The last record of a listing with the key. -/
def LastWithKey (records : List ProviderRecord) (key : RecordKey) (r : ProviderRecord) : Prop :=
  ∃ before after, records = before ++ r :: after ∧ r.key = key ∧ ∀ r' ∈ after, r'.key ≠ key

/-- The map keeps the last record with a key. -/
theorem actualMap_eq_some_iff_last {records : List ProviderRecord} {key : RecordKey}
    {r : ProviderRecord} : actualMap records key = some r ↔ LastWithKey records key r := by
  unfold actualMap LastWithKey
  rw [List.find?_eq_some_iff_append]
  simp only [decide_eq_true_eq, Bool.not_eq_true', decide_eq_false_iff_not]
  constructor
  · rintro ⟨hkey, after, before, hreverse, hafter⟩
    refine ⟨before.reverse, after.reverse, ?_, hkey, fun r' hr' => hafter r' (List.mem_reverse.mp hr')⟩
    rw [← List.reverse_reverse records, hreverse]
    simp
  · rintro ⟨before, after, rfl, hkey, hafter⟩
    exact ⟨hkey, after.reverse, before.reverse, by simp, fun r' hr' =>
      hafter r' (List.mem_reverse.mp hr')⟩

/-- The map has nothing under a key that no record has. -/
theorem actualMap_eq_none_iff {records : List ProviderRecord} {key : RecordKey} :
    actualMap records key = none ↔ ∀ r ∈ records, r.key ≠ key := by
  simp [actualMap]

section Rows

variable [SerdeJson] [UnicodeData]

/-- What the pass makes of a due row, when a binding's fetch has this outcome. -/
def RowRetried (outcome : Except String (List ProviderRecord)) (record : DesiredRecord)
    (old : SyncState) (new : Option SyncState) : Prop :=
  match outcome, parseDesiredRecord record with
  | .error e, _ => ∃ s, new = some s ∧ s.status = .syncFailed ∧ s.lastError = some e ∧
      s.retryCount = old.retryCount + 1 ∧ InI64 s.retryCount
  | .ok _, .error _ => new = some old
  | .ok records, .ok desired => ∃ s, new = some s ∧ s.retryCount = 0 ∧ s.lastError = none ∧
      (s.status = .inSync ↔ ∃ r, LastWithKey records desired.key r ∧ diff r desired = false) ∧
      (s.status = .inSync ∨ s.status = .drift) ∧
      (∀ r, LastWithKey records desired.key r →
        ∃ json, SerdeJson.recordToString r = .ok json ∧ s.lastObservedValue = some json) ∧
      ((∀ r ∈ records, r.key ≠ desired.key) → s.lastObservedValue = none)

/-- A record that the listing has is compared. -/
private theorem rowRetried_of_last {records : List ProviderRecord} {record : DesiredRecord}
    {desired actual : ProviderRecord} {json : String}
    (hparse : parseDesiredRecord record = .ok desired)
    (hlast : actualMap records desired.key = some actual)
    (htext : SerdeJson.recordToString actual = .ok json) (old : SyncState) {s : SyncState}
    (hcount : s.retryCount = 0) (herror : s.lastError = none)
    (hstatus : s.status = if diff actual desired then .drift else .inSync)
    (hvalue : s.lastObservedValue = some json) : RowRetried (.ok records) record old (some s) := by
  have honly : ∀ r, LastWithKey records desired.key r → r = actual := fun r hr =>
    Option.some.inj ((actualMap_eq_some_iff_last.mpr hr).symm.trans hlast)
  unfold RowRetried
  simp only [hparse]
  refine ⟨s, rfl, hcount, herror, ?_, ?_, fun r hr => ⟨json, honly r hr ▸ htext, hvalue⟩,
    fun hmissing => ?_⟩
  · cases hdiff : diff actual desired with
    | false =>
      rw [hdiff, if_neg Bool.false_ne_true] at hstatus
      exact iff_of_true hstatus ⟨actual, actualMap_eq_some_iff_last.mp hlast, hdiff⟩
    | true =>
      rw [hdiff, if_pos rfl] at hstatus
      refine iff_of_false (fun hsync => by rw [hsync] at hstatus; cases hstatus) ?_
      rintro ⟨r, hr, hdiff'⟩
      rw [honly r hr, hdiff] at hdiff'
      cases hdiff'
  · cases hdiff : diff actual desired with
    | false => exact Or.inl (by rw [hstatus, hdiff, if_neg Bool.false_ne_true])
    | true => exact Or.inr (by rw [hstatus, hdiff, if_pos rfl])
  · rw [actualMap_eq_none_iff.mpr hmissing] at hlast
    cases hlast

/-- A record that the listing does not have has drifted. -/
private theorem rowRetried_of_missing {records : List ProviderRecord} {record : DesiredRecord}
    {desired : ProviderRecord} (hparse : parseDesiredRecord record = .ok desired)
    (hmissing : actualMap records desired.key = none) (old : SyncState) {s : SyncState}
    (hcount : s.retryCount = 0) (herror : s.lastError = none) (hstatus : s.status = .drift)
    (hvalue : s.lastObservedValue = none) : RowRetried (.ok records) record old (some s) := by
  have hnone : ∀ r, ¬ LastWithKey records desired.key r := by
    intro r hr
    rw [actualMap_eq_some_iff_last.mpr hr] at hmissing
    cases hmissing
  unfold RowRetried
  simp only [hparse]
  refine ⟨s, rfl, hcount, herror, ?_, Or.inr hstatus, fun r hr => absurd hr (hnone r),
    fun _ => hvalue⟩
  refine iff_of_false (fun hsync => by rw [hsync] at hstatus; cases hstatus) ?_
  rintro ⟨r, hr, -⟩
  exact hnone r hr

/-- An observation over a failed row makes the row, if its counter has a next one. -/
theorem rowRetried_observedRow (hjson : ∀ r, ∃ text, SerdeJson.recordToString r = .ok text)
    {db : Database} {record : DesiredRecord} (hrecord : record ∈ db.desiredRecords)
    {outcome : Except String (List ProviderRecord)} (bindingId now : String) {s : SyncState}
    (hfailed : s.status = .syncFailed)
    (hcount : ∀ e, outcome = .error e → InI64 (s.retryCount + 1)) :
    RowRetried outcome record s
      (observedRow db (outcome.map actualMap) now (record.id, bindingId) (some s)) := by
  rw [observedRow_of_mem hrecord]
  cases outcome with
  | error e =>
    have hnext : ((⟨none, .syncFailed, some e⟩ : Observation).row record.id bindingId now
        |>.upserted (some s)).retryCount = s.retryCount + 1 := if_pos hfailed
    exact ⟨_, rfl, rfl, rfl, hnext, hnext ▸ hcount e rfl⟩
  | ok records =>
    cases hparse : parseDesiredRecord record with
    | error e => simp only [RowRetried, Except.map, observation, hparse]
    | ok desired =>
      cases hactual : actualMap records desired.key with
      | none =>
        simp only [Except.map, observation, hparse, hactual]
        exact rowRetried_of_missing hparse hactual s rfl rfl rfl rfl
      | some actual =>
        obtain ⟨json, htext⟩ := hjson actual
        simp only [Except.map, observation, hparse, hactual, htext, Except.toOption]
        refine rowRetried_of_last hparse hactual htext s ?_ rfl rfl rfl
        -- neither verdict counts on
        cases diff actual desired <;> rfl

end Rows

end DnsManager
