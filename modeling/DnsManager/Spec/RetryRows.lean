import DnsManager.Spec.ObservePass
import DnsManager.Worker.Retry

/-!
# The rows a retry pass is about

The failed rows whose backoff has elapsed are grouped by binding, and the pass takes its turns
over the groups, in an order that nobody knows. Each turn covers the rows of its group.

## Key results
- `shouldRetry_iff`: when a row is due.
- `leaves_retryOneBinding`: what a turn of a retry pass leaves.
- `run_processRetryBatch`: the pass is its turns, one for each binding with a due row.
-/

namespace DnsManager

open Prog (turn)

/-! ## The rows that are due -/

/-- The shift of `backoff_secs` fits its type. -/
theorem two_pow_shift_lt (retryCount : Int) : 2 ^ (min (max retryCount 0) 63).toNat < 2 ^ 64 :=
  Nat.pow_lt_pow_right (by decide) (by omega)

/-- The clamp of the shift changes no backoff. -/
theorem backoffSecs_eq (retryCount : Int) :
    backoffSecs retryCount = min (2 ^ (max retryCount 0).toNat) 3600 := by
  have hshift : (min (max retryCount 0) 63).toNat = min (max retryCount 0).toNat 63 := by omega
  simp only [backoffSecs, hshift]
  generalize (max retryCount 0).toNat = n
  rcases Nat.le_total n 63 with hn | hn
  · rw [Nat.min_eq_left hn]
  · -- both powers are beyond an hour
    have hpow : 2 ^ 63 ≤ 2 ^ n := Nat.pow_le_pow_right (by decide) hn
    rw [Nat.min_eq_right hn, Nat.min_eq_right (by decide), Nat.min_eq_right]
    exact (by decide : 3600 ≤ 2 ^ 63).trans hpow

theorem backoffSecs_pos (retryCount : Int) : 0 < backoffSecs retryCount := by
  rw [backoffSecs_eq]
  exact Nat.lt_min.mpr ⟨Nat.pow_pos (by decide), by decide⟩

/-- Of the time that has passed the whole seconds count, and none of a time to come. -/
theorem le_num_seconds_iff {backoff : Nat} (hpos : 0 < backoff) (elapsed : Int) :
    (backoff : Int) ≤ elapsed.tdiv 1000000000 ↔ backoff * (1000000000 : Int) ≤ elapsed := by
  rcases Int.le_total 0 elapsed with hpast | hfuture
  · rw [Int.tdiv_eq_ediv_of_nonneg hpast]
    exact Int.le_ediv_iff_mul_le (by decide)
  · have hnone : elapsed.tdiv 1000000000 ≤ 0 := by
      have hnonneg : 0 ≤ (-elapsed).tdiv 1000000000 := Int.tdiv_nonneg (by omega) (by decide)
      rw [Int.neg_tdiv] at hnonneg
      omega
    omega

/-- The backoff of a row has elapsed, or there is no time to count from. -/
def SyncState.Due [Chrono] (s : SyncState) (now : Int) : Prop :=
  match s.lastObservedAt with
  | none => True
  | some text =>
    match Chrono.parseFromRfc3339 text with
    | none => True
    | some lastAt =>
      (min (2 ^ (max s.retryCount 0).toNat) 3600 : Nat) * (1000000000 : Int) ≤ now - lastAt

/-- A row whose time is yet to come is not due. -/
theorem SyncState.not_due_of_future [Chrono] {s : SyncState} {now lastAt : Int} {text : String}
    (hlast : s.lastObservedAt = some text) (hparse : Chrono.parseFromRfc3339 text = some lastAt)
    (hfuture : now < lastAt) : ¬ s.Due now := by
  have hpos := backoffSecs_pos s.retryCount
  rw [backoffSecs_eq] at hpos
  unfold SyncState.Due
  rw [hlast]
  simp only [hparse]
  omega

/-- The check of the source, which counts whole seconds and drops the rest of them. -/
theorem shouldRetry_iff [Chrono] (s : SyncState) (now : Int) :
    shouldRetry (.ofState s) now = true ↔ s.Due now := by
  unfold shouldRetry SyncState.Due SyncStateFailedRow.ofState
  cases s.lastObservedAt with
  | none => exact iff_of_true rfl trivial
  | some text =>
    cases hparse : Chrono.parseFromRfc3339 text with
    | none => simp only [hparse]
    | some lastAt =>
      simp only [hparse, decide_eq_true_eq]
      rw [le_num_seconds_iff (backoffSecs_pos _), backoffSecs_eq]

/-- The failed rows whose backoff has elapsed. -/
def Database.dueRows [Chrono] (db : Database) (now : Int) : List SyncStateFailedRow :=
  db.failedRows.filter (shouldRetry · now)

section Due

variable [Chrono] {db : Database} {now : Int} {e : SyncStateFailedRow}

/-- The due rows are the failed rows of the table whose backoff has elapsed. -/
theorem Database.mem_dueRows : e ∈ db.dueRows now ↔
    ∃ s ∈ db.syncStates, s.status = .syncFailed ∧ s.Due now ∧ SyncStateFailedRow.ofState s = e := by
  unfold Database.dueRows Database.failedRows
  rw [List.mem_filter, List.mem_insertionSort, List.mem_map]
  constructor
  · rintro ⟨⟨s, hs, rfl⟩, hdue⟩
    obtain ⟨hs, hstatus⟩ := Table.mem_select.mp hs
    exact ⟨s, hs, by simpa using hstatus, (shouldRetry_iff s now).mp hdue, rfl⟩
  · rintro ⟨s, hs, hstatus, hdue, rfl⟩
    exact ⟨⟨s, Table.mem_select.mpr ⟨hs, by simpa using hstatus⟩, rfl⟩,
      (shouldRetry_iff s now).mpr hdue⟩

/-- No pair is due twice. -/
theorem Database.nodup_dueRows (db : Database) (now : Int) :
    ((db.dueRows now).map (·.key)).Nodup := by
  have hsorted : (db.failedRows.map (·.key)).Nodup := by
    unfold Database.failedRows
    rw [((List.perm_insertionSort _ _).map _).nodup_iff, List.map_map]
    exact db.syncStates.nodup_select _
  exact hsorted.sublist (List.filter_sublist.map _)

/-- The record and the binding of a due row are there. -/
theorem Database.keys_of_mem_dueRows (h : e ∈ db.dueRows now) :
    e.recordId ∈ db.desiredRecords.keys ∧ e.providerBindingId ∈ db.bindings.keys := by
  obtain ⟨s, hs, -, -, rfl⟩ := Database.mem_dueRows.mp h
  exact ⟨db.syncRecord s hs, db.syncBinding s hs⟩

variable (db now) in
/-- The due rows of one binding. -/
def Database.dueOf (bindingId : String) : List SyncStateFailedRow :=
  (db.dueRows now).filter fun row => row.providerBindingId = bindingId

/-- The due rows of one binding have different records. -/
theorem Database.nodup_dueOf (db : Database) (now : Int) (bindingId : String) :
    ((db.dueOf now bindingId).map (·.recordId)).Nodup := by
  refine List.pairwise_map.mpr ?_
  have hkeys := (List.pairwise_map.mp (db.nodup_dueRows now)).sublist
    (List.filter_sublist (p := fun row => row.providerBindingId = bindingId))
  refine hkeys.imp_of_mem fun {a b} ha hb hne heq => hne ?_
  have ha := of_decide_eq_true (List.mem_filter.mp ha).2
  have hb := of_decide_eq_true (List.mem_filter.mp hb).2
  simp only [SyncStateFailedRow.key, heq, ha, hb]

end Due

/-! ## The turns -/

section Turns

variable [Chrono]

/-- The bindings with a due row, in the order in which a retry pass comes to them. -/
def Database.retryTurns (db : Database) (hash : HashOrder) (now : Int) : List ProviderBinding :=
  (hash.order ((db.dueRows now).map (·.providerBindingId)).dedup).filterMap db.bindings.find?

variable {db : Database} {hash : HashOrder} {now : Int}

/-- Every group has its binding. -/
theorem Database.map_id_retryTurns (db : Database) (hash : HashOrder) (now : Int) :
    (db.retryTurns hash now).map (·.id) =
      hash.order ((db.dueRows now).map (·.providerBindingId)).dedup := by
  refine Table.map_key_filterMap_find? fun bindingId hid => ?_
  obtain ⟨e, he, rfl⟩ := List.mem_map.mp (List.mem_dedup.mp ((hash.perm _).mem_iff.mp hid))
  exact (Database.keys_of_mem_dueRows he).2

/-- A loop over the groups is one over their bindings. -/
theorem Database.forM_retryTurns (db : Database) (hash : HashOrder) (now : Int) {C : Type}
    {R : C → Type} {ε : Type} (f : String → Prog C R ε Unit) :
    (forM (hash.order ((db.dueRows now).map (·.providerBindingId)).dedup) f) =
      forM (db.retryTurns hash now) fun binding => f binding.id := by
  rw [← Database.map_id_retryTurns, Prog.forM_map]

/-- No binding has two turns. -/
theorem Database.nodup_retryTurns (db : Database) (hash : HashOrder) (now : Int) :
    ((db.retryTurns hash now).map (·.id)).Nodup := by
  rw [Database.map_id_retryTurns]
  exact (hash.perm _).nodup_iff.mpr (List.nodup_dedup _)

/-- A binding has a turn when one of its failed rows is due. -/
theorem Database.mem_retryTurns {binding : ProviderBinding} :
    binding ∈ db.retryTurns hash now ↔ binding ∈ db.bindings ∧
      ∃ e ∈ db.dueRows now, e.providerBindingId = binding.id := by
  unfold Database.retryTurns
  rw [List.mem_filterMap]
  constructor
  · rintro ⟨bindingId, hid, hfind⟩
    obtain ⟨hb, rfl⟩ := Table.find?_eq_some.mp hfind
    exact ⟨hb, List.mem_map.mp (List.mem_dedup.mp ((hash.perm _).mem_iff.mp hid))⟩
  · rintro ⟨hb, e, he, hid⟩
    refine ⟨binding.id, (hash.perm _).mem_iff.mpr (List.mem_dedup.mpr ?_),
      Table.find?_eq_some.mpr ⟨hb, rfl⟩⟩
    exact List.mem_map.mpr ⟨e, he, hid⟩

end Turns

/-! ## The turn on a binding -/

section Worker

variable [CryptoLib] [SerdeJson] [UnicodeData] [Chrono] (worker : ReconcileWorker)

/-- What a retry does for one entry, once the fetch of its binding has ended. -/
def retryEntry (bindingId now : String)
    (fetched : Except String (RecordKey → Option ProviderRecord)) (entry : SyncStateFailedRow) :
    SyncM Unit :=
  match fetched with
  | .error e =>
    upsertSyncState entry.recordId bindingId none (some now) .syncFailed (some e) now
  | .ok actual => ReconcileWorker.retryResolveEntry bindingId now actual entry

omit [CryptoLib] [Chrono] in
/-- After the query of its record, an entry is resolved as an observe pass compares a record. -/
private theorem run_retryResolveEntry {env : SyncEnv} (henv : env.Reliable) (bindingId now : String)
    (actual : RecordKey → Option ProviderRecord) {entry : SyncStateFailedRow} {record : DesiredRecord}
    {w : SyncWorld} (hfind : w.db.desiredRecords.find? entry.recordId = some record) :
    ((ReconcileWorker.retryResolveEntry bindingId now actual entry).run (handleSync env) w).2 =
      ((ReconcileWorker.compareRecord bindingId now actual record).run (handleSync env)
        { w with queries := w.queries + 1 }).2 := by
  have hid : record.id = entry.recordId := (Table.find?_eq_some.mp hfind).2
  unfold ReconcileWorker.retryResolveEntry ReconcileWorker.compareRecord
  simp only [Prog.run_bind, run_syncIssue, handleSync, henv.query, Prog.run_liftExcept,
    hfind, Prog.run_pure, hid]
  -- a row that cannot be parsed is an error here, and is passed over there
  cases parseDesiredRecord record with
  | error e => rfl
  | ok desired => rfl

omit [CryptoLib] [Chrono] in
/-- A loop body that writes what is observed of a record covers its pair. -/
private theorem leaves_of_observes {env : SyncEnv} (henv : env.Reliable) {db : Database}
    {binding : ProviderBinding} (hb : binding ∈ db.bindings) {now : String}
    {fetched : Except String (RecordKey → Option ProviderRecord)} {body : DesiredRecord → SyncM Unit}
    (hbody : Observes env binding.id now (observation fetched) body) {record : DesiredRecord}
    (hrecord : record ∈ db.desiredRecords) :
    Leaves env db (body record) (· = (record.id, binding.id))
      fun _ => observedRow db fetched now := by
  intro w hw
  have hrecordKey : record.id ∈ w.db.desiredRecords.keys := by
    rw [hw.desiredRecords]
    exact Table.mem_keys.mpr ⟨record, hrecord, rfl⟩
  have hbindingKey : binding.id ∈ w.db.bindings.keys := by
    rw [hw.bindings]
    exact Table.mem_keys.mpr ⟨binding, hb, rfl⟩
  obtain ⟨w', hrun, hobserved⟩ := hbody.run_one henv hrecordKey hbindingKey
  rw [hrun]
  refine ⟨⟨hobserved.bindings.trans hw.bindings, hobserved.desiredRecords.trans hw.desiredRecords⟩,
    fun key => ⟨?_, fun hne => hobserved.frame key fun row hrow heq => hne ?_⟩⟩
  · rintro rfl
    exact (hobserved.written record List.mem_cons_self).trans (observedRow_of_mem hrecord ..).symm
  · rw [heq, List.mem_singleton.mp hrow]

omit [CryptoLib] [Chrono] in
/-- A retry covers the pair of its entry. -/
theorem leaves_retryEntry (hjson : ∀ r, ∃ text, SerdeJson.recordToString r = .ok text)
    {env : SyncEnv} (henv : env.Reliable) {db : Database} {binding : ProviderBinding}
    (hb : binding ∈ db.bindings) (now : String)
    (fetched : Except String (RecordKey → Option ProviderRecord)) {entry : SyncStateFailedRow}
    (hentry : entry.recordId ∈ db.desiredRecords.keys) :
    Leaves env db (retryEntry binding.id now fetched entry) (· = (entry.recordId, binding.id))
      fun _ => observedRow db fetched now := by
  obtain ⟨record, hrecord, hid⟩ := Table.mem_keys.mp hentry
  rw [← hid]
  cases fetched with
  | error e =>
    have hbody := observes_markSyncFailed env binding.id now e
    rw [retryEntry, ← hid]
    exact leaves_of_observes henv hb hbody hrecord
  | ok actual =>
    have hbody := observes_compareRecord hjson env binding.id now actual
    -- the entry reads its record before the comparison
    refine .of_run fun w hw => ⟨_, { w with queries := w.queries + 1 }, rfl,
      run_retryResolveEntry henv _ _ _ ?_, leaves_of_observes henv hb hbody hrecord⟩
    rw [hw.desiredRecords]
    exact Table.find?_eq_some.mpr ⟨hrecord, hid⟩

/-- The world in which a retry of the binding comes to its entries: it has read the clock and the
    binding and fetched the records. -/
def ReconcileWorker.entriesStart (binding : ProviderBinding) (w : SyncWorld) : SyncWorld :=
  { w with
    readings := w.readings + 1
    queries := w.queries + 1
    listings := w.listings + (worker.lists binding).toNat }

/-- A retry of one binding goes on entry by entry. -/
private theorem run_retryOneBinding {env : SyncEnv} (henv : env.Reliable) {w : SyncWorld}
    {binding : ProviderBinding} (hb : binding ∈ w.db.bindings)
    (entries : List SyncStateFailedRow) :
    (worker.retryOneBinding binding.id entries).run (handleSync env) w =
      (forM entries fun entry => turn (retryEntry binding.id (Chrono.toRfc3339 (env.now w.readings))
        (worker.fetched env w.listings binding) entry)).run (handleSync env)
        (worker.entriesStart binding w) := by
  unfold ReconcileWorker.retryOneBinding ReconcileWorker.entriesStart
  cases hfetched : worker.fetched env w.listings binding <;>
    simp only [Prog.run_bind, run_syncIssue, handleSync, henv.query,
      Prog.run_liftExcept, Table.find?_eq_some.mpr ⟨hb, rfl⟩, Prog.run_pure,
      Prog.run_attempt, run_fetchActualRecords, hfetched, retryEntry, turn]

/-- The turn of a retry pass covers its entries. -/
theorem leaves_retryOneBinding (hjson : ∀ r, ∃ text, SerdeJson.recordToString r = .ok text)
    {env : SyncEnv} (henv : env.Reliable) {db : Database} {binding : ProviderBinding}
    (hb : binding ∈ db.bindings) {entries : List SyncStateFailedRow}
    (hentries : ∀ e ∈ entries, e.recordId ∈ db.desiredRecords.keys)
    (hnodup : (entries.map (·.recordId)).Nodup) :
    Leaves env db (worker.retryOneBinding binding.id entries)
      (fun key => ∃ e ∈ entries, key = (e.recordId, binding.id))
      (worker.turnEffect env db binding) := by
  -- the entries of one binding are of different records
  have hdisjoint : entries.Pairwise fun e e' => ∀ key : String × String,
      key = (e.recordId, binding.id) → ¬ key = (e'.recordId, binding.id) := by
    refine (List.pairwise_map.mp hnodup).imp fun hne key => ?_
    rintro rfl heq
    exact hne (Prod.mk.inj heq).1
  refine .of_run fun w hw => ?_
  have hrun := run_retryOneBinding worker henv (w := w) (by rwa [hw.bindings]) entries
  exact ⟨_, worker.entriesStart binding w, rfl, congrArg Prod.snd hrun, .forM_turn (fun entry he =>
    leaves_retryEntry hjson henv hb _ _ (hentries entry he)) hdisjoint⟩

/-- The turn of a retry pass on a binding. -/
def ReconcileWorker.retryTurn (db : Database) (now : Int) (binding : ProviderBinding) : SyncM Unit :=
  worker.retryOneBinding binding.id (db.dueOf now binding.id)

/-! ## The listings of a pass -/

section Listings

omit [CryptoLib] [SerdeJson] [UnicodeData] [Chrono]

/-- The other commands count no listing. -/
private theorem listings_handleSync (env : SyncEnv) {c : SyncCmd}
    (hc : ∀ binding creds, c ≠ .listRecords binding creds) (w : SyncWorld) :
    (handleSync env c w).2.listings = w.listings := by
  have hquery : ∀ {α : Type} (answer : Database → α),
      (w.query env answer).2.listings = w.listings := by
    intro α answer
    unfold SyncWorld.query
    split <;> rfl
  cases c with
  | utcNow => rfl
  | listRecords binding creds => exact absurd rfl (hc binding creds)
  | upsertSyncState row =>
    simp only [handleSync, SyncWorld.write]
    split
    · rfl
    · split <;> rfl
  | selectActive => exact hquery _
  | selectDesired bindingId => exact hquery _
  | selectFailed => exact hquery _
  | selectBinding id => exact hquery _
  | selectRecord id => exact hquery _

/-- An upsert makes no listing. -/
private theorem only_upsertSyncState (recordId bindingId : String)
    (value observedAt : Option String) (status : SyncStatus) (error : Option String) (now : String) :
    Prog.Only (fun c => ∀ binding creds, c ≠ .listRecords binding creds)
      (upsertSyncState recordId bindingId value observedAt status error now) :=
  .perform_bind (fun _ _ => nofun) fun _ => .liftExcept _

variable [SerdeJson] [UnicodeData]

/-- Once the fetch has ended, nothing is listed. -/
private theorem only_retryEntry (bindingId now : String)
    (fetched : Except String (RecordKey → Option ProviderRecord)) (entry : SyncStateFailedRow) :
    Prog.Only (fun c => ∀ binding creds, c ≠ .listRecords binding creds)
      (retryEntry bindingId now fetched entry) := by
  unfold retryEntry
  cases fetched with
  | error e => exact only_upsertSyncState ..
  | ok actual =>
    unfold ReconcileWorker.retryResolveEntry
    refine .perform_bind (fun _ _ => nofun) fun reply => .liftExcept_bind fun found => ?_
    cases found with
    | none => exact .throw _
    | some row =>
      refine .liftExcept_bind fun desired => ?_
      split
      · exact .liftExcept_bind fun json => only_upsertSyncState ..
      · exact only_upsertSyncState ..

end Listings

/-- A turn makes the listing of its fetch and no other. -/
theorem listings_retryTurn {env : SyncEnv} (henv : env.Reliable) (db : Database) (now : Int)
    {w : SyncWorld} {binding : ProviderBinding} (hb : binding ∈ w.db.bindings) :
    ((worker.retryTurn db now binding).run (handleSync env) w).2.listings =
      w.listings + (worker.lists binding).toNat := by
  unfold ReconcileWorker.retryTurn
  rw [run_retryOneBinding worker henv hb]
  refine Prog.run_frame (f := fun w : SyncWorld => w.listings) fun c hc w' => ?_
  exact listings_handleSync env
    ((Prog.Only.forM fun entry _ => (only_retryEntry ..).turn).of_mem_trace hc) w'

/-- The world in which the pass comes to its turns. -/
def SyncWorld.retryStart (w : SyncWorld) : SyncWorld :=
  if w.db.failedRows.isEmpty then { w with queries := w.queries + 1 }
  else { w with queries := w.queries + 1, readings := w.readings + 1 }

omit [CryptoLib] [SerdeJson] [UnicodeData] [Chrono] in
@[simp] theorem SyncWorld.db_retryStart (w : SyncWorld) : w.retryStart.db = w.db := by
  unfold SyncWorld.retryStart
  split <;> rfl

omit [CryptoLib] [SerdeJson] [UnicodeData] [Chrono] in
@[simp] theorem SyncWorld.listings_retryStart (w : SyncWorld) :
    w.retryStart.listings = w.listings := by
  unfold SyncWorld.retryStart
  split <;> rfl

omit [CryptoLib] [SerdeJson] [UnicodeData] [Chrono] in
theorem SyncWorld.retryStart_of_failed {w : SyncWorld} (hfailed : w.db.failedRows.isEmpty = false) :
    { w with queries := w.queries + 1, readings := w.readings + 1 } = w.retryStart := by
  simp only [SyncWorld.retryStart, hfailed, Bool.false_eq_true, if_false]

omit [CryptoLib] [SerdeJson] [UnicodeData] in
/-- Where nothing has failed nothing is due. -/
theorem Database.retryTurns_eq_nil {db : Database} (hash : HashOrder) (now : Int)
    (hempty : db.failedRows.isEmpty = true) : db.retryTurns hash now = [] := by
  refine List.eq_nil_iff_forall_not_mem.mpr fun binding hb => ?_
  obtain ⟨-, e, he, -⟩ := Database.mem_retryTurns.mp hb
  simp only [Database.dueRows, List.isEmpty_iff.mp hempty, List.filter_nil] at he
  cases he

/-- The pass is its turns on the bindings with a due row. -/
theorem run_processRetryBatch {env : SyncEnv} (henv : env.Reliable) (hash : HashOrder)
    (w : SyncWorld) :
    (worker.processRetryBatch hash).run (handleSync env) w =
      (.ok (), turnWorld env (worker.retryTurn w.db (env.now w.readings))
        (w.db.retryTurns hash (env.now w.readings)) w.retryStart) := by
  unfold ReconcileWorker.processRetryBatch SyncWorld.retryStart
  simp only [Prog.run_bind, run_syncIssue, handleSync, henv.query, Prog.run_liftExcept]
  split
  · next hempty =>
    rw [Database.retryTurns_eq_nil hash _ hempty]
    rfl
  · simp only [Prog.run_bind, run_syncIssue, handleSync]
    rw [← run_turns]
    exact congrArg (Prog.run (handleSync env) · _) (w.db.forM_retryTurns hash _ fun bindingId =>
      turn (worker.retryOneBinding bindingId (w.db.dueOf (env.now w.readings) bindingId)))

/-- What a pass is shown of a binding. The bindings that have their turns before it are listed
    before it, those that can be. -/
def ReconcileWorker.retryOutcome (hash : HashOrder) (env : SyncEnv) (w : SyncWorld)
    (binding : ProviderBinding) : Except String (List ProviderRecord) :=
  let before := (w.db.retryTurns hash (env.now w.readings)).takeWhile fun b => b.id ≠ binding.id
  worker.listed env (w.listings + before.countP worker.lists) binding

/-- A turn of a retry pass covers the due rows of its binding. -/
theorem leaves_retryTurn (hjson : ∀ r, ∃ text, SerdeJson.recordToString r = .ok text)
    {env : SyncEnv} (henv : env.Reliable) {db : Database} {binding : ProviderBinding}
    (hb : binding ∈ db.bindings) (now : Int) :
    Leaves env db (worker.retryTurn db now binding)
      (fun key => ∃ e ∈ db.dueOf now binding.id, key = (e.recordId, binding.id))
      (worker.turnEffect env db binding) :=
  leaves_retryOneBinding worker hjson henv hb
    (fun _ he => (Database.keys_of_mem_dueRows (List.mem_of_mem_filter he)).1) (db.nodup_dueOf ..)

/-- The pass comes to a turn when those before it have made their listings. -/
private theorem listings_of_turnVisit (hjson : ∀ r, ∃ text, SerdeJson.recordToString r = .ok text)
    {env : SyncEnv} (henv : env.Reliable) {db : Database} {now : Int}
    {turns : List ProviderBinding} (hturns : ∀ binding ∈ turns, binding ∈ db.bindings)
    (hnodup : (turns.map (·.id)).Nodup) {w : SyncWorld} (hw : SameConfig db w.db)
    {v : ProviderBinding × SyncWorld} (hv : v ∈ turnVisits env (worker.retryTurn db now) turns w) :
    v.2.listings =
      w.listings + (turns.takeWhile fun b => b.id ≠ v.1.id).countP worker.lists := by
  induction turns generalizing w with
  | nil => cases hv
  | cons binding turns ih =>
    obtain ⟨hb, hturns⟩ := List.forall_mem_cons.mp hturns
    obtain ⟨hnot, hnodup⟩ := List.nodup_cons.mp hnodup
    rcases List.mem_cons.mp hv with rfl | hv
    · rw [List.takeWhile_cons_of_neg (by simp)]
      rfl
    · rw [Prog.run_turn] at hv
      have hconfig := (leaves_retryTurn worker hjson henv hb now w hw).1
      have hne : binding.id ≠ v.1.id := fun heq =>
        hnot (List.mem_map.mpr ⟨v.1, fst_mem_of_turnVisit hv, heq.symm⟩)
      rw [ih hturns hnodup hconfig hv,
        listings_retryTurn worker henv db now (by rwa [hw.bindings]),
        List.takeWhile_cons_of_pos (by simpa using hne), List.countP_cons]
      cases worker.lists binding <;> simp only [Bool.toNat_true, Bool.toNat_false, if_true,
        Bool.false_eq_true, if_false] <;> omega

/-- What the fetch of a turn returns. -/
theorem fetched_of_turnVisit (hjson : ∀ r, ∃ text, SerdeJson.recordToString r = .ok text)
    {env : SyncEnv} (henv : env.Reliable) {hash : HashOrder} {w : SyncWorld}
    {v : ProviderBinding × SyncWorld}
    (hv : v ∈ turnVisits env (worker.retryTurn w.db (env.now w.readings))
      (w.db.retryTurns hash (env.now w.readings)) w.retryStart) :
    worker.fetched env v.2.listings v.1 = (worker.retryOutcome hash env w v.1).map actualMap := by
  have hlistings := listings_of_turnVisit worker hjson henv
    (fun binding hb => (Database.mem_retryTurns.mp hb).1)
    (w.db.nodup_retryTurns hash (env.now w.readings)) (by rw [w.db_retryStart]; exact .refl _) hv
  rw [fetched_eq_map, hlistings, w.listings_retryStart, ReconcileWorker.retryOutcome]

omit [CryptoLib] [SerdeJson] [UnicodeData] in
/-- Two turns cover different keys. -/
theorem Database.disjoint_retryTurns (db : Database) (hash : HashOrder) (now : Int) :
    (db.retryTurns hash now).Pairwise fun x y => ∀ key : String × String,
      (∃ e ∈ db.dueOf now x.id, key = (e.recordId, x.id)) →
        ¬ ∃ e ∈ db.dueOf now y.id, key = (e.recordId, y.id) := by
  refine (List.pairwise_map.mp (db.nodup_retryTurns hash now)).imp fun hne key hx hy => ?_
  obtain ⟨e, -, rfl⟩ := hx
  obtain ⟨e', -, heq⟩ := hy
  exact hne (Prod.mk.inj heq).2

/-- The turns of a retry pass leave every row that is due as the turn on its binding leaves it,
    and every other row alone. -/
theorem find?_processRetryBatch (hjson : ∀ r, ∃ text, SerdeJson.recordToString r = .ok text)
    {env : SyncEnv} (henv : env.Reliable) (hash : HashOrder) (w : SyncWorld) :
    (∀ v ∈ turnVisits env (worker.retryTurn w.db (env.now w.readings))
        (w.db.retryTurns hash (env.now w.readings)) w.retryStart,
      SameConfig w.db v.2.db ∧ ∀ e ∈ w.db.dueOf (env.now w.readings) v.1.id,
        ((worker.processRetryBatch hash).run (handleSync env) w).2.db.syncStates.find?
            (e.recordId, v.1.id) =
          worker.turnEffect env w.db v.1 v.2 (e.recordId, v.1.id)
            (w.db.syncStates.find? (e.recordId, v.1.id))) ∧
      ∀ key, key ∉ (w.db.dueRows (env.now w.readings)).map (·.key) →
        ((worker.processRetryBatch hash).run (handleSync env) w).2.db.syncStates.find? key =
          w.db.syncStates.find? key := by
  have hleaves : ∀ binding ∈ w.db.retryTurns hash (env.now w.readings), Leaves env w.db
      (worker.retryTurn w.db (env.now w.readings) binding)
      (fun key => ∃ e ∈ w.db.dueOf (env.now w.readings) binding.id, key = (e.recordId, binding.id))
      (worker.turnEffect env w.db binding) := fun binding hb =>
    leaves_retryTurn worker hjson henv (Database.mem_retryTurns.mp hb).1 _
  obtain ⟨-, hwritten, hframe⟩ := Leaves.run_forM hleaves (w.db.disjoint_retryTurns hash _)
    (w := w.retryStart) (by rw [w.db_retryStart]; exact .refl _)
  rw [run_processRetryBatch worker henv]
  rw [w.db_retryStart] at hwritten hframe
  refine ⟨fun v hv => ⟨(hwritten v hv).1, fun e he => (hwritten v hv).2 _ ⟨e, he, rfl⟩⟩,
    fun key hnot => hframe key fun binding _ hcovers => hnot ?_⟩
  obtain ⟨e, he, rfl⟩ := hcovers
  obtain ⟨he, hid⟩ := List.mem_filter.mp he
  exact List.mem_map.mpr ⟨e, he, by rw [← of_decide_eq_true hid]; rfl⟩

end Worker

end DnsManager
