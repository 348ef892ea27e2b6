import DnsManager.Spec.RetryRows
import DnsManager.Spec.SyncRows

/-!
# What a retry pass writes, next to an observe pass

In a steady environment both passes write the same for a pair, `judgedRow`, and differ in the
pairs they cover: an observe pass covers the live records of the active bindings, a retry pass
every failed row whose backoff has elapsed, whatever has become of its record and binding.

## Key results
- `judges_processObserveBatch`, `judgedRow_processRetryBatch`: what each pass leaves under a key.
- `retry_agrees_iff`: an observe pass writes a row as the retry pass does exactly when it watches
  the pair.
-/

namespace DnsManager

/-- No statement fails, a binding is always listed with the same result, and the clock stands. -/
structure SyncEnv.Steady (env : SyncEnv) : Prop extends env.Reliable where
  listings : ∀ n binding creds, env.listings n binding creds = env.listings 0 binding creds
  now : ∀ n, env.now n = env.now 0

section Worker

variable [CryptoLib] [SerdeJson] [UnicodeData] [Chrono] (worker : ReconcileWorker) (env : SyncEnv)
  (db : Database)

/-- What a pass finds out about a pair. -/
def judgement (key : String × String) : Option Observation :=
  (db.bindings.find? key.2).bind fun binding =>
    (db.desiredRecords.find? key.1).bind (observation (worker.fetched env 0 binding))

/-- The row of a pair after a pass has judged it. -/
def judgedRow (key : String × String) (old : Option SyncState) : Option SyncState :=
  match judgement worker env db key with
  | some o => some ((o.row key.1 key.2 (Chrono.toRfc3339 (env.now 0))).upserted old)
  | none => old

/-- From every world with the configuration of `db` the program leaves the judged row under the
    keys it covers, and every other row alone. -/
def Judges (p : SyncM Unit) (covers : String × String → Prop) : Prop :=
  ∀ w : SyncWorld, SameConfig db w.db →
    SameConfig db (p.run (handleSync env) w).2.db ∧
      ∀ key, (covers key → (p.run (handleSync env) w).2.db.syncStates.find? key =
          judgedRow worker env db key (w.db.syncStates.find? key)) ∧
        (¬ covers key → (p.run (handleSync env) w).2.db.syncStates.find? key =
          w.db.syncStates.find? key)

variable {worker env db}

/-- In a steady environment a turn on a binding leaves the judged rows, whenever it is taken. -/
private theorem turnEffect_eq (henv : env.Steady) {binding : ProviderBinding}
    (hb : binding ∈ db.bindings) (w : SyncWorld) (recordId : String) (old : Option SyncState) :
    worker.turnEffect env db binding w (recordId, binding.id) old =
      judgedRow worker env db (recordId, binding.id) old := by
  have hfetched : worker.fetched env w.listings binding = worker.fetched env 0 binding := by
    simp only [ReconcileWorker.fetched, henv.listings w.listings]
  have hjudgement : judgement worker env db (recordId, binding.id) =
      (db.desiredRecords.find? recordId).bind (observation (worker.fetched env 0 binding)) := by
    simp only [judgement, Table.find?_eq_some.mpr ⟨hb, rfl⟩, Option.bind_some]
  rw [ReconcileWorker.turnEffect, hfetched, henv.now w.readings]
  unfold observedRow judgedRow
  cases ho : (db.desiredRecords.find? recordId).bind (observation (worker.fetched env 0 binding)) <;>
    simp only [ho, hjudgement]

/-- An observe pass covers the pairs it watches. -/
theorem judges_processObserveBatch
    (hjson : ∀ r, ∃ text, SerdeJson.recordToString r = .ok text) (henv : env.Steady) :
    Judges worker env db worker.processObserveBatch (Watched db) := by
  have hturn : ∀ binding ∈ db.activeList, Judges worker env db (worker.observeOneBinding binding)
      fun key => ∃ row ∈ db.desiredOf binding.id, key = (row.id, binding.id) := by
    intro binding hb w hw
    have hmem := (Database.mem_activeList.mp hb).1
    obtain ⟨hconfig, hrows⟩ := leaves_observeOneBinding worker hjson henv.toReliable hmem w hw
    refine ⟨hconfig, fun key => ⟨fun hcovers => ?_, (hrows key).2⟩⟩
    obtain ⟨row, -, rfl⟩ := id hcovers
    rw [(hrows _).1 hcovers, turnEffect_eq henv hmem]
  intro w hw
  have hactive : w.db.activeList = db.activeList := by
    simp only [Database.activeList, hw.bindings]
  obtain ⟨hconfig, hrows⟩ := Leaves.forM_turn hturn db.disjoint_activeList
    { w with queries := w.queries + 1 } hw
  rw [run_turns] at hconfig hrows
  rw [run_processObserveBatch worker henv.toReliable, hactive]
  refine ⟨hconfig, fun key => ⟨fun hwatched => (hrows key).1 ?_, fun hnot => (hrows key).2 ?_⟩⟩
  · obtain ⟨binding, hb, hstatus, hrow⟩ := hwatched
    exact ⟨binding, Database.mem_activeList.mpr ⟨hb, hstatus⟩, hrow⟩
  · rintro ⟨binding, hb, hrow⟩
    obtain ⟨hb, hstatus⟩ := Database.mem_activeList.mp hb
    exact hnot ⟨binding, hb, hstatus, hrow⟩

/-- A retry pass leaves the judged row under the keys of the due rows, and every other row
    alone. -/
theorem judgedRow_processRetryBatch (hjson : ∀ r, ∃ text, SerdeJson.recordToString r = .ok text)
    (henv : env.Steady) (hash : HashOrder) (w : SyncWorld) (key : String × String) :
    ((worker.processRetryBatch hash).run (handleSync env) w).2.db.syncStates.find? key =
      if key ∈ (w.db.dueRows (env.now 0)).map (·.key) then
        judgedRow worker env w.db key (w.db.syncStates.find? key)
      else w.db.syncStates.find? key := by
  obtain ⟨hwritten, hframe⟩ := find?_processRetryBatch worker hjson henv.toReliable hash w
  rw [henv.now w.readings] at hwritten hframe
  split
  · next hmem =>
    obtain ⟨e, he, rfl⟩ := List.mem_map.mp hmem
    obtain ⟨binding, hb, hid⟩ := Table.mem_keys.mp (Database.keys_of_mem_dueRows he).2
    obtain ⟨v, hv, rfl⟩ := exists_turnVisit env (worker.retryTurn w.db (env.now 0))
      (Database.mem_retryTurns.mpr ⟨hb, e, he, hid.symm⟩) w.retryStart
    have hdue : e ∈ w.db.dueOf (env.now 0) v.1.id :=
      List.mem_filter.mpr ⟨he, decide_eq_true hid.symm⟩
    have hrow := (hwritten v hv).2 e hdue
    rw [turnEffect_eq henv hb] at hrow
    rwa [hid] at hrow
  · next hmem => exact hframe key hmem

/-! ## Both passes -/

/-- The columns a pass finds out. -/
def SyncState.result (s : SyncState) :
    SyncStatus × Option String × Option String × Int × Option String :=
  (s.status, s.lastObservedValue, s.lastError, s.retryCount, s.lastObservedAt)

/-- A pass that writes a failed row changes its result: it clears the failure or counts on. -/
private theorem result_judgedRow_ne {key : String × String} {s : SyncState}
    (hfailed : s.status = .syncFailed) (hwritten : judgedRow worker env db key (some s) ≠ some s) :
    (judgedRow worker env db key (some s)).map (·.result) ≠ (some s).map (·.result) := by
  unfold judgedRow at hwritten ⊢
  split
  · next o _ =>
    intro hsame
    have hresult : ((o.row key.1 key.2 (Chrono.toRfc3339 (env.now 0))).onConflict s).result =
        s.result := Option.some.inj hsame
    simp only [SyncState.result, SyncState.onConflict, Observation.row, Prod.mk.injEq] at hresult
    obtain ⟨hstatus, -, -, hcount, -⟩ := hresult
    -- a row that has failed again counts one failure more
    change (if o.status ≠ .syncFailed then 0
      else if s.status = .syncFailed then s.retryCount + 1 else 0) = s.retryCount at hcount
    rw [if_neg (not_not_intro (hstatus.trans hfailed)), if_pos hfailed] at hcount
    omega
  · next hnone =>
    rw [hnone] at hwritten
    exact absurd rfl hwritten

/-- Let a retry pass write a row. An observe pass from the same state writes it in the same way
    exactly when it watches the pair. -/
theorem retry_agrees_iff (hjson : ∀ r, ∃ text, SerdeJson.recordToString r = .ok text)
    (henv : env.Steady) (hash : HashOrder) (w : SyncWorld) (key : String × String)
    (hwritten : ((worker.processRetryBatch hash).run (handleSync env) w).2.db.syncStates.find? key ≠
      w.db.syncStates.find? key) :
    ((worker.processObserveBatch.run (handleSync env) w).2.db.syncStates.find? key).map (·.result) =
        (((worker.processRetryBatch hash).run (handleSync env) w).2.db.syncStates.find? key).map
          (·.result) ↔
      Watched w.db key := by
  have hretry : ((worker.processRetryBatch hash).run (handleSync env) w).2.db.syncStates.find? key =
      _ := judgedRow_processRetryBatch hjson henv hash w key
  have hobserves : Judges worker env w.db worker.processObserveBatch (Watched w.db) :=
    judges_processObserveBatch hjson henv
  obtain ⟨-, hobserve⟩ := hobserves w ⟨rfl, rfl⟩
  by_cases hdue : key ∈ (w.db.dueRows (env.now 0)).map (·.key)
  case neg =>
    rw [if_neg hdue] at hretry
    exact absurd hretry hwritten
  rw [if_pos hdue] at hretry
  constructor
  · intro hsame
    by_contra hnot
    -- the observe pass leaves the failed row, and no write of a pass leaves it as it was
    obtain ⟨e, he, rfl⟩ := List.mem_map.mp hdue
    obtain ⟨s, hmem, hfailed, -, rfl⟩ := Database.mem_dueRows.mp he
    have hs : w.db.syncStates.find? (SyncStateFailedRow.ofState s).key = some s :=
      Table.find?_eq_some.mpr ⟨hmem, rfl⟩
    rw [(hobserve _).2 hnot, hretry, hs] at hsame
    rw [hretry, hs] at hwritten
    exact result_judgedRow_ne hfailed hwritten hsame.symm
  · intro hwatched
    rw [(hobserve key).1 hwatched, hretry]

end Worker

section Sample

attribute [local instance] Sample.cryptoLib Sample.serdeJson Sample.unicodeData Sample.clock

/-- A live and a deleted record, an active and a paused binding, and failures of both records with
    the first binding and of the live one with the second. -/
def retired : Database :=
  { Sample.twoBindings with
    bindings := ⟨[Sample.binding "b1" "Z1", { Sample.binding "b2" "Z2" with status := .paused }],
      by decide⟩
    bindingZone := by decide
    desiredRecords := ⟨[Sample.desired "r1" "www",
      { Sample.desired "r2" "api" with deletedAt := some "2024-01-15T12:30:00+00:00" }], by decide⟩
    recordZone := by decide
    recordTypeCheck := by decide
    recordUnique := by decide
    syncStates := ⟨[Sample.failedRow "r1" "b1", Sample.failedRow "r2" "b1",
      Sample.failedRow "r1" "b2"], by decide⟩
    itemRecord := fun _ h => (List.not_mem_nil h).elim
    syncRecord := by decide
    syncBinding := by decide }

/-- The table after a retry pass over this zone, when every listing shows `www`. -/
def retriedStates : Table SyncState SyncState.key :=
  ((Sample.worker.processRetryBatch Sample.insertionOrder).run
    (handleSync (Sample.syncEnv [Sample.www "192.0.2.1"])) { db := retired }).2.db.syncStates

/-- The table after an observe pass instead. -/
def observedStates : Table SyncState SyncState.key :=
  (Sample.worker.processObserveBatch.run (handleSync (Sample.syncEnv [Sample.www "192.0.2.1"]))
    { db := retired }).2.db.syncStates

/-- The retry pass judges the deleted record and lists the paused binding, where an observe pass
    leaves the rows as they are. -/
theorem retry_writes_retired :
    ((retriedStates.find? ("r2", "b1")).map (·.status),
        (observedStates.find? ("r2", "b1")).map (·.status)) = (some .drift, some .syncFailed) ∧
      ((retriedStates.find? ("r1", "b2")).map (·.status),
        (observedStates.find? ("r1", "b2")).map (·.status)) = (some .inSync, some .syncFailed) := by
  decide +kernel

/-- They agree on the live record and the active binding. -/
theorem retry_agrees_www : (observedStates.find? ("r1", "b1")).map (·.result) =
    (retriedStates.find? ("r1", "b1")).map (·.result) := by
  have hsteady : (Sample.syncEnv [Sample.www "192.0.2.1"]).Steady :=
    { Sample.syncEnv_reliable _ with listings := fun _ _ _ => rfl, now := fun _ => rfl }
  have hwritten : retriedStates.find? ("r1", "b1") ≠ retired.syncStates.find? ("r1", "b1") := by
    decide +kernel
  have hwatched : Watched retired ("r1", "b1") :=
    ⟨Sample.binding "b1" "Z1", List.mem_cons_self, rfl, Sample.desired "r1" "www",
      by decide +kernel, rfl⟩
  exact (retry_agrees_iff (fun _ => ⟨_, rfl⟩) hsteady _ _ _ hwritten).mpr hwatched

end Sample

end DnsManager
