import DnsManager.ForStd.Except
import DnsManager.Spec.PassTurns
import DnsManager.Spec.Sample

/-!
# What an observe pass writes, and for whom

Whatever the fetch of each active binding returns, an observe pass writes the rows of exactly
the live records of the active bindings' zones. Each row follows from the outcome for its own
binding, from its own record and from what was there before.

## Key results
- `run_processObserveBatch`: the pass is its turns, one for each active binding.
- `processObserveBatch_spec`: the rows it leaves, those it does not touch, and their isolation.
-/

namespace DnsManager

/-- The active bindings of all zones, in the order in which they are listed. -/
def Database.activeList (db : Database) : List ProviderBinding :=
  db.bindings.select fun b => b.status == .active

theorem Database.mem_activeList {db : Database} {b : ProviderBinding} :
    b ∈ db.activeList ↔ b ∈ db.bindings ∧ b.status = .active := by
  simp [activeList]

theorem Database.nodup_activeList (db : Database) : (db.activeList.map (·.id)).Nodup :=
  db.bindings.nodup_select _

/-- Two bindings have two ids, so no pair is covered twice. -/
theorem Database.disjoint_activeList (db : Database) :
    db.activeList.Pairwise fun x y => ∀ key : String × String,
      (∃ row ∈ db.desiredOf x.id, key = (row.id, x.id)) →
        ¬ ∃ row ∈ db.desiredOf y.id, key = (row.id, y.id) := by
  refine (List.pairwise_map.mp db.nodup_activeList).imp fun hne key hx hy => ?_
  obtain ⟨row, -, rfl⟩ := hx
  obtain ⟨row', -, heq⟩ := hy
  exact hne (Prod.mk.inj heq).2

/-- The pair is that of an active binding and a live record of its zone. -/
def Watched (db : Database) (key : String × String) : Prop :=
  ∃ binding ∈ db.bindings, binding.status = .active ∧
    ∃ row ∈ db.desiredOf binding.id, key = (row.id, binding.id)

/-- In a listing whose keys are distinct a key has the one record with it. -/
theorem actualMap_eq_some_iff {records : List ProviderRecord}
    (hnodup : (records.map (·.key)).Nodup) {key : RecordKey} {r : ProviderRecord} :
    actualMap records key = some r ↔ r ∈ records ∧ r.key = key := by
  have hreverse : (records.reverse.map (·.key)).Nodup := by
    rw [List.map_reverse]
    exact List.nodup_reverse.mpr hnodup
  rw [← List.mem_reverse]
  exact Table.find?_eq_some (t := ⟨records.reverse, hreverse⟩)

/-- A list is cut at an element by its key. -/
private theorem exists_cut {bindings : List ProviderBinding}
    (hnodup : (bindings.map (·.id)).Nodup) {binding : ProviderBinding} (hb : binding ∈ bindings) :
    ∃ post, bindings = (bindings.takeWhile fun b => b.id ≠ binding.id) ++ binding :: post := by
  obtain ⟨pre, post, rfl⟩ := List.append_of_mem hb
  have hpre : ∀ b ∈ pre, decide (b.id ≠ binding.id) = true := by
    intro b hb
    rw [List.map_append, List.nodup_append] at hnodup
    exact decide_eq_true (hnodup.2.2 _ (List.mem_map_of_mem hb) _ (by simp))
  refine ⟨post, ?_⟩
  rw [List.takeWhile_append_of_pos hpre, List.takeWhile_cons_of_neg (by simp), List.append_nil]

section Worker

variable [CryptoLib] [SerdeJson] [UnicodeData] [Chrono] (worker : ReconcileWorker)

/-- What the `n`-th listing shows of the zone behind a binding, or the error that keeps it from
    being made. -/
def ReconcileWorker.listed (env : SyncEnv) (n : Nat) (binding : ProviderBinding) :
    Except String (List ProviderRecord) :=
  if binding.providerType ∉ worker.adapters then
    .error s!"no adapter registered for provider type '{binding.providerType}'"
  else do
    let creds ← worker.decryptCredentials binding.credentialsBlob binding.credentialsDek
    (env.listings n binding creds).mapError fun e => s!"list_records failed: {e.display}"

omit [UnicodeData] [Chrono] in
/-- The fetch makes a map of the listing. -/
theorem fetched_eq_map (env : SyncEnv) (n : Nat) (binding : ProviderBinding) :
    worker.fetched env n binding = (worker.listed env n binding).map actualMap := by
  unfold ReconcileWorker.fetched ReconcileWorker.listed
  split
  · rfl
  · cases worker.decryptCredentials binding.credentialsBlob binding.credentialsDek with
    | error e => rfl
    | ok creds =>
      change ((env.listings n binding creds).mapError _).bind _ =
        ((env.listings n binding creds).mapError _).map _
      cases env.listings n binding creds <;> rfl

omit [UnicodeData] [Chrono] in
/-- A fetch that ends well has made a listing. -/
theorem nodup_of_listed {env : SyncEnv}
    (hkeys : ∀ n binding creds records, env.listings n binding creds = .ok records →
      (records.map (·.key)).Nodup) {n : Nat} {binding : ProviderBinding}
    {records : List ProviderRecord} (h : worker.listed env n binding = .ok records) :
    (records.map (·.key)).Nodup := by
  unfold ReconcileWorker.listed at h
  split at h
  · cases h
  · obtain ⟨creds, -, h⟩ := Except.bind_eq_ok.mp h
    exact hkeys n binding creds records (Except.mapError_eq_ok.mp h)

/-- The world in which an observe pass comes to a binding: those before it in the list have had
    their turns. -/
def ReconcileWorker.worldAt (env : SyncEnv) (w : SyncWorld) (binding : ProviderBinding) :
    SyncWorld :=
  turnWorld env worker.observeOneBinding
    (w.db.activeList.takeWhile fun b => b.id ≠ binding.id) { w with queries := w.queries + 1 }

/-- What the pass is shown of a binding. -/
def ReconcileWorker.outcome (env : SyncEnv) (w : SyncWorld) (binding : ProviderBinding) :
    Except String (List ProviderRecord) :=
  worker.listed env (worker.worldAt env w binding).listings binding

/-- The pass is its turns on the active bindings. -/
theorem run_processObserveBatch {env : SyncEnv} (henv : env.Reliable) (w : SyncWorld) :
    worker.processObserveBatch.run (handleSync env) w =
      (.ok (), turnWorld env worker.observeOneBinding w.db.activeList
        { w with queries := w.queries + 1 }) := by
  unfold ReconcileWorker.processObserveBatch
  simp only [Prog.run_bind, run_syncIssue, handleSync, henv.query, Prog.run_liftExcept]
  exact run_turns _ _

/-- The turns of an observe pass cover the pairs it watches, each its own. -/
theorem find?_processObserveBatch (hjson : ∀ r, ∃ text, SerdeJson.recordToString r = .ok text)
    {env : SyncEnv} (henv : env.Reliable) (w : SyncWorld) :
    (∀ binding ∈ w.db.activeList, ∀ row ∈ w.db.desiredOf binding.id,
      (worker.processObserveBatch.run (handleSync env) w).2.db.syncStates.find?
          (row.id, binding.id) =
        worker.turnEffect env w.db binding (worker.worldAt env w binding) (row.id, binding.id)
          (w.db.syncStates.find? (row.id, binding.id))) ∧
      ∀ key, ¬ Watched w.db key →
        (worker.processObserveBatch.run (handleSync env) w).2.db.syncStates.find? key =
          w.db.syncStates.find? key := by
  have hleaves : ∀ binding ∈ w.db.activeList, Leaves env w.db (worker.observeOneBinding binding)
      (fun key => ∃ row ∈ w.db.desiredOf binding.id, key = (row.id, binding.id))
      (worker.turnEffect env w.db binding) := fun binding hb =>
    leaves_observeOneBinding worker hjson henv (Database.mem_activeList.mp hb).1
  obtain ⟨-, hwritten, hframe⟩ := Leaves.run_forM hleaves w.db.disjoint_activeList
    (w := { w with queries := w.queries + 1 }) (SameConfig.refl _)
  rw [run_processObserveBatch worker henv]
  refine ⟨fun binding hb row hrow => ?_, fun key hnot => hframe key ?_⟩
  · obtain ⟨post, hcut⟩ := exists_cut w.db.nodup_activeList hb
    have hvisit : (binding, worker.worldAt env w binding) ∈ turnVisits env worker.observeOneBinding
        w.db.activeList { w with queries := w.queries + 1 } := by
      rw [hcut]
      exact Prog.mem_visits_append (fun x s => by rw [Prog.run_turn]) _ _ _ _
    exact (hwritten _ hvisit).2 _ ⟨row, hrow, rfl⟩
  · intro binding hb hcovers
    obtain ⟨hmem, hactive⟩ := Database.mem_activeList.mp hb
    exact hnot ⟨binding, hmem, hactive, hcovers⟩

/-! ## The rows in the terms of the listing -/

/-- What the pass makes of the row of a record, when a binding's fetch has this outcome. -/
def RowObserved (outcome : Except String (List ProviderRecord)) (record : DesiredRecord)
    (old new : Option SyncState) : Prop :=
  match outcome, parseDesiredRecord record with
  | .error e, _ => ∃ s, new = some s ∧ s.status = .syncFailed ∧ s.lastError = some e
  | .ok _, .error _ => new = old
  | .ok records, .ok desired => ∃ s, new = some s ∧
      (s.status = .inSync ↔ ∃ r ∈ records, r.key = desired.key ∧ diff r desired = false) ∧
      (s.status = .inSync ∨ s.status = .drift) ∧
      (∀ r ∈ records, r.key = desired.key →
        ∃ json, SerdeJson.recordToString r = .ok json ∧ s.lastObservedValue = some json) ∧
      ((∀ r ∈ records, r.key ≠ desired.key) → s.lastObservedValue = none)

/-- The columns of a row but for its key and its times. -/
def SyncState.verdict (s : SyncState) : SyncStatus × Option String × Option String × Int :=
  (s.status, s.lastObservedValue, s.lastError, s.retryCount)

omit [CryptoLib] [Chrono] in
/-- A record that the listing does not have has drifted. -/
private theorem rowObserved_of_missing {records : List ProviderRecord} {record : DesiredRecord}
    {desired : ProviderRecord} (hparse : parseDesiredRecord record = .ok desired)
    (hmissing : ∀ r ∈ records, r.key ≠ desired.key) (old : Option SyncState) {s : SyncState}
    (hstatus : s.status = .drift) (hvalue : s.lastObservedValue = none) :
    RowObserved (.ok records) record old (some s) := by
  unfold RowObserved
  simp only [hparse]
  refine ⟨s, rfl, ?_, Or.inr hstatus, fun r hr hkey => absurd hkey (hmissing r hr),
    fun _ => hvalue⟩
  rw [hstatus]
  constructor
  · intro hdrift
    cases hdrift
  · rintro ⟨r, hr, hkey, -⟩
    exact absurd hkey (hmissing r hr)

omit [CryptoLib] [Chrono] in
/-- A record that the listing has is compared. -/
private theorem rowObserved_of_listed {records : List ProviderRecord} {record : DesiredRecord}
    {desired actual : ProviderRecord} {json : String}
    (hparse : parseDesiredRecord record = .ok desired)
    (hrecords : (records.map (·.key)).Nodup) (hmem : actual ∈ records)
    (hkey : actual.key = desired.key) (htext : SerdeJson.recordToString actual = .ok json)
    (old : Option SyncState) {s : SyncState}
    (hstatus : s.status = if diff actual desired then .drift else .inSync)
    (hvalue : s.lastObservedValue = some json) : RowObserved (.ok records) record old (some s) := by
  have honly : ∀ r ∈ records, r.key = desired.key → r = actual := fun r hr hkey' =>
    List.inj_on_of_nodup_map hrecords hr hmem (hkey'.trans hkey.symm)
  unfold RowObserved
  simp only [hparse]
  refine ⟨s, rfl, ?_, ?_, fun r hr hkey' => ⟨json, ?_, hvalue⟩, fun hmissing => ?_⟩
  · constructor
    · intro hsync
      refine ⟨actual, hmem, hkey, ?_⟩
      cases hdiff : diff actual desired with
      | false => rfl
      | true =>
        rw [hsync, hdiff, if_pos rfl] at hstatus
        cases hstatus
    · rintro ⟨r, hr, hkey', hdiff⟩
      rw [honly r hr hkey'] at hdiff
      rw [hstatus, hdiff, if_neg Bool.false_ne_true]
  · cases hdiff : diff actual desired with
    | false => exact Or.inl (by rw [hstatus, hdiff, if_neg Bool.false_ne_true])
    | true => exact Or.inr (by rw [hstatus, hdiff, if_pos rfl])
  · rw [honly r hr hkey']
    exact htext
  · exact absurd hkey (hmissing actual hmem)

omit [CryptoLib] [Chrono] in
/-- An observation of a listing with distinct keys makes the row. -/
theorem rowObserved_observedRow (hjson : ∀ r, ∃ text, SerdeJson.recordToString r = .ok text)
    {db : Database} {outcome : Except String (List ProviderRecord)}
    (hkeys : ∀ records, outcome = .ok records → (records.map (·.key)).Nodup)
    {record : DesiredRecord} (hrecord : record ∈ db.desiredRecords) (bindingId now : String)
    (old : Option SyncState) :
    RowObserved outcome record old
      (observedRow db (outcome.map actualMap) now (record.id, bindingId) old) := by
  rw [observedRow_of_mem hrecord]
  cases outcome with
  | error e => exact ⟨_, rfl, SyncState.status_upserted .., SyncState.lastError_upserted ..⟩
  | ok records =>
    have hrecords := hkeys records rfl
    cases hparse : parseDesiredRecord record with
    | error e => simp only [RowObserved, Except.map, observation, hparse]
    | ok desired =>
      cases hactual : actualMap records desired.key with
      | none =>
        have hmissing : ∀ r ∈ records, r.key ≠ desired.key := by
          intro r hr hkey
          have hsome := (actualMap_eq_some_iff hrecords).mpr ⟨hr, hkey⟩
          rw [hactual] at hsome
          cases hsome
        simp only [Except.map, observation, hparse, hactual]
        exact rowObserved_of_missing hparse hmissing old (SyncState.status_upserted ..)
          (SyncState.lastObservedValue_upserted ..)
      | some actual =>
        obtain ⟨hmem, hkey⟩ := (actualMap_eq_some_iff hrecords).mp hactual
        obtain ⟨json, htext⟩ := hjson actual
        simp only [Except.map, observation, hparse, hactual, htext, Except.toOption]
        exact rowObserved_of_listed hparse hrecords hmem hkey htext old
          (SyncState.status_upserted ..) (SyncState.lastObservedValue_upserted ..)

omit [CryptoLib] [Chrono] in
/-- The verdict on a pair follows from the outcome for its binding, its record and the verdict
    before: no other binding or record has a part in it. -/
theorem verdict_observedRow {db db' : Database} {record : DesiredRecord}
    (hrecord : record ∈ db.desiredRecords) (hrecord' : record ∈ db'.desiredRecords)
    {fetched : Except String (RecordKey → Option ProviderRecord)} {bindingId now now' : String}
    {old old' : Option SyncState} (hold : old.map (·.verdict) = old'.map (·.verdict)) :
    (observedRow db fetched now (record.id, bindingId) old).map (·.verdict) =
      (observedRow db' fetched now' (record.id, bindingId) old').map (·.verdict) := by
  rw [observedRow_of_mem hrecord, observedRow_of_mem hrecord']
  cases observation fetched record with
  | none => exact hold
  | some o =>
    cases old with
    | none =>
      obtain rfl := Option.map_eq_none_iff.mp hold.symm
      rfl
    | some s =>
      cases old' with
      | none => cases hold
      | some s' =>
        -- an upsert over a row reads its status and its counter
        have hverdict : s.verdict = s'.verdict := Option.some.inj hold
        simp only [SyncState.verdict, Prod.mk.injEq] at hverdict
        obtain ⟨hstatus, -, -, hcount⟩ := hverdict
        simp only [Option.map_some, SyncState.upserted, Option.elim_some, SyncState.verdict,
          SyncState.onConflict, Observation.row, hstatus, hcount]

/-- Let an observe pass run while no database statement fails and every listing has distinct
    keys. Then the row of every live record under every active binding of its zone is as the
    outcome for that binding says, every other row is as before, and the verdict on a pair is
    the same in every other such pass in which its binding has the same outcome, its record is
    the same and the verdict before was the same. -/
theorem processObserveBatch_spec (hjson : ∀ r, ∃ text, SerdeJson.recordToString r = .ok text)
    {env : SyncEnv} (henv : env.Reliable)
    (hkeys : ∀ n binding creds records, env.listings n binding creds = .ok records →
      (records.map (·.key)).Nodup) (w : SyncWorld) :
    let after := worker.processObserveBatch.run (handleSync env) w
    after.1 = .ok () ∧
      (∀ binding ∈ w.db.bindings, binding.status = .active →
        ∀ record ∈ w.db.desiredRecords, record.zoneId = binding.zoneId → record.deletedAt = none →
          RowObserved (worker.outcome env w binding) record
            (w.db.syncStates.find? (record.id, binding.id))
            (after.2.db.syncStates.find? (record.id, binding.id))) ∧
      (∀ key, ¬ Watched w.db key →
        after.2.db.syncStates.find? key = w.db.syncStates.find? key) ∧
      ∀ (env' : SyncEnv) (w' : SyncWorld), env'.Reliable →
        ∀ binding ∈ w.db.activeList, binding ∈ w'.db.activeList →
        ∀ record ∈ w.db.desiredOf binding.id, record ∈ w'.db.desiredOf binding.id →
          worker.outcome env' w' binding = worker.outcome env w binding →
          (w'.db.syncStates.find? (record.id, binding.id)).map (·.verdict) =
            (w.db.syncStates.find? (record.id, binding.id)).map (·.verdict) →
          ((worker.processObserveBatch.run (handleSync env') w').2.db.syncStates.find?
              (record.id, binding.id)).map (·.verdict) =
            (after.2.db.syncStates.find? (record.id, binding.id)).map (·.verdict) := by
  intro after
  obtain ⟨hwritten, hframe⟩ := find?_processObserveBatch worker hjson henv w
  refine ⟨?_, fun binding hb hactive record hrecord hzone hlive => ?_, hframe, ?_⟩
  · rw [show after = _ from run_processObserveBatch worker henv w]
  · have hrow : record ∈ w.db.desiredOf binding.id :=
      (Database.mem_desiredOf hb).mpr ⟨hrecord, hzone, hlive⟩
    rw [hwritten binding (Database.mem_activeList.mpr ⟨hb, hactive⟩) record hrow,
      ReconcileWorker.turnEffect, fetched_eq_map]
    exact rowObserved_observedRow hjson (fun records hrecords =>
      nodup_of_listed worker hkeys hrecords) hrecord _ _ _
  · intro env' w' henv' binding hb hb' record hrecord hrecord' houtcome hold
    obtain ⟨hwritten', -⟩ := find?_processObserveBatch worker hjson henv' w'
    have hfetched : worker.fetched env' (worker.worldAt env' w' binding).listings binding =
        worker.fetched env (worker.worldAt env w binding).listings binding := by
      rw [fetched_eq_map, fetched_eq_map]
      exact congrArg (Except.map actualMap) houtcome
    rw [hwritten binding hb record hrecord, hwritten' binding hb' record hrecord',
      ReconcileWorker.turnEffect, ReconcileWorker.turnEffect, hfetched]
    exact verdict_observedRow (Database.mem_desiredRecords_of_mem_desiredOf hrecord')
      (Database.mem_desiredRecords_of_mem_desiredOf hrecord) hold

end Worker

/-! ## One binding that fails and one that is listed -/

section Sample

open Sample

/-- The rows of `www`. -/
theorem processObserveBatch_spec_halfRefused :
    let after := (worker.processObserveBatch.run (handleSync halfRefused) { db := twoBindings }).2
    (∃ s, after.db.syncStates.find? ("r1", "b1") = some s ∧ s.status = .syncFailed ∧
        s.lastError = some "list_records failed: rate limit exceeded") ∧
      ∃ s, after.db.syncStates.find? ("r1", "b2") = some s ∧ s.status = .inSync := by
  have hkeys : ∀ n b creds records, halfRefused.listings n b creds = .ok records →
      (records.map (·.key)).Nodup := by
    intro n b creds records h
    simp only [halfRefused] at h
    split at h
    · cases h
    · cases h
      exact List.nodup_singleton _
  obtain ⟨-, hrows, -⟩ := processObserveBatch_spec worker (fun _ => ⟨_, rfl⟩)
    ⟨fun _ => rfl, fun _ => rfl⟩ hkeys { db := twoBindings }
  have hfailed := hrows (binding "b1" "Z1") (by simp [twoBindings, database, Table.mem_def]) rfl
    (desired "r1" "www") (by simp [twoBindings, database, Table.mem_def]) rfl rfl
  have hlisted := hrows (binding "b2" "Z2") (by simp [twoBindings, database, Table.mem_def]) rfl
    (desired "r1" "www") (by simp [twoBindings, database, Table.mem_def]) rfl rfl
  have hrefused : worker.outcome halfRefused { db := twoBindings } (binding "b1" "Z1") =
      .error "list_records failed: rate limit exceeded" := by decide +kernel
  have hshown : worker.outcome halfRefused { db := twoBindings } (binding "b2" "Z2") =
      .ok [www "192.0.2.1"] := by decide +kernel
  rw [hrefused] at hfailed
  rw [hshown] at hlisted
  obtain ⟨s, hs, hstatus, -⟩ := hlisted
  refine ⟨hfailed, s, hs, hstatus.mpr ⟨www "192.0.2.1", List.mem_cons_self, ?_⟩⟩
  decide

end Sample

end DnsManager
