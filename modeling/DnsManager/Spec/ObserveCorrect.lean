import DnsManager.Worker.Observe

/-!
# What an observe pass writes

`observe_one_binding` writes one sync state for every desired record of the binding's zone
that it can compare, and touches no other.

## Key results
- `run_observeOneBinding`: when no statement fails, the pass leaves under every key of
  `sync_states` what `observation` says of the record, or what was there.
-/

namespace DnsManager

open Prog (liftExcept)

/-- No database statement fails. -/
structure SyncEnv.Reliable (env : SyncEnv) : Prop where
  queries : ∀ n, env.queries n = none
  writes : ∀ n, env.writes n = none

/-- What a pass has found out about one desired record. -/
structure Observation where
  value : Option String
  status : SyncStatus
  error : Option String
deriving DecidableEq, Repr

/-- The row that is upserted for an observation. -/
def Observation.row (o : Observation) (recordId bindingId now : String) : SyncState where
  recordId
  providerBindingId := bindingId
  lastObservedValue := o.value
  lastObservedAt := some now
  status := o.status
  lastError := o.error
  retryCount := 0
  createdAt := now
  updatedAt := now

/-- What an upsert of the row leaves, given what was there under its key. -/
def SyncState.upserted (row : SyncState) (old : Option SyncState) : SyncState :=
  old.elim row row.onConflict

@[simp] theorem SyncState.status_upserted (row : SyncState) (old : Option SyncState) :
    (row.upserted old).status = row.status := by
  cases old <;> rfl

@[simp] theorem SyncState.lastObservedAt_upserted (row : SyncState) (old : Option SyncState) :
    (row.upserted old).lastObservedAt = row.lastObservedAt := by
  cases old <;> rfl

@[simp] theorem SyncState.lastObservedValue_upserted (row : SyncState) (old : Option SyncState) :
    (row.upserted old).lastObservedValue = row.lastObservedValue := by
  cases old <;> rfl

@[simp] theorem SyncState.lastError_upserted (row : SyncState) (old : Option SyncState) :
    (row.upserted old).lastError = row.lastError := by
  cases old <;> rfl

/-! ## Commands -/

@[simp] theorem run_syncIssue (env : SyncEnv) (c : SyncCmd) (w : SyncWorld) :
    @Prog.run SyncCmd SyncCmd.Reply String SyncWorld (no_index c.Reply) (handleSync env) c.issue w =
      (.ok (handleSync env c w).1, (handleSync env c w).2) := rfl

/-- A query that does not fail. -/
theorem SyncEnv.Reliable.query {env : SyncEnv} (h : env.Reliable) {α : Type} (w : SyncWorld)
    (answer : Database → α) :
    w.query env answer = (.ok (answer w.db), { w with queries := w.queries + 1 }) := by
  simp only [SyncWorld.query, h.queries]

/-- The world after an upsert that did not fail. -/
def SyncWorld.wrote (w : SyncWorld) (db : Database) : SyncWorld :=
  { w with db, writes := w.writes + 1 }

/-- `upsert_sync_state` of an existing record and binding. -/
theorem run_upsertSyncState {env : SyncEnv} (h : env.Reliable) {w : SyncWorld} {db' : Database}
    {o : Observation} {recordId bindingId now : String}
    (hdb : w.db.upsertSyncState (o.row recordId bindingId now) = .ok db') :
    (upsertSyncState recordId bindingId o.value (some now) o.status o.error now).run
      (handleSync env) w = (.ok (), w.wrote db') := by
  have hwrite : w.write env (·.upsertSyncState (o.row recordId bindingId now)) =
      (.ok (), w.wrote db') := by
    simp only [SyncWorld.write, h.writes, hdb, SyncWorld.wrote]
  simp only [upsertSyncState, Prog.run_bind, run_syncIssue, Prog.run_liftExcept]
  exact hwrite

/-! ## A loop over the desired records -/

/-- What a loop over some desired records has left, when it writes `observe row` for each:
    the rows of these records, and nothing else. -/
structure Observed (w w' : SyncWorld) (rows : List DesiredRecord) (bindingId now : String)
    (observe : DesiredRecord → Option Observation) : Prop where
  bindings : w'.db.bindings = w.db.bindings
  desiredRecords : w'.db.desiredRecords = w.db.desiredRecords
  written : ∀ row ∈ rows, w'.db.syncStates.find? (row.id, bindingId) =
    match observe row with
    | some o =>
      some ((o.row row.id bindingId now).upserted (w.db.syncStates.find? (row.id, bindingId)))
    | none => w.db.syncStates.find? (row.id, bindingId)
  frame : ∀ key, (∀ row ∈ rows, key ≠ (row.id, bindingId)) →
    w'.db.syncStates.find? key = w.db.syncStates.find? key

/-- A loop body that writes `observe row` or nothing. -/
def Observes (env : SyncEnv) (bindingId now : String) (observe : DesiredRecord → Option Observation)
    (body : DesiredRecord → SyncM Unit) : Prop :=
  ∀ (row : DesiredRecord) (w : SyncWorld), (body row).run (handleSync env) w =
    match observe row with
    | some o => (upsertSyncState row.id bindingId o.value (some now) o.status o.error now).run
        (handleSync env) w
    | none => (.ok (), w)

/-- One round of the loop. -/
theorem Observes.run_one {env : SyncEnv} (h : env.Reliable) {bindingId now : String}
    {observe : DesiredRecord → Option Observation} {body : DesiredRecord → SyncM Unit}
    (hbody : Observes env bindingId now observe body) {w : SyncWorld} {row : DesiredRecord}
    (hrow : row.id ∈ w.db.desiredRecords.keys) (hb : bindingId ∈ w.db.bindings.keys) :
    ∃ w', (body row).run (handleSync env) w = (.ok (), w') ∧
      Observed w w' [row] bindingId now observe := by
  have hrun := hbody row w
  cases ho : observe row with
  | none =>
    simp only [ho] at hrun
    refine ⟨w, hrun, rfl, rfl, fun r hr => ?_, fun _ _ => rfl⟩
    rw [List.mem_singleton.mp hr, ho]
  | some o =>
    simp only [ho] at hrun
    -- both foreign keys hold, so the statement writes the one row
    obtain ⟨db', hdb⟩ := Database.upsertSyncState_ok (o.row row.id bindingId now) hrow hb
    obtain ⟨hbindings, hdesired⟩ := Database.upsertSyncState_frame hdb
    refine ⟨w.wrote db', hrun.trans (run_upsertSyncState h hdb), hbindings, hdesired, ?_, ?_⟩
    · intro r hr
      rw [List.mem_singleton.mp hr, ho]
      exact (Database.find?_upsertSyncState hdb _).trans (if_pos rfl)
    · intro key hkey
      exact (Database.find?_upsertSyncState hdb _).trans
        (if_neg fun heq => hkey row List.mem_cons_self heq.symm)

/-- The loop writes what its body observes, once for each record. -/
theorem Observes.run_forM {env : SyncEnv} (h : env.Reliable) {bindingId now : String}
    {observe : DesiredRecord → Option Observation} {body : DesiredRecord → SyncM Unit}
    (hbody : Observes env bindingId now observe body) {rows : List DesiredRecord} {w : SyncWorld}
    (hnodup : (rows.map (·.id)).Nodup) (hrows : ∀ row ∈ rows, row.id ∈ w.db.desiredRecords.keys)
    (hb : bindingId ∈ w.db.bindings.keys) :
    ∃ w', (forM rows body).run (handleSync env) w = (.ok (), w') ∧
      Observed w w' rows bindingId now observe := by
  induction rows generalizing w with
  | nil => exact ⟨w, rfl, rfl, rfl, fun _ hr => (nomatch hr), fun _ _ => rfl⟩
  | cons row rows ih =>
    obtain ⟨hnot, hnodup⟩ := List.nodup_cons.mp hnodup
    obtain ⟨w₁, hrun₁, hone⟩ := hbody.run_one h (hrows row List.mem_cons_self) hb
    obtain ⟨w₂, hrun₂, hrest⟩ := ih (w := w₁) hnodup
      (fun r hr => by rw [hone.desiredRecords]; exact hrows r (List.mem_cons_of_mem _ hr))
      (by rw [hone.bindings]; exact hb)
    have hother : ∀ r ∈ rows, ∀ r' ∈ [row], (r.id, bindingId) ≠ (r'.id, bindingId) := by
      intro r hr r' hr' heq
      rw [List.mem_singleton.mp hr'] at heq
      exact hnot (List.mem_map.mpr ⟨r, hr, (Prod.mk.inj heq).1⟩)
    refine ⟨w₂, ?_, hrest.bindings.trans hone.bindings,
      hrest.desiredRecords.trans hone.desiredRecords, ?_, ?_⟩
    · simp only [List.forM_cons, Prog.run_bind, hrun₁, hrun₂]
    · intro r hr
      rcases List.mem_cons.mp hr with rfl | hr
      · -- the later rounds leave the row of this record alone
        rw [hrest.frame _ fun r' hr' heq => hother r' hr' r List.mem_cons_self heq.symm]
        exact hone.written r List.mem_cons_self
      · rw [hrest.written r hr, hone.frame _ (hother r hr)]
    · intro key hkey
      rw [hrest.frame key fun r hr => hkey r (List.mem_cons_of_mem _ hr)]
      exact hone.frame key fun r hr => by
        rw [List.mem_singleton.mp hr]
        exact hkey row List.mem_cons_self

/-! ## The pass -/

section Worker

variable [CryptoLib] [SerdeJson] [UnicodeData] [Chrono] (worker : ReconcileWorker)

/-- What `fetch_actual_records` returns when its listing is the `n`-th one. -/
def ReconcileWorker.fetched (env : SyncEnv) (n : Nat) (binding : ProviderBinding) :
    Except String (RecordKey → Option ProviderRecord) :=
  if binding.providerType ∉ worker.adapters then
    .error s!"no adapter registered for provider type '{binding.providerType}'"
  else do
    let creds ← worker.decryptCredentials binding.credentialsBlob binding.credentialsDek
    let records ← (env.listings n binding creds).mapError
      fun e => s!"list_records failed: {e.display}"
    return actualMap records

/-- The fetch comes to make a listing: there is an adapter and the credentials decrypt. -/
def ReconcileWorker.lists (binding : ProviderBinding) : Bool :=
  decide (binding.providerType ∈ worker.adapters) &&
    (worker.decryptCredentials binding.credentialsBlob binding.credentialsDek).isOk

omit [UnicodeData] [Chrono] in
/-- The fetch returns this, makes its listing and changes nothing else. -/
theorem run_fetchActualRecords (env : SyncEnv) (binding : ProviderBinding) (w : SyncWorld) :
    (worker.fetchActualRecords binding).run (handleSync env) w =
      (worker.fetched env w.listings binding,
        { w with listings := w.listings + (worker.lists binding).toNat }) := by
  unfold ReconcileWorker.fetchActualRecords ReconcileWorker.fetched ReconcileWorker.lists
  split
  · next hadapter =>
    rw [decide_eq_false hadapter]
    rfl
  · next hadapter =>
    rw [decide_eq_true (not_not.mp hadapter)]
    cases worker.decryptCredentials binding.credentialsBlob binding.credentialsDek with
    | error e => rfl
    | ok creds =>
      simp only [Prog.run_bind, Prog.run_liftExcept, run_syncIssue, handleSync]
      change _ = (((env.listings w.listings binding creds).mapError _).bind _, _)
      cases env.listings w.listings binding creds <;> rfl

/-- What the pass finds out about a desired record; nothing, if the row does not parse. -/
def observation (fetched : Except String (RecordKey → Option ProviderRecord))
    (row : DesiredRecord) : Option Observation :=
  match fetched with
  | .error e => some ⟨none, .syncFailed, some e⟩
  | .ok actual =>
    match parseDesiredRecord row with
    | .error _ => none
    | .ok desired =>
      match actual desired.key with
      | none => some ⟨none, .drift, none⟩
      | some r => some
        ⟨(SerdeJson.recordToString r).toOption, if diff r desired then .drift else .inSync, none⟩

omit [CryptoLib] [SerdeJson] [UnicodeData] [Chrono] in
/-- When the fetch fails, every record is marked. -/
theorem observes_markSyncFailed [SerdeJson] [UnicodeData] (env : SyncEnv)
    (bindingId now e : String) :
    Observes env bindingId now (observation (.error e)) (markSyncFailed bindingId now e) :=
  fun _ _ => rfl

omit [CryptoLib] [Chrono] in
/-- Otherwise every record is compared. -/
theorem observes_compareRecord (hjson : ∀ r, ∃ text, SerdeJson.recordToString r = .ok text)
    (env : SyncEnv) (bindingId now : String) (actual : RecordKey → Option ProviderRecord) :
    Observes env bindingId now (observation (.ok actual))
      (ReconcileWorker.compareRecord bindingId now actual) := by
  intro row w
  unfold ReconcileWorker.compareRecord observation
  cases parseDesiredRecord row with
  | error e => rfl
  | ok desired =>
    cases hactual : actual desired.key with
    | none => simp only [hactual]
    | some r =>
      obtain ⟨text, htext⟩ := hjson r
      simp only [hactual, htext]
      rfl

/-- When no statement fails, an observe pass over a binding writes its observation of every
    desired record of the zone, and changes no other sync state. -/
theorem run_observeOneBinding (hjson : ∀ r, ∃ text, SerdeJson.recordToString r = .ok text)
    {env : SyncEnv} (h : env.Reliable) {w : SyncWorld} {binding : ProviderBinding}
    (hb : binding ∈ w.db.bindings) :
    ∃ w', (worker.observeOneBinding binding).run (handleSync env) w = (.ok (), w') ∧
      Observed w w' (w.db.desiredOf binding.id) binding.id
        (Chrono.toRfc3339 (env.now w.readings))
        (observation (worker.fetched env w.listings binding)) := by
  have hrows : ∀ row ∈ w.db.desiredOf binding.id, row.id ∈ w.db.desiredRecords.keys :=
    fun row hr => Table.mem_keys.mpr ⟨row, ((Database.mem_desiredOf hb).mp hr).1, rfl⟩
  have hnodup : ((w.db.desiredOf binding.id).map (·.id)).Nodup := by
    unfold Database.desiredOf
    rw [Table.find?_eq_some.mpr ⟨hb, rfl⟩]
    exact w.db.desiredRecords.nodup_select _
  have hbinding : binding.id ∈ w.db.bindings.keys := Table.mem_keys.mpr ⟨binding, hb, rfl⟩
  unfold ReconcileWorker.observeOneBinding
  simp only [Prog.run_bind, run_syncIssue, handleSync, h.query, Prog.run_liftExcept]
  split
  · next hempty =>
    -- nothing is desired: the pass returns without a listing
    refine ⟨_, rfl, rfl, rfl, fun row hr => ?_, fun _ _ => rfl⟩
    rw [List.isEmpty_iff.mp hempty] at hr
    cases hr
  · simp only [Prog.run_bind, Prog.run_attempt, run_fetchActualRecords]
    cases worker.fetched env w.listings binding with
    | error e =>
      obtain ⟨w', hrun, hobs⟩ := (observes_markSyncFailed env binding.id _ e).run_forM h
        (w := { w with
          readings := w.readings + 1
          queries := w.queries + 1
          listings := w.listings + (worker.lists binding).toNat })
        hnodup hrows hbinding
      exact ⟨w', hrun, hobs.bindings, hobs.desiredRecords, hobs.written, hobs.frame⟩
    | ok actual =>
      obtain ⟨w', hrun, hobs⟩ := (observes_compareRecord hjson env binding.id _ actual).run_forM h
        (w := { w with
          readings := w.readings + 1
          queries := w.queries + 1
          listings := w.listings + (worker.lists binding).toNat })
        hnodup hrows hbinding
      exact ⟨w', hrun, hobs.bindings, hobs.desiredRecords, hobs.written, hobs.frame⟩

end Worker

end DnsManager
