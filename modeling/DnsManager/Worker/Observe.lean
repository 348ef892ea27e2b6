import DnsManager.Worker.Apply
import DnsManager.Worker.SyncCommands

/-!
# The observe loop (`worker/src/lib.rs`)

For every active binding the worker lists the provider zone, compares it with the desired
records of the zone, and writes the outcome for each of them to `sync_states`.

`HashMap` values that are built once and then only looked up are functions.
-/

namespace DnsManager

open Prog (liftExcept)

section Records

variable [SerdeJson]

/-- `u32::try_from` -/
def u32TryFrom (n : Int64) : Except String UInt32 :=
  if 0 ≤ n.toInt ∧ n.toInt ≤ 4294967295 then .ok (UInt32.ofNat n.toInt.toNat)
  else .error "out of range integral type conversion attempted"

/-- `parse_desired_record` -/
def parseDesiredRecord (row : DesiredRecord) : Except String ProviderRecord := do
  let values ← (SerdeJson.stringsFromStr row.recordValues).mapError
    fun e => s!"record_values parse error for {row.id}: {e}"
  -- the serde name of a record type has to be quoted to be read
  let recordType ← (SerdeJson.recordTypeFromStr s!"\"{row.recordType}\"").mapError
    fun e => s!"record_type parse error '{row.recordType}': {e}"
  let ttl ← (u32TryFrom row.ttl).mapError fun e => s!"ttl conversion error for {row.id}: {e}"
  return { name := row.name, recordType, ttl, values }

end Records

/-- `upsert_sync_state` -/
def upsertSyncState (recordId bindingId : String)
    (lastObservedValue lastObservedAt : Option String) (status : SyncStatus)
    (lastError : Option String) (now : String) : SyncM Unit := do
  liftExcept (← SyncCmd.issue (.upsertSyncState
    { recordId, providerBindingId := bindingId, lastObservedValue, lastObservedAt, status,
      lastError, retryCount := 0, createdAt := now, updatedAt := now }))

/-- What `observe_one_binding` writes for a desired record when the provider fails. -/
def markSyncFailed (bindingId now providerErr : String) (row : DesiredRecord) : SyncM Unit :=
  upsertSyncState row.id bindingId none (some now) .syncFailed (some providerErr) now

/-- The map `fetch_actual_records` collects: of two records with the same key the later one
    is kept. -/
def actualMap (records : List ProviderRecord) (key : RecordKey) : Option ProviderRecord :=
  records.reverse.find? fun r => r.key = key

namespace ReconcileWorker

variable [CryptoLib] [SerdeJson] [UnicodeData] [Chrono] (worker : ReconcileWorker)

/-- `fetch_actual_records` -/
def fetchActualRecords (binding : ProviderBinding) : SyncM (RecordKey → Option ProviderRecord) := do
  if binding.providerType ∉ worker.adapters then
    .throw s!"no adapter registered for provider type '{binding.providerType}'"
  else
    let creds ← liftExcept
      (worker.decryptCredentials binding.credentialsBlob binding.credentialsDek)
    let records ← liftExcept ((← SyncCmd.issue (.listRecords binding creds)).mapError
      fun e => s!"list_records failed: {e.display}")
    pure (actualMap records)

/-- The part of `observe_one_binding` that compares one desired record. -/
def compareRecord (bindingId now : String) (actual : RecordKey → Option ProviderRecord)
    (row : DesiredRecord) : SyncM Unit := do
  match parseDesiredRecord row with
  -- a row that cannot be parsed is only logged: its state stays what it was
  | .error _ => pure ()
  | .ok desired =>
    match actual desired.key with
    | some actualRecord =>
      let observedJson ← liftExcept ((SerdeJson.recordToString actualRecord).mapError
        fun e => s!"actual record serialization failed: {e}")
      let status := if diff actualRecord desired then .drift else .inSync
      upsertSyncState row.id bindingId (some observedJson) (some now) status none now
    -- a record the provider does not have is drift, not a failure
    | none => upsertSyncState row.id bindingId none (some now) .drift none now

/-- `observe_one_binding` -/
def observeOneBinding (binding : ProviderBinding) : SyncM Unit := do
  let now := Chrono.toRfc3339 (← SyncCmd.issue .utcNow)
  let desiredRows ← liftExcept (← SyncCmd.issue (.selectDesired binding.id))
  -- without desired records the provider is not asked
  if desiredRows.isEmpty then pure ()
  else
    match ← ((worker.fetchActualRecords binding).attempt : SyncM (Except String _)) with
    | .error providerErr => forM desiredRows (markSyncFailed binding.id now providerErr)
    | .ok actual => forM desiredRows (compareRecord binding.id now actual)

/-- `process_observe_batch` -/
def processObserveBatch : SyncM Unit := do
  let bindings ← liftExcept (← SyncCmd.issue .selectActive)
  forM bindings fun binding => do
    let _ ← ((worker.observeOneBinding binding).attempt : SyncM (Except String Unit))
    pure ()

end ReconcileWorker

end DnsManager
