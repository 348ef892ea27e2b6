import DnsManager.ForStd.Panic
import DnsManager.Worker.Observe
import Mathlib.Data.List.Dedup

/-!
# The retry loop (`worker/src/lib.rs`)

The sync states that are `sync_failed`, and whose backoff has elapsed, are grouped by binding;
each binding is listed once and the result is written for all of its entries.

The groups are a `HashMap`, which is iterated in no particular order: the order is an argument,
a `HashOrder`.

Where the fetch fails, `retry_one_binding` adds one to the counter of each entry. The sum is only
logged, and it is left out of `retryOneBinding`; `retryOneBindingOrPanic` has it, with what the
addition does beyond i64.
-/

namespace DnsManager

open Prog (CallReply invoke lift liftExcept)

/-- `backoff_secs` -/
def backoffSecs (retryCount : Int) : Nat :=
  let shift := (min (max retryCount 0) 63).toNat
  min (2 ^ shift) 3600

/-- `should_retry`; `num_seconds` drops the fraction of a second. -/
def shouldRetry [Chrono] (entry : SyncStateFailedRow) (now : Int) : Bool :=
  match entry.lastObservedAt with
  -- never observed
  | none => true
  | some text =>
    match Chrono.parseFromRfc3339 text with
    | none => true
    | some lastAt => decide ((backoffSecs entry.retryCount : Int) ≤ (now - lastAt).tdiv 1000000000)

/-- The order in which a `HashMap` shows its keys. -/
structure HashOrder where
  order : List String → List String
  perm : ∀ keys, (order keys).Perm keys

namespace ReconcileWorker

variable [CryptoLib] [SerdeJson] [UnicodeData] [Chrono] (worker : ReconcileWorker)

/-- `retry_resolve_entry` -/
def retryResolveEntry (bindingId now : String) (actual : RecordKey → Option ProviderRecord)
    (entry : SyncStateFailedRow) : SyncM Unit := do
  let row ← match ← liftExcept (← SyncCmd.issue (.selectRecord entry.recordId)) with
    | some row => (pure row : SyncM DesiredRecord)
    | none => .throw s!"desired_record '{entry.recordId}' not found"
  let desired ← liftExcept (parseDesiredRecord row)
  match actual desired.key with
  | some actualRecord =>
    let json ← liftExcept ((SerdeJson.recordToString actualRecord).mapError
      fun e => s!"actual record serialization failed: {e}")
    let status := if diff actualRecord desired then .drift else .inSync
    upsertSyncState entry.recordId bindingId (some json) (some now) status none now
  | none => upsertSyncState entry.recordId bindingId none (some now) .drift none now

/-- `retry_one_binding` -/
def retryOneBinding (bindingId : String) (entries : List SyncStateFailedRow) : SyncM Unit := do
  let now := Chrono.toRfc3339 (← SyncCmd.issue .utcNow)
  let binding ← match ← liftExcept (← SyncCmd.issue (.selectBinding bindingId)) with
    | some binding => (pure binding : SyncM ProviderBinding)
    | none => .throw s!"provider_binding '{bindingId}' not found"
  match ← ((worker.fetchActualRecords binding).attempt : SyncM (Except String _)) with
  | .ok actual => forM entries fun entry => do
    let _ ← ((retryResolveEntry binding.id now actual entry).attempt : SyncM (Except String Unit))
    pure ()
  | .error providerErr => forM entries fun entry => do
    let _ ← ((upsertSyncState entry.recordId bindingId none (some now) .syncFailed
      (some providerErr) now).attempt : SyncM (Except String Unit))
    pure ()

/-- `process_retry_batch` -/
def processRetryBatch (hash : HashOrder) : SyncM Unit := do
  let rows ← liftExcept (← SyncCmd.issue .selectFailed)
  if rows.isEmpty then pure ()
  else
    let now ← SyncCmd.issue .utcNow
    let due := rows.filter (shouldRetry · now)
    forM (hash.order (due.map (·.providerBindingId)).dedup) fun bindingId => do
      let _ ← ((worker.retryOneBinding bindingId
        (due.filter fun row => row.providerBindingId = bindingId)).attempt :
          SyncM (Except String Unit))
      pure ()

end ReconcileWorker

/-! ## The counters of the entries -/

/-- The numbers of type i64. -/
def InI64 (n : Int) : Prop := -9223372036854775808 ≤ n ∧ n ≤ 9223372036854775807

instance (n : Int) : Decidable (InI64 n) := inferInstanceAs (Decidable (_ ∧ _))

/-- A synchronisation program that calls `fetch_actual_records`. -/
abbrev FetchProg :=
  Prog (SyncCmd ⊕ ProviderBinding)
    (CallReply SyncCmd.Reply String (RecordKey → Option ProviderRecord))

/-- `entry.retry_count + 1` on i64. Where the sum is none, a build with overflow checks panics and
    another one wraps. -/
def nextCount {ε : Type} (overflowChecks : Bool) (retryCount : Int) : FetchProg (Stop ε) Int :=
  if InI64 (retryCount + 1) then pure (retryCount + 1)
  else if overflowChecks then .throw .panic
  else pure ((retryCount + 1).bmod (2 ^ 64))

section OrPanic

variable [SerdeJson] [UnicodeData] [Chrono]

/-- `retry_one_binding`, with the counters of its entries. -/
def retryOneBindingOrPanic (overflowChecks : Bool) (bindingId : String)
    (entries : List SyncStateFailedRow) : FetchProg (Stop String) Unit := do
  let now := Chrono.toRfc3339 (← (lift (SyncCmd.issue .utcNow)).noPanic)
  let found ← (liftExcept (← (lift (SyncCmd.issue (.selectBinding bindingId))).noPanic)).noPanic
  let binding ← match found with
    | some binding => (pure binding : FetchProg (Stop String) ProviderBinding)
    | none => .throw (.error s!"provider_binding '{bindingId}' not found")
  match ← invoke binding with
  | .ok actual =>
    forM entries fun entry =>
      (lift (ReconcileWorker.retryResolveEntry binding.id now actual entry)).noPanic.turnOrPanic
  | .error providerErr =>
    forM entries fun entry => do
      -- only logged, with a warning above 10
      let _nextCount ← nextCount overflowChecks entry.retryCount
      (lift (upsertSyncState entry.recordId bindingId none (some now) .syncFailed
        (some providerErr) now)).noPanic.turnOrPanic

/-- `process_retry_batch`, with the counters of the entries. -/
def processRetryBatchOrPanic (overflowChecks : Bool) (hash : HashOrder) :
    FetchProg (Stop String) Unit := do
  let rows ← (liftExcept (← (lift (SyncCmd.issue .selectFailed)).noPanic)).noPanic
  if rows.isEmpty then pure ()
  else
    let now ← (lift (SyncCmd.issue .utcNow)).noPanic
    let due := rows.filter (shouldRetry · now)
    forM (hash.order (due.map (·.providerBindingId)).dedup) fun bindingId =>
      (retryOneBindingOrPanic overflowChecks bindingId
        (due.filter fun row => row.providerBindingId = bindingId)).turnOrPanic

end OrPanic

end DnsManager
