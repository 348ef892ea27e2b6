import DnsManager.Worker.Commands

/-!
# The apply loop (`worker/src/lib.rs`)

The worker takes every validated change set, claims it by the transition to `applying`,
applies its items one after another on every active provider binding, and, when an item
fails soon enough under the policy `auto`, rolls the applied items back in reverse order.

`anyhow::Error` is its `Display` text. `tracing` calls are left out.
-/

namespace DnsManager

open Prog (liftExcept)

/-- A program of the worker. -/
abbrev WorkerM := Prog Cmd Cmd.Reply String

/-- `if let Err(e) = p.await { tracing::error!(…) }`: an error is only logged. -/
def logged {α : Type} (p : WorkerM α) : WorkerM Unit := do
  let _ ← (p.attempt : WorkerM (Except String α))
  pure ()

/-- `update_changeset_status` -/
def updateChangesetStatus (changesetId : String) (source target : ChangeSetStatus) :
    WorkerM Unit := do
  if source.canTransitionTo target = false then
    .throw s!"invalid state transition for {changesetId}: {source.toDb} → {target.toDb}"
  else
    -- the `WHERE` of the statement names the source status, so another writer in between
    -- shows as no row affected
    let affected ← liftExcept (← issue (.updateStatus changesetId source target))
    if affected = 0 then
      .throw (s!"changeset {changesetId} was not in expected status '{source.toDb}' " ++
        "(already processed?)")
    else pure ()

/-- `AppliedItemCtx`: what the rollback of an applied item needs. -/
structure AppliedItemCtx where
  zoneId : String
  operation : String
  beforeRecord : Option ProviderRecord
  afterRecord : Option ProviderRecord
deriving DecidableEq, Repr

/-- `ReconcileWorker`, less its database pool; the registered adapters are known by their
    provider type. -/
structure ReconcileWorker where
  adapters : List String
  keyProvider : KeyProvider

namespace ReconcileWorker

variable [CryptoLib] [SerdeJson] (worker : ReconcileWorker)

/-- `decrypt_credentials` -/
def decryptCredentials (credentialsBlob credentialsDek : String) : Except String Credentials := do
  let bytes ← (decrypt worker.keyProvider ⟨credentialsBlob, credentialsDek⟩).mapError
    fun e => s!"credential decryption failed: {e.display}"
  (SerdeJson.credentialsFromSlice bytes).mapError
    fun e => s!"credentials JSON parse failed: {e}"

/-- An optional JSON column read as a record; `column` names it in the error. -/
def parseRecord (column : String) : Option String → Except String (Option ProviderRecord)
  | none => .ok none
  | some text =>
    ((SerdeJson.recordFromStr text).map some).mapError fun e => s!"{column} parse error: {e}"

/-- `ok_or_else` -/
def okOrElse {α : Type} (x : Option α) (msg : String) : Except String α :=
  match x with
  | some a => .ok a
  | none => .error msg

/-- The body of the loop over the bindings in `apply_one_item`. -/
def applyToBinding (operation : String) (beforeRecord afterRecord : Option ProviderRecord)
    (binding : ProviderBinding) : WorkerM Unit := do
  -- the checks come per binding: the bindings before this one have been written
  if binding.providerType ∉ worker.adapters then
    .throw s!"no adapter registered for provider type '{binding.providerType}'"
  else
    let creds ← liftExcept
      (worker.decryptCredentials binding.credentialsBlob binding.credentialsDek)
    match operation with
    | "create" | "update" =>
      let record ← liftExcept (okOrElse afterRecord
        s!"after_value is required for '{operation}' operation")
      liftExcept ((← issue (.upsertRecord binding creds record)).mapError
        fun e => s!"upsert_record failed on '{binding.providerType}': {e.display}")
    | "delete" =>
      let record ← liftExcept (okOrElse beforeRecord
        "before_value is required for 'delete' operation")
      liftExcept ((← issue (.deleteRecord binding creds record.key)).mapError
        fun e => s!"delete_record failed on '{binding.providerType}': {e.display}")
    | op => .throw s!"unknown operation '{op}'"

/-- `apply_one_item` -/
def applyOneItem (item : ChangesetItem) : WorkerM AppliedItemCtx := do
  let row ← liftExcept (← issue (.selectZone item.recordId))
  let zoneId ← liftExcept (okOrElse row s!"desired_record '{item.recordId}' not found")
  -- both columns are parsed before any write, also the one the operation does not need
  let afterRecord ← liftExcept (parseRecord "after_value" item.afterValue)
  let beforeRecord ← liftExcept (parseRecord "before_value" item.beforeValue)
  let bindings ← liftExcept (← issue (.selectActiveBindings zoneId))
  if bindings.isEmpty then
    .throw s!"no active provider bindings for zone '{zoneId}'"
  else
    forM bindings (worker.applyToBinding item.operation beforeRecord afterRecord)
    pure { zoneId, operation := item.operation, beforeRecord, afterRecord }

/-- `apply_items`, from the list `applied` of the items applied so far. The error carries
    the items that were applied before the failing one. -/
def applyItems : (items : List ChangesetItem) → (applied : List AppliedItemCtx) →
    Prog Cmd Cmd.Reply (List AppliedItemCtx × String) (List AppliedItemCtx)
  | [], applied => pure applied
  | item :: items, applied => do
    match ← (worker.applyOneItem item).attempt with
    | .ok ctx => applyItems items (applied ++ [ctx])
    -- the failing item is not in the list, whatever it wrote before it failed
    | .error e => .throw (applied, e)

/-- The body of the loop over the bindings in `rollback_items`. -/
def rollbackOnBinding (ctx : AppliedItemCtx) (binding : ProviderBinding) : WorkerM Unit := do
  if binding.providerType ∉ worker.adapters then
    .throw s!"no adapter registered for provider type '{binding.providerType}' during rollback"
  else
    let creds ← liftExcept
      (worker.decryptCredentials binding.credentialsBlob binding.credentialsDek)
    match ctx.operation with
    | "create" =>
      match ctx.afterRecord with
      | some record =>
        liftExcept ((← issue (.deleteRecord binding creds record.key)).mapError
          fun e => s!"rollback delete failed on '{binding.providerType}': {e.display}")
      | none => pure ()
    -- an update may have no `before_value`: then nothing is written back, without an error
    | "update" | "delete" =>
      match ctx.beforeRecord with
      | some record =>
        liftExcept ((← issue (.upsertRecord binding creds record)).mapError
          fun e => s!"rollback upsert failed on '{binding.providerType}': {e.display}")
      | none => pure ()
    | _ => pure ()

/-- The body of the loop over the applied items in `rollback_items`. -/
def rollbackOneItem (ctx : AppliedItemCtx) : WorkerM Unit := do
  -- read again: not the list of bindings the item was applied on
  let bindings ← liftExcept (← issue (.selectActiveBindings ctx.zoneId))
  forM bindings (worker.rollbackOnBinding ctx)

/-- `rollback_items` -/
def rollbackItems (applied : List AppliedItemCtx) : WorkerM Unit :=
  forM applied.reverse worker.rollbackOneItem

/-- `Duration::from_secs(30)`, in nanoseconds. -/
def autoRollbackWindow : Nat := 30 * 1000000000

/-- The end of the `Err` arm of `apply_single_changeset`: roll back and record the outcome. -/
def rollBack (changesetId : String) (applied : List AppliedItemCtx) : WorkerM Unit := do
  match ← (worker.rollbackItems applied).attempt with
  | .ok _ => logged (updateChangesetStatus changesetId .rollingBack .rolledBack)
  | .error _ => logged (updateChangesetStatus changesetId .rollingBack .rollbackFailed)

/-- The `Err` arm of `apply_single_changeset`. -/
def applyFailed (changesetId rollbackPolicy : String) (start : Nat)
    (applied : List AppliedItemCtx) : WorkerM Unit := do
  let elapsed := (← issue .instant) - start
  let autoRollback := rollbackPolicy == "auto" && elapsed < autoRollbackWindow
  if !autoRollback then
    logged (updateChangesetStatus changesetId .applying .frozen)
  else
    match ← (updateChangesetStatus changesetId .applying .rollingBack).attempt with
    -- `return Ok(())`: without the transition nothing is undone
    | .error _ => pure ()
    | .ok _ => worker.rollBack changesetId applied

/-- `apply_single_changeset` -/
def applySingleChangeset (changesetId rollbackPolicy : String) : WorkerM Unit := do
  let start ← issue .instant
  updateChangesetStatus changesetId .validated .applying
  -- an error of this query, or a crash from here on, leaves the status `applying`
  let items ← liftExcept (← issue (.selectItems changesetId))
  match ← (worker.applyItems items []).attempt with
  | .ok _ => updateChangesetStatus changesetId .applying .applied
  | .error (applied, _) => worker.applyFailed changesetId rollbackPolicy start applied

/-- `process_apply_batch` -/
def processApplyBatch : WorkerM Unit := do
  let rows ← liftExcept (← issue .selectValidated)
  -- an error of one change set does not keep the others from their turn
  forM rows fun row => logged (worker.applySingleChangeset row.id row.rollbackPolicy)

end ReconcileWorker

end DnsManager
