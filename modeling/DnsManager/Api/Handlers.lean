import DnsManager.Api.System
import DnsManager.Worker.Retry

/-!
# The handlers as programs (`api/src/routes/`)

Every handler is a program over the commands of the process, one command for each statement, so
that it can run beside other requests and the worker. The random values and the time a handler
draws are arguments.
-/

namespace DnsManager

open Prog (liftExcept)

/-- `CreateZoneRequest` -/
structure CreateZoneRequest where
  name : String
  defaultTtl : Int
deriving DecidableEq, Repr

/-- The id and the time a handler draws. -/
structure Draws where
  id : String
  now : String
deriving DecidableEq, Repr

/-- `db_err` on a statement that answers rows -/
def dbQuery {α : Type} (x : Except DbError α) : Except ApiError α := x.mapError .internal

/-- `fetch_one`: `RowNotFound` is an error. -/
def fetchOne {α : Type} (x : Except DbError (Option α)) : Except ApiError α :=
  match x with
  | .ok (some row) => .ok row
  | .ok none => .error (.internal
      "no rows returned by a query that expected to return at least one row")
  | .error e => .error (.internal e)

/-- `map_err` of an `INSERT` that answers a violated unique constraint with `Conflict` -/
def conflictErr (x : Except StatementError Unit) : Except ApiError Unit :=
  match x with
  | .ok () => .ok ()
  | .error (.violation v) =>
    .error (if v.isUniqueViolation then .conflict else .internal v.display)
  | .error (.other e) => .error (.internal e)

/-- `map_err` of an `INSERT` whose errors are all internal -/
def insertErr (x : Except StatementError Unit) : Except ApiError Unit :=
  x.mapError fun e => .internal e.display

/-- The checks `create_zone` makes before it looks at the database; `len` counts bytes. -/
def validateZoneRequest (body : CreateZoneRequest) : Except ApiError Unit :=
  if (RustStr.trim body.name).isEmpty then
    .error (.unprocessableEntity "name must not be empty")
  else if 255 < body.name.utf8ByteSize then
    .error (.unprocessableEntity "name must be 255 characters or fewer")
  else .ok ()

/-- The checks `create_changeset` makes before its transaction. -/
def validateChangesetRequest [SerdeJson] (body : CreateChangesetRequest) : Except ApiError Unit := do
  if body.items.isEmpty then .error (.badRequest "items must not be empty")
  body.items.forM validateItem
  if body.rollbackPolicy ∉ ["auto", "manual", "frozen_on_failure"] then
    .error (.unprocessableEntity (s!"invalid rollback_policy '{body.rollbackPolicy}': " ++
      "must be one of auto, manual, frozen_on_failure"))
  else .ok ()

/-- The row `create_zone` inserts, which belongs to no team. -/
def zoneRow (draws : Draws) (body : CreateZoneRequest) : Zone where
  id := draws.id
  name := body.name
  defaultTtl := body.defaultTtl
  ownerTeamId := none
  createdAt := draws.now
  updatedAt := draws.now

/-- The row `create_changeset` inserts. -/
def changesetRow [SerdeJson] (draws : Draws) (body : CreateChangesetRequest) : Changeset where
  id := draws.id
  createdBy := "anonymous"
  description := body.description
  status := .draft
  rollbackPolicy := body.rollbackPolicy
  createdAt := draws.now
  updatedAt := draws.now

/-- The part of `AppState` that the handlers read beside the database. -/
structure AppState where
  keyProvider : KeyProvider
  registeredProviders : List String

namespace Handler

section Handlers

variable [SerdeJson]

/-- `list_zones` -/
def listZones : HandlerM (List Zone) := do
  liftExcept (dbQuery (← ApiCmd.selectZones.issue))

/-- `create_zone` -/
def createZone (draws : Draws) (body : CreateZoneRequest) : HandlerM Zone := do
  liftExcept (validateZoneRequest body)
  liftExcept (conflictErr (← (ApiCmd.insertZone (zoneRow draws body)).issue))
  liftExcept (fetchOne (← (ApiCmd.selectZone draws.id).issue))

/-- The existence check of a zone. -/
def requireZone (zoneId : String) : HandlerM Unit := do
  let zoneCount ← liftExcept (dbQuery (← (ApiCmd.countZones zoneId).issue))
  if zoneCount = 0 then .throw .notFound else pure ()

/-- `list_records` -/
def listRecords (zoneId : String) : HandlerM (List RecordView) := do
  requireZone zoneId
  let rows ← liftExcept (dbQuery (← (ApiCmd.selectRecords zoneId).issue))
  liftExcept (rows.mapM intoRecord)

/-- `create_record` -/
def createRecord [Sha256] (draws : Draws) (zoneId : String) (body : CreateRecordRequest) :
    HandlerM RecordView := do
  liftExcept (validateRecordRequest body)
  requireZone zoneId
  let row ← liftExcept (recordRow zoneId draws.id draws.now body)
  liftExcept (conflictErr (← (ApiCmd.insertRecord row).issue))
  let row ← liftExcept (fetchOne (← (ApiCmd.selectRecord draws.id).issue))
  liftExcept (intoRecord row)

/-- `create_provider` -/
def createProvider [CryptoLib] (state : AppState) (draws : ProviderDraws)
    (body : CreateProviderRequest) : HandlerM ProviderBindingView := do
  liftExcept (validateProviderRequest state.registeredProviders body)
  requireZone body.zoneId
  let row ← liftExcept (bindingRow state.keyProvider draws body)
  liftExcept (insertErr (← (ApiCmd.insertBinding row).issue))
  liftExcept (fetchOne (← (ApiCmd.selectBinding draws.id).issue))

/-- `get_sync_state` -/
def getSyncState (providerId : String) : HandlerM (List SyncState) := do
  let bindingCount ← liftExcept (dbQuery (← (ApiCmd.countBindings providerId).issue))
  if bindingCount = 0 then .throw .notFound
  else liftExcept (dbQuery (← (ApiCmd.selectSyncStates providerId).issue))

/-- `create_changeset` -/
def createChangeset (draws : Draws) (body : CreateChangesetRequest) : HandlerM ChangesetView := do
  liftExcept (validateChangesetRequest body)
  liftExcept (← (ApiCmd.txCreateChangeset (changesetRow draws body) body.items).issue)
  match ← (fetchChangeset draws.id).embed applyCommands with
  | some changeset => pure changeset
  | none => .throw (.internal "changeset disappeared after insert")

/-- `get_changeset` -/
def getChangeset (changesetId : String) : HandlerM ChangesetView := do
  match ← (fetchChangeset changesetId).embed applyCommands with
  | some changeset => pure changeset
  | none => .throw .notFound

/-- `validate_changeset` -/
def validateChangeset (changesetId : String) : HandlerM ChangesetView :=
  (DnsManager.validateChangeset changesetId).embed applyCommands

end Handlers

end Handler

end DnsManager
