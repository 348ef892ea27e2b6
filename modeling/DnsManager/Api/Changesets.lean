import DnsManager.Api.Error
import DnsManager.Worker.Commands

/-!
# Change set handlers (`api/src/routes/changesets.rs`)

`createChangeset` works on the database in one transaction; the random id and the time are
arguments, and the response, which reads the new rows back, is left out.
`validateChangeset` is a program over the commands, since its transaction runs beside those
of other requests and of the workers.
-/

namespace DnsManager

open Prog (liftExcept)

section Create

variable [SerdeJson]

/-- `CreateChangesetItemRequest` -/
structure CreateChangesetItemRequest where
  recordId : String
  operation : String
  beforeValue : Option SerdeJson.Value
  afterValue : Option SerdeJson.Value

/-- `CreateChangesetRequest` -/
structure CreateChangesetRequest where
  description : Option String
  rollbackPolicy : String
  items : List CreateChangesetItemRequest

/-- `default_rollback_policy` -/
def defaultRollbackPolicy : String := "auto"

/-- The checks `create_changeset` makes of one item. -/
def validateItem (item : CreateChangesetItemRequest) : Except ApiError Unit :=
  if item.operation ∉ ["create", "update", "delete"] then
    .error (.unprocessableEntity
      s!"invalid operation '{item.operation}': must be one of create, update, delete")
  else if item.operation = "create" ∧ item.afterValue.isNone then
    .error (.unprocessableEntity "after_value is required for 'create' operation")
  else if item.operation = "delete" ∧ item.beforeValue.isNone then
    .error (.unprocessableEntity "before_value is required for 'delete' operation")
  else .ok ()

/-- `db_err` on a violated constraint -/
def dbErr {α : Type} (x : Except Violation α) : Except ApiError α :=
  x.mapError fun v => .internal v.display

/-- An optional JSON value written as text; `column` names it in the error. -/
def serializeValue (column : String) :
    Option SerdeJson.Value → Except ApiError (Option String)
  | none => .ok none
  | some value => ((SerdeJson.valueToString value).map some).mapError
      fun e => .internal s!"{column} serialization failed: {e}"

/-- The row of an item. -/
def itemRow (id : String) (item : CreateChangesetItemRequest) : Except ApiError ChangesetItem := do
  let beforeStr ← serializeValue "before_value" item.beforeValue
  let afterStr ← serializeValue "after_value" item.afterValue
  return { changesetId := id, recordId := item.recordId, operation := item.operation,
           beforeValue := beforeStr, afterValue := afterStr }

/-- The loop of `create_changeset` that inserts the items. -/
def insertItems (id : String) : Database → List CreateChangesetItemRequest →
    Except ApiError Database
  | db, [] => .ok db
  | db, item :: items => do
    -- a value is serialized when its item comes up, after the items before it are inserted
    let row ← itemRow id item
    let db ← dbErr (db.insertChangesetItem row)
    insertItems id db items

/-- `create_changeset`, with the id and the time it draws. -/
def createChangeset (db : Database) (id now : String) (body : CreateChangesetRequest) :
    Except ApiError Database := do
  if body.items.isEmpty then .error (.badRequest "items must not be empty")
  -- every item passes before the policy is looked at, and both before the transaction
  body.items.forM validateItem
  if body.rollbackPolicy ∉ ["auto", "manual", "frozen_on_failure"] then
    .error (.unprocessableEntity (s!"invalid rollback_policy '{body.rollbackPolicy}': " ++
      "must be one of auto, manual, frozen_on_failure"))
  let db ← dbErr (db.insertChangeset
    { id, createdBy := "anonymous", description := body.description, status := .draft,
      rollbackPolicy := body.rollbackPolicy, createdAt := now, updatedAt := now })
  insertItems id db body.items

end Create

/-! ## Validation -/

section Validate

variable [SerdeJson]

/-- An item of the response `Changeset`. -/
structure ChangesetItemView where
  recordId : String
  operation : String
  beforeValue : Option SerdeJson.Value
  afterValue : Option SerdeJson.Value

/-- `Changeset`, the response -/
structure ChangesetView where
  row : Changeset
  items : List ChangesetItemView

/-- A program of the API. -/
abbrev ApiM := Prog Cmd Cmd.Reply ApiError

/-- A statement whose error is mapped by `db_err`. -/
def dbResult {α : Type} (x : Except DbError α) : Except ApiError α := x.mapError .internal

/-- An optional JSON column parsed; `column` names it in the error. -/
def parseValue (column : String) : Option String → Except ApiError (Option SerdeJson.Value)
  | none => .ok none
  | some text => ((SerdeJson.valueFromStr text).map some).mapError
      fun e => .internal s!"item {column} parse error: {e}"

/-- One item of the response of `fetch_changeset`. -/
def itemView (row : ChangesetItem) : Except ApiError ChangesetItemView := do
  let beforeValue ← parseValue "before_value" row.beforeValue
  let afterValue ← parseValue "after_value" row.afterValue
  return { recordId := row.recordId, operation := row.operation, beforeValue, afterValue }

/-- `fetch_changeset` -/
def fetchChangeset (changesetId : String) : ApiM (Option ChangesetView) := do
  match ← liftExcept (dbResult (← issue (.selectChangeset changesetId))) with
  | none => pure none
  | some row =>
    let itemRows ← liftExcept (dbResult (← issue (.selectItemsByRecord changesetId)))
    let items ← liftExcept (itemRows.mapM itemView)
    pure (some { row, items })

/-- `validate_changeset` -/
def validateChangeset (changesetId : String) : ApiM ChangesetView := do
  let target := ChangeSetStatus.validated
  let (row, snapshot) ← liftExcept (dbResult (← issue (.txSelect changesetId)))
  match row with
  | none => .throw .notFound
  | some row =>
    match ChangeSetStatus.fromDb row.status.toDb with
    | none => .throw (.internal s!"unknown changeset status: {row.status.toDb}")
    | some current =>
      if current.canTransitionTo target = false then
        .throw (.badRequest s!"cannot transition from '{current.toDb}' to '{target.toDb}'")
      else
        -- the `UPDATE` names the id alone; the snapshot is what the transaction has read
        liftExcept (dbResult (← issue (.txUpdate changesetId target snapshot)))
        match ← fetchChangeset changesetId with
        | some changeset => pure changeset
        | none => .throw (.internal "changeset disappeared after update")

end Validate

end DnsManager
