import DnsManager.Api.Response

/-!
# What the handlers ask of the database (`api/src/routes/`)

One command for each database statement of the handlers that create and list, and one that
answers the request. `handleApi` executes a command on a `World`, beside the commands of the
apply loop. The transaction of `create_changeset` is one command: its first `INSERT` takes the
only write lock and `COMMIT` gives it back, so no write of another party comes in between, and
no other party sees its rows before.
-/

namespace DnsManager

/-- The error of a write statement: `is_unique_violation` and its like can be asked of a
    violated constraint, any other failure is only shown. -/
inductive StatementError where
  | violation (v : Violation)
  | other (e : DbError)
deriving DecidableEq, Repr

/-- The `Display` text of the error. -/
def StatementError.display : StatementError → DbError
  | violation v => v.display
  | other e => e

variable [SerdeJson]

/-- The database statements of the handlers, and the response. -/
inductive ApiCmd where
  /-- `SELECT … FROM zones ORDER BY name` -/
  | selectZones
  /-- `INSERT INTO zones` -/
  | insertZone (row : Zone)
  /-- `SELECT … FROM zones WHERE id = ?` -/
  | selectZone (id : String)
  /-- `SELECT COUNT(*) FROM zones WHERE id = ?` -/
  | countZones (id : String)
  /-- `SELECT … FROM desired_records WHERE zone_id = ? AND deleted_at IS NULL
      ORDER BY name, record_type` -/
  | selectRecords (zoneId : String)
  /-- `INSERT INTO desired_records` -/
  | insertRecord (row : DesiredRecord)
  /-- `SELECT … FROM desired_records WHERE id = ?` -/
  | selectRecord (id : String)
  /-- `INSERT INTO provider_bindings` -/
  | insertBinding (row : ProviderBinding)
  /-- `SELECT … FROM provider_bindings WHERE id = ?`, without the credentials -/
  | selectBinding (id : String)
  /-- `SELECT COUNT(*) FROM provider_bindings WHERE id = ?` -/
  | countBindings (id : String)
  /-- `SELECT … FROM sync_states WHERE provider_binding_id = ? ORDER BY record_id` -/
  | selectSyncStates (bindingId : String)
  /-- `BEGIN; INSERT INTO changesets; INSERT INTO changeset_items; …; COMMIT` -/
  | txCreateChangeset (row : Changeset) (items : List CreateChangesetItemRequest)
  /-- The response is sent. -/
  | respond (response : Response)

/-- What a command is answered with. -/
@[reducible] def ApiCmd.Reply : ApiCmd → Type
  | selectZones => Except DbError (List Zone)
  | insertZone _ => Except StatementError Unit
  | selectZone _ => Except DbError (Option Zone)
  | countZones _ => Except DbError Nat
  | selectRecords _ => Except DbError (List DesiredRecord)
  | insertRecord _ => Except StatementError Unit
  | selectRecord _ => Except DbError (Option DesiredRecord)
  | insertBinding _ => Except StatementError Unit
  | selectBinding _ => Except DbError (Option ProviderBindingView)
  | countBindings _ => Except DbError Nat
  | selectSyncStates _ => Except DbError (List SyncState)
  | txCreateChangeset .. => Except ApiError Unit
  | respond _ => Unit

omit [SerdeJson] in
/-- A write statement; one that fails or violates a constraint changes nothing. -/
def World.write (env : Env) (w : World) (statement : Database → Except Violation Database) :
    Except StatementError Unit × World :=
  match env.writes w.writes with
  | some e => (.error (.other e), { w with writes := w.writes + 1 })
  | none =>
    match statement w.db with
    | .error v => (.error (.violation v), { w with writes := w.writes + 1 })
    | .ok db => (.ok (), w.commit db)

/-- The statements of the transaction of `create_changeset`. -/
def insertWithItems (db : Database) (row : Changeset) (items : List CreateChangesetItemRequest) :
    Except ApiError Database := do
  let db ← dbErr (db.insertChangeset row)
  insertItems row.id db items

/-- The transaction of `create_changeset`: an error of a statement rolls it back. -/
def World.createChangeset (env : Env) (w : World) (row : Changeset)
    (items : List CreateChangesetItemRequest) : Except ApiError Unit × World :=
  match env.writes w.writes with
  | some e => (.error (.internal e), { w with writes := w.writes + 1 })
  | none =>
    match insertWithItems w.db row items with
    | .error e => (.error e, { w with writes := w.writes + 1 })
    | .ok db => (.ok (), w.commit db)

/-- Execute a command. -/
def handleApi (env : Env) : (c : ApiCmd) → World → c.Reply × World
  | .selectZones, w => w.query env fun db =>
    db.zones.rows.insertionSort fun x y => x.name ≤ y.name
  | .insertZone row, w => w.write env (·.insertZone row)
  | .selectZone id, w => w.query env (·.zones.find? id)
  | .countZones id, w => w.query env fun db => (db.zones.select fun z => z.id == id).length
  | .selectRecords zoneId, w => w.query env fun db =>
    (db.desiredRecords.select fun r => r.zoneId == zoneId && r.deletedAt.isNone).insertionSort
      fun x y => x.name < y.name ∨ x.name = y.name ∧ x.recordType ≤ y.recordType
  | .insertRecord row, w => w.write env (·.insertRecord row)
  | .selectRecord id, w => w.query env (·.desiredRecords.find? id)
  | .insertBinding row, w => w.write env (·.insertBinding row)
  | .selectBinding id, w => w.query env fun db => (db.bindings.find? id).map .ofRow
  | .countBindings id, w => w.query env fun db => (db.bindings.select fun b => b.id == id).length
  | .selectSyncStates bindingId, w => w.query env fun db =>
    (db.syncStates.select fun s => s.providerBindingId == bindingId).insertionSort
      fun x y => x.recordId ≤ y.recordId
  | .txCreateChangeset row items, w => w.createChangeset env row items
  | .respond _, w => ((), w)

end DnsManager
