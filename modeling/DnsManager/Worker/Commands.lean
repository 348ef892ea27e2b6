import DnsManager.Core.Crypto
import DnsManager.Db.Schema
import DnsManager.ForStd.Prog
import DnsManager.ForStd.WriteLog

/-!
# What the change set programs ask of the world

The apply loop of the worker and the `validate` request of the API are programs over the
commands `Cmd`: one command for each database statement, provider call and clock reading
of the source. `handle` executes a command on a `World`, the database together with what
every provider zone holds.

A provider zone is the map from record keys to records that its binding (by its id) gives
access to: `upsert_record` sets the key of the record and `delete_record` removes a key.
Which statements and calls fail, and what the clocks show, is decided by an `Env`.
-/

namespace DnsManager

/-- The database statements, provider calls and clock readings. -/
inductive Cmd where
  /-- `Instant::now()` -/
  | instant
  /-- `SELECT id, rollback_policy FROM changesets WHERE status = 'validated' ORDER BY created_at` -/
  | selectValidated
  /-- `UPDATE changesets SET status = ?, updated_at = ? WHERE id = ? AND status = ?` -/
  | updateStatus (id : String) (source target : ChangeSetStatus)
  /-- `SELECT … FROM changeset_items WHERE changeset_id = ? ORDER BY rowid` -/
  | selectItems (changesetId : String)
  /-- `SELECT zone_id FROM desired_records WHERE id = ?` -/
  | selectZone (recordId : String)
  /-- `SELECT … FROM provider_bindings WHERE zone_id = ? AND status = 'active'` -/
  | selectActiveBindings (zoneId : String)
  /-- `adapter.upsert_record(creds, provider_zone_id, record)` -/
  | upsertRecord (binding : ProviderBinding) (creds : Credentials) (record : ProviderRecord)
  /-- `adapter.delete_record(creds, provider_zone_id, key)` -/
  | deleteRecord (binding : ProviderBinding) (creds : Credentials) (key : RecordKey)
  /-- `BEGIN; SELECT … FROM changesets WHERE id = ?`, which fixes the transaction's view. -/
  | txSelect (id : String)
  /-- `UPDATE changesets SET status = ?, updated_at = ? WHERE id = ?; COMMIT` in the
      transaction with the given view. The `UPDATE` takes the only write lock and `COMMIT`
      gives it back, so no write of another party comes between the two. -/
  | txUpdate (id : String) (target : ChangeSetStatus) (snapshot : Nat)
  /-- `SELECT … FROM changesets WHERE id = ?` -/
  | selectChangeset (id : String)
  /-- `SELECT … FROM changeset_items WHERE changeset_id = ? ORDER BY record_id` -/
  | selectItemsByRecord (changesetId : String)
deriving DecidableEq

/-- What a command is answered with. -/
@[reducible] def Cmd.Reply : Cmd → Type
  | instant => Nat
  | selectValidated => Except DbError (List Changeset)
  | updateStatus .. => Except DbError Nat
  | selectItems _ => Except DbError (List ChangesetItem)
  | selectZone _ => Except DbError (Option String)
  | selectActiveBindings _ => Except DbError (List ProviderBinding)
  | upsertRecord .. => Except ProviderError Unit
  | deleteRecord .. => Except ProviderError Unit
  | txSelect _ => Except DbError (Option Changeset × Nat)
  | txUpdate .. => Except DbError Unit
  | selectChangeset _ => Except DbError (Option Changeset)
  | selectItemsByRecord _ => Except DbError (List ChangesetItem)

/-- Issue a command. -/
def issue {ε : Type} (c : Cmd) : Prog Cmd Cmd.Reply ε c.Reply := Prog.perform c

/-- What the provider zones hold, by binding id. -/
abbrev Contents := String → RecordKey → Option ProviderRecord

/-- The outcome of one provider call: it takes effect, it fails without effect, or it
    takes effect but is reported as failed (a timeout, a lost answer). -/
inductive CallOutcome where
  | ok
  | refused (e : ProviderError)
  | lost (e : ProviderError)
deriving DecidableEq

/-- The state the programs work on, with the number of the next query, write statement,
    provider call and clock reading. `commits` counts the writes that took effect. -/
structure World where
  db : Database
  contents : Contents
  commits : Nat := 0
  queries : Nat := 0
  writes : Nat := 0
  calls : Nat := 0
  readings : Nat := 0

/-- What the world does by itself: the failure of each query and write statement, the
    outcome of each provider call, the readings of the clocks. -/
structure Env where
  queries : Nat → Option DbError
  writes : Nat → Option DbError
  calls : Nat → CallOutcome
  /-- `Instant`, in nanoseconds -/
  instants : Nat → Nat
  /-- `Utc::now().to_rfc3339()` at each write statement -/
  now : Nat → String

namespace World

/-- A query of the database. -/
def query {α : Type} (env : Env) (w : World) (answer : Database → α) : Except DbError α × World :=
  match env.queries w.queries with
  | some e => (.error e, { w with queries := w.queries + 1 })
  | none => (.ok (answer w.db), { w with queries := w.queries + 1 })

/-- A write statement that takes effect. -/
def commit (w : World) (db : Database) : World :=
  { w with db, commits := w.commits + 1, writes := w.writes + 1 }

/-- A provider call that gives the key of the binding's zone the value (`none` removes it). -/
def call (env : Env) (w : World) (b : ProviderBinding) (key : RecordKey)
    (value : Option ProviderRecord) : Except ProviderError Unit × World :=
  let done := { w with
    contents := (Write.mk b.id key value).exec w.contents, calls := w.calls + 1 }
  match env.calls w.calls with
  | .ok => (.ok (), done)
  | .refused e => (.error e, { w with calls := w.calls + 1 })
  | .lost e => (.error e, done)

end World

/-- `UPDATE changesets … WHERE id = ? AND status = ?` with the number of affected rows. -/
def updateStatusWhere (env : Env) (w : World) (id : String) (source target : ChangeSetStatus) :
    Except DbError Nat × World :=
  match env.writes w.writes with
  | some e => (.error e, { w with writes := w.writes + 1 })
  | none =>
    if w.db.statusOf id = some source then
      (.ok 1, w.commit (w.db.setStatus id (·.status == source) target (env.now w.writes)))
    else (.ok 0, { w with writes := w.writes + 1 })

/-- The `UPDATE` and `COMMIT` of a transaction that read the database after `snapshot`
    commits. It fails when another commit has come in between. -/
def updateStatusTx (env : Env) (w : World) (id : String) (target : ChangeSetStatus)
    (snapshot : Nat) : Except DbError Unit × World :=
  match env.writes w.writes with
  | some e => (.error e, { w with writes := w.writes + 1 })
  | none =>
    -- a view that is no longer the latest cannot be written from
    if w.commits = snapshot then
      (.ok (), w.commit (w.db.setStatus id (fun _ => true) target (env.now w.writes)))
    else (.error "database is locked", { w with writes := w.writes + 1 })

/-- Execute a command. -/
def handle (env : Env) : (c : Cmd) → World → c.Reply × World
  | .instant, w => (env.instants w.readings, { w with readings := w.readings + 1 })
  | .selectValidated, w => w.query env fun db =>
    (db.changesets.select fun row => row.status == .validated).insertionSort
      fun x y => x.createdAt ≤ y.createdAt
  | .updateStatus id source target, w => updateStatusWhere env w id source target
  | .selectItems id, w => w.query env (·.items id)
  | .selectZone id, w => w.query env (·.zoneOf id)
  | .selectActiveBindings id, w => w.query env (·.activeBindings id)
  -- the credentials decide nothing here: a call that is refused for them is an outcome of `env`
  | .upsertRecord b _ record, w => w.call env b record.key (some record)
  | .deleteRecord b _ key, w => w.call env b key none
  | .txSelect id, w => w.query env fun db => (db.changesets.find? id, w.commits)
  | .txUpdate id target snapshot, w => updateStatusTx env w id target snapshot
  | .selectChangeset id, w => w.query env (·.changesets.find? id)
  | .selectItemsByRecord id, w => w.query env fun db =>
    (db.items id).insertionSort fun x y => x.recordId ≤ y.recordId

end DnsManager
