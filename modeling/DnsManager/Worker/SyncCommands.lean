import DnsManager.Core.Provider
import DnsManager.Db.Schema
import DnsManager.ForStd.Prog

/-!
# What the synchronisation programs ask of the world

The observe loop and the retry loop of the worker are programs over the commands `SyncCmd`: one
command for each database statement, provider listing and clock reading of the source. `handleSync`
executes a command on a `SyncWorld`. Which statements fail, what the providers list and
what the clock shows is decided by a `SyncEnv`.

chrono is third-party code; an instant is a number of nanoseconds since the Unix epoch.
-/

namespace DnsManager

/-- The functions of chrono the program calls. -/
class Chrono where
  /-- `DateTime<Utc>::to_rfc3339` -/
  toRfc3339 : Int → String
  /-- `DateTime::parse_from_rfc3339`, the instant it denotes -/
  parseFromRfc3339 : String → Option Int

/-- `SyncStateFailedRow`. The source reads `retry_count` as an i64; a count above its range, which it
    cannot read, is taken as it is. -/
structure SyncStateFailedRow where
  recordId : String
  providerBindingId : String
  lastObservedAt : Option String
  retryCount : Int
deriving DecidableEq, Repr

namespace SyncStateFailedRow

/-- The columns of a sync state the retry loop reads. -/
def ofState (s : SyncState) : SyncStateFailedRow :=
  ⟨s.recordId, s.providerBindingId, s.lastObservedAt, s.retryCount⟩

/-- The key of the sync state. -/
def key (row : SyncStateFailedRow) : String × String := (row.recordId, row.providerBindingId)

/-- `ORDER BY retry_count ASC, last_observed_at ASC`; `NULL` comes first. -/
def le (a b : SyncStateFailedRow) : Bool :=
  if a.retryCount = b.retryCount then
    match a.lastObservedAt, b.lastObservedAt with
    | none, _ => true
    | some _, none => false
    | some x, some y => decide (x ≤ y)
  else decide (a.retryCount ≤ b.retryCount)

end SyncStateFailedRow

/-- `SELECT … FROM sync_states WHERE status = 'sync_failed' ORDER BY …` -/
def Database.failedRows (db : Database) : List SyncStateFailedRow :=
  ((db.syncStates.select fun s => s.status == .syncFailed).map .ofState).insertionSort
    (fun a b => a.le b = true)

/-- The database statements, provider listings and clock readings. -/
inductive SyncCmd where
  /-- `chrono::Utc::now()` -/
  | utcNow
  /-- `SELECT … FROM provider_bindings WHERE status = 'active'` -/
  | selectActive
  /-- `SELECT … FROM desired_records WHERE zone_id = (SELECT zone_id FROM provider_bindings
      WHERE id = ?) AND deleted_at IS NULL` -/
  | selectDesired (bindingId : String)
  /-- `SELECT … FROM sync_states WHERE status = 'sync_failed' ORDER BY …` -/
  | selectFailed
  /-- `SELECT … FROM provider_bindings WHERE id = ?` -/
  | selectBinding (id : String)
  /-- `SELECT … FROM desired_records WHERE id = ?` -/
  | selectRecord (id : String)
  /-- `adapter.list_records(creds, provider_zone_id)` -/
  | listRecords (binding : ProviderBinding) (creds : Credentials)
  /-- `INSERT INTO sync_states … ON CONFLICT … DO UPDATE` of a new row -/
  | upsertSyncState (row : SyncState)
deriving DecidableEq

/-- What a command is answered with. -/
@[reducible] def SyncCmd.Reply : SyncCmd → Type
  | utcNow => Int
  | selectActive => Except DbError (List ProviderBinding)
  | selectDesired _ => Except DbError (List DesiredRecord)
  | selectFailed => Except DbError (List SyncStateFailedRow)
  | selectBinding _ => Except DbError (Option ProviderBinding)
  | selectRecord _ => Except DbError (Option DesiredRecord)
  | listRecords .. => Except ProviderError (List ProviderRecord)
  | upsertSyncState _ => Except DbError Unit

/-- A synchronisation program of the worker. -/
abbrev SyncM := Prog SyncCmd SyncCmd.Reply String

/-- Issue a command. -/
def SyncCmd.issue (c : SyncCmd) : SyncM c.Reply := Prog.perform c

/-- The database, with the number of the next query, write statement, listing and clock
    reading. -/
structure SyncWorld where
  db : Database
  queries : Nat := 0
  writes : Nat := 0
  listings : Nat := 0
  readings : Nat := 0

/-- What the world does by itself: the failure of each query and write statement, what each
    listing of a binding's zone shows, the readings of the clock. -/
structure SyncEnv where
  queries : Nat → Option DbError
  writes : Nat → Option DbError
  listings : Nat → ProviderBinding → Credentials → Except ProviderError (List ProviderRecord)
  now : Nat → Int

namespace SyncWorld

/-- A query of the database. -/
def query {α : Type} (env : SyncEnv) (w : SyncWorld) (answer : Database → α) :
    Except DbError α × SyncWorld :=
  match env.queries w.queries with
  | some e => (.error e, { w with queries := w.queries + 1 })
  | none => (.ok (answer w.db), { w with queries := w.queries + 1 })

/-- A write statement; one that fails or violates a constraint changes nothing. -/
def write (env : SyncEnv) (w : SyncWorld) (statement : Database → Except Violation Database) :
    Except DbError Unit × SyncWorld :=
  match env.writes w.writes with
  | some e => (.error e, { w with writes := w.writes + 1 })
  | none =>
    match statement w.db with
    | .error v => (.error v.display, { w with writes := w.writes + 1 })
    | .ok db => (.ok (), { w with db, writes := w.writes + 1 })

end SyncWorld

/-- Execute a command. -/
def handleSync (env : SyncEnv) : (c : SyncCmd) → SyncWorld → c.Reply × SyncWorld
  | .utcNow, w => (env.now w.readings, { w with readings := w.readings + 1 })
  | .selectActive, w => w.query env fun db => db.bindings.select fun b => b.status == .active
  | .selectDesired bindingId, w => w.query env (·.desiredOf bindingId)
  | .selectFailed, w => w.query env (·.failedRows)
  | .selectBinding id, w => w.query env (·.bindings.find? id)
  | .selectRecord id, w => w.query env (·.desiredRecords.find? id)
  | .listRecords b creds, w =>
    (env.listings w.listings b creds, { w with listings := w.listings + 1 })
  | .upsertSyncState row, w => w.write env (·.upsertSyncState row)

end DnsManager
