import DnsManager.Api.Statements
import DnsManager.ForStd.Embed
import DnsManager.Worker.SyncCommands

/-!
# The commands of the process (`api/src/main.rs`)

The server and the loops of the worker run in one process on one database. A command of the
process is one of the apply loop and of `validate`, one of the synchronisation loops or one of
the other handlers, and `handleSystem` executes it on the state they share.
-/

namespace DnsManager

variable [SerdeJson]

/-- The commands of the process. -/
inductive SystemCmd where
  | apply (c : Cmd)
  | sync (c : SyncCmd)
  | api (c : ApiCmd)

/-- What a command is answered with. -/
@[reducible] def SystemCmd.Reply : SystemCmd → Type
  | apply c => c.Reply
  | sync c => c.Reply
  | api c => c.Reply

/-- The database and the provider zones, with the number of the next query, write statement,
    listing and clock reading of the synchronisation loops. -/
structure SystemState where
  world : World
  queries : Nat := 0
  writes : Nat := 0
  listings : Nat := 0
  readings : Nat := 0

/-- What the world does by itself. -/
structure SystemEnv where
  apply : Env
  sync : SyncEnv

namespace SystemState

omit [SerdeJson]

/-- The database. -/
abbrev db (s : SystemState) : Database := s.world.db

/-- What the synchronisation loops work on. -/
def syncWorld (s : SystemState) : SyncWorld where
  db := s.db
  queries := s.queries
  writes := s.writes
  listings := s.listings
  readings := s.readings

/-- The state after a command of the synchronisation loops; `committed` writes took effect. -/
def afterSync (s : SystemState) (w : SyncWorld) (committed : Nat) : SystemState where
  world := { s.world with db := w.db, commits := s.world.commits + committed }
  queries := w.queries
  writes := w.writes
  listings := w.listings
  readings := w.readings

end SystemState

/-- The writes of a command of the synchronisation loops that took effect. -/
def SyncCmd.committed : (c : SyncCmd) → c.Reply → Nat
  | .upsertSyncState _, .ok _ => 1
  | _, _ => 0

/-- Execute a command. -/
def handleSystem (env : SystemEnv) : (c : SystemCmd) → SystemState → c.Reply × SystemState
  | .apply c, s =>
    let (r, w) := handle env.apply c s.world
    (r, { s with world := w })
  | .sync c, s =>
    let (r, w) := handleSync env.sync c s.syncWorld
    (r, s.afterSync w (c.committed r))
  | .api c, s =>
    let (r, w) := handleApi env.apply c s.world
    (r, { s with world := w })

/-! ## Programs of the process -/

/-- The commands of the apply loop are commands of the process. -/
def applyCommands : Prog.Embedding Cmd.Reply SystemCmd.Reply := ⟨.apply, fun _ r => r⟩

/-- The commands of the synchronisation loops are commands of the process. -/
def syncCommands : Prog.Embedding SyncCmd.Reply SystemCmd.Reply := ⟨.sync, fun _ r => r⟩

/-- A program of a handler. -/
abbrev HandlerM := Prog SystemCmd SystemCmd.Reply ApiError

/-- Issue a command of the handlers. -/
def ApiCmd.issue {ε : Type} (c : ApiCmd) : Prog SystemCmd SystemCmd.Reply ε c.Reply :=
  Prog.perform (SystemCmd.api c)

end DnsManager
