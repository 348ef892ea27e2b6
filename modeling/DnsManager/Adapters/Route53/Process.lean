import DnsManager.Adapters.Route53.Adapter
import DnsManager.Api.Server
import DnsManager.ForStd.Expand
import Mathlib.Logic.Function.Basic

/-!
# The process on top of Route53

The registry of the process (`build_adapter_registry` of `api/src/main.rs`) holds the Route53
adapter only, and a call of it takes several requests to the service. Between two of them other
threads of the process go on, and so do other clients of the hosted zones.
-/

namespace DnsManager.Route53

open Prog (Procedures Step Thread)

/-- A request to the service that has the hosted zone of a binding. -/
structure ZoneCmd where
  bindingId : String
  cmd : Route53Cmd

/-- What a request is answered with. -/
@[reducible] def ZoneCmd.Reply (c : ZoneCmd) : Type := c.cmd.Reply

/-- The requests of the adapter for a binding. -/
def zoneCommands (bindingId : String) : Prog.Embedding Route53Cmd.Reply ZoneCmd.Reply :=
  ⟨fun c => ⟨bindingId, c⟩, fun _ r => r⟩

/-- A call of the adapter for a binding. -/
def adapterCall {α : Type} (b : ProviderBinding) (p : Route53M α) :
    Prog ZoneCmd ZoneCmd.Reply Empty (Except ProviderError α) :=
  (p.embed (zoneCommands b.id)).attempt

variable [SerdeJson] [AwsSdk]

/-- The adapter of the registry, as the procedures of the provider calls. A listing asks for `fuel`
    pages at most: it does not return when it would ask for more. -/
def adapterCalls [UnicodeData] (fuel : Nat) : Procedures SystemCmd.Reply ZoneCmd.Reply
  | .apply (.upsertRecord b creds record) => some do
    return some (← adapterCall b (upsertRecord creds b.providerZoneId record))
  | .apply (.deleteRecord b creds key) => some do
    return some (← adapterCall b (deleteRecord creds b.providerZoneId key))
  | .sync (.listRecords b creds) => some do
    match ← adapterCall b (listRecords fuel creds b.providerZoneId) with
    | .ok (some records) => return some (.ok records)
    | .ok none => return none
    | .error e => return some (.error e)
  | _ => none

/-- The state of the process, and the services with the hosted zones, by the id of the binding. What
    the provider zones hold is up to the services: the contents of `system` are not looked at. -/
structure ProcessState where
  system : SystemState
  services : String → Route53World

/-- The commands of the process on top of Route53. -/
abbrev ProcessCmd := Step SystemCmd.Reply ZoneCmd

/-- What a command is answered with. -/
abbrev ProcessReply : ProcessCmd → Type := Step.Reply SystemCmd.Reply ZoneCmd.Reply

/-- Execute a command. -/
def handleProcess [Route53Order] (env : SystemEnv) (services : String → Route53Env) :
    (c : ProcessCmd) → ProcessState → ProcessReply c × ProcessState
  | .cmd c, s =>
    let (r, t) := handleSystem env c s.system
    (r, { s with system := t })
  | .inner ⟨id, c⟩, s =>
    let (r, w) := handleRoute53 (services id) c (s.services id)
    (r, { s with services := Function.update s.services id w })
  | .returned .., s => ((), s)

variable [CryptoLib] [Sha256] [UnicodeData] [Chrono]

/-- The process from a state, request by request, beside other clients of the hosted zones. -/
def hostedProcess (fuel : Nat) (state : AppState) (requests : List Request)
    (runs : List WorkerRun) (clients : List (Thread ZoneCmd ZoneCmd.Reply)) (s : ProcessState) :
    Prog.Pool ProcessCmd ProcessReply ProcessState where
  state := s
  threads := Prog.Pool.expandThreads (adapterCalls fuel) (process state requests runs s.system).threads
    clients

end DnsManager.Route53
