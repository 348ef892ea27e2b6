import DnsManager.Adapters.Route53.Adapter
import DnsManager.Worker.Commands
import DnsManager.Worker.Observe

/-!
# The worker on top of Route53

The registry of the process (`build_adapter_registry` of `api/src/main.rs`) holds the Route53
adapter only. So every write of the worker to a provider is a run of `upsert_record` or
`delete_record` of that adapter, against the service that has the hosted zone of the binding.
`handleHosted` executes the commands of the worker in this way.
-/

namespace DnsManager.Route53

/-- The world of the worker with a service behind each binding, by the id of the binding. What
    the provider zones hold is up to the services: the contents of `world` are not looked at. -/
structure HostedWorld where
  world : World
  services : String → Route53World

/-- Run a call of the adapter against the service of a binding. -/
def HostedWorld.call [Route53Order] (env : String → Route53Env) (s : HostedWorld)
    (b : ProviderBinding) (p : Route53M Unit) : Except ProviderError Unit × HostedWorld :=
  let x := p.run (handleRoute53 (env b.id)) (s.services b.id)
  (x.1, { world := { s.world with calls := s.world.calls + 1 }
          services := Function.update s.services b.id x.2 })

/-- Execute a command of the worker, its provider calls by the adapter. -/
def handleHosted [AwsSdk] [Route53Order] (env : Env) (services : String → Route53Env) :
    (c : Cmd) → HostedWorld → c.Reply × HostedWorld
  | .upsertRecord b creds record, s =>
    s.call services b (upsertRecord creds b.providerZoneId record)
  | .deleteRecord b creds key, s => s.call services b (deleteRecord creds b.providerZoneId key)
  | c, s => ((handle env c s.world).1, { s with world := (handle env c s.world).2 })

/-! ## The maps of the hosted zones -/

/-- What a hosted zone shows under each key: the map of its reported records. -/
def HostedZone.shown [UnicodeData] (zone : HostedZone) : RecordKey → Option ProviderRecord :=
  actualMap (zone.sets.filterMap (reported zone.name))

/-- The world in which the provider zones are the maps that the hosted zones show. -/
def HostedWorld.shown [UnicodeData] (s : HostedWorld) : World :=
  { s.world with contents := fun id => (s.services id).zone.shown }

end DnsManager.Route53
