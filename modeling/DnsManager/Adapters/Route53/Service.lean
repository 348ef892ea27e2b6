import DnsManager.Adapters.Route53.Convert
import DnsManager.Core.Provider
import DnsManager.ForStd.Prog

/-!
# What the adapter asks of Route53

The adapter is a program over the commands `Route53Cmd`, one for each request of the SDK
that it sends. `handleRoute53` answers them as the service does for one hosted zone: record
sets are stored and listed back verbatim, in the order of the service, and a listing comes
in pages whose sizes the service chooses. Which requests fail is decided by a
`Route53Env`.
-/

namespace DnsManager.Route53

/-- `Client`: the credentials the SDK client was built from. -/
structure Client where
  accessKeyId : String
  secretAccessKey : String
  sessionToken : Option String
deriving DecidableEq, Repr

/-- `Config`, as far as `build_client` sets it. -/
structure Config where
  accessKeyId : String
  secretAccessKey : String
  sessionToken : Option String
  region : String
deriving DecidableEq, Repr

/-- The constructor of the SDK. -/
class AwsSdk where
  /-- `Client::from_conf`, which is taken to return a client. The version of the SDK in `Cargo.lock`
      does not: it panics when the configuration has no behavior version, and `build_client` sets
      none. -/
  fromConf : Config → Client

/-- `ResourceRecordSet` -/
structure ResourceRecordSet where
  name : String
  rrType : RrType
  setIdentifier : Option String
  ttl : Option Int64
  aliasTarget : Option String
  resourceRecords : List String
deriving DecidableEq, Repr

/-- What a listing starts at and is ordered by. -/
abbrev SetKey := String × RrType

def ResourceRecordSet.key (rrs : ResourceRecordSet) : SetKey := (rrs.name, rrs.rrType)

/-- `Change` with its `ChangeAction` -/
inductive Change where
  | upsert (rrs : ResourceRecordSet)
  | delete (rrs : ResourceRecordSet)
deriving DecidableEq, Repr

/-- The variants of `SdkError` that are told apart, with what is read of them. -/
inductive SdkErrorKind where
  | serviceError (msg : String)
  | timeoutError
  | dispatchFailure (debug : String)
  | other
deriving DecidableEq, Repr

/-- `SdkError` with its `Display` text. -/
structure SdkError where
  kind : SdkErrorKind
  display : String
deriving DecidableEq, Repr

/-- `ListResourceRecordSetsOutput`, as far as it is read. -/
structure ListPage where
  resourceRecordSets : List ResourceRecordSet
  isTruncated : Bool
  nextRecordName : Option String
  nextRecordType : Option RrType
deriving DecidableEq, Repr

/-- The requests the adapter sends. -/
inductive Route53Cmd where
  | getHostedZone (client : Client) (id : String)
  | listResourceRecordSets (client : Client) (hostedZoneId : String)
      (startRecordName : Option String) (startRecordType : Option RrType) (maxItems : Option Nat)
  | changeResourceRecordSets (client : Client) (hostedZoneId : String) (change : Change)
deriving DecidableEq

/-- What a request is answered with. -/
@[reducible] def Route53Cmd.Reply : Route53Cmd → Type
  | getHostedZone .. => Except SdkError (Option String)
  | listResourceRecordSets .. => Except SdkError ListPage
  | changeResourceRecordSets .. => Except SdkError Unit

/-! ## The service -/

/-- The order in which Route53 lists record sets. -/
class Route53Order where
  le : SetKey → SetKey → Bool
  le_total : ∀ a b, le a b = true ∨ le b a = true
  le_trans : ∀ a b c, le a b = true → le b c = true → le a c = true

/-- A hosted zone with its record sets in the order of the service. -/
structure HostedZone where
  id : String
  name : String
  sets : List ResourceRecordSet
deriving DecidableEq, Repr

/-- The service, with the number of the next request. -/
structure Route53World where
  zone : HostedZone
  requests : Nat := 0
deriving DecidableEq, Repr

/-- What the service does by itself: the failure of each request, the errors of requests it
    rejects, the size of each page (one record set at least). -/
structure Route53Env where
  failures : Nat → Option SdkError
  noSuchHostedZone : String → SdkError
  invalidChange : Change → SdkError
  pageSize : Nat → Nat

namespace HostedZone

variable [Route53Order]

/-- The record sets at or after a start; the adapter gives both parts of it or none. -/
def setsFrom (zone : HostedZone) (startName : Option String) (startType : Option RrType) :
    List ResourceRecordSet :=
  match startName, startType with
  | some name, some rrType =>
    zone.sets.dropWhile fun rrs => !Route53Order.le (name, rrType) rrs.key
  | _, _ => zone.sets

/-- The first `size` record sets of a listing, and where the next page starts. -/
def page (sets : List ResourceRecordSet) (size : Nat) : ListPage where
  resourceRecordSets := sets.take size
  isTruncated := !(sets.drop size).isEmpty
  nextRecordName := (sets.drop size).head?.map (·.name)
  nextRecordType := (sets.drop size).head?.map (·.rrType)

/-- Two record sets are the same one to Route53: DNS names have no case. -/
def SameSet (a b : ResourceRecordSet) : Prop :=
  fqdnsEqual a.name b.name = true ∧ a.rrType = b.rrType ∧ a.setIdentifier = b.setIdentifier

instance : DecidableRel SameSet := fun _ _ => inferInstanceAs (Decidable (_ ∧ _))

/-- File a new record set in the order of the service. -/
def insertSet (rrs : ResourceRecordSet) (sets : List ResourceRecordSet) :
    List ResourceRecordSet :=
  sets.orderedInsert (fun a b => Route53Order.le a.key b.key = true) rrs

/-- `UPSERT` -/
def upsert (zone : HostedZone) (rrs : ResourceRecordSet) : HostedZone :=
  if zone.sets.any fun o => SameSet o rrs then
    { zone with sets := zone.sets.map fun o => if SameSet o rrs then rrs else o }
  else { zone with sets := insertSet rrs zone.sets }

/-- What a change makes of the zone; `DELETE` wants exactly a record set that is there. -/
def change (zone : HostedZone) : Change → Option HostedZone
  | .upsert rrs => some (zone.upsert rrs)
  | .delete rrs =>
    if rrs ∈ zone.sets then some { zone with sets := zone.sets.erase rrs } else none

end HostedZone

section Service

variable [Route53Order]

/-- A request for the hosted zone `id` that is answered by `answer`. -/
def Route53World.request {α : Type} (env : Route53Env) (w : Route53World) (id : String)
    (answer : HostedZone → Except SdkError (α × HostedZone)) : Except SdkError α × Route53World :=
  let next := { w with requests := w.requests + 1 }
  match env.failures w.requests with
  | some e => (.error e, next)
  | none =>
    if id = w.zone.id then
      match answer w.zone with
      | .error e => (.error e, next)
      | .ok (reply, zone) => (.ok reply, { next with zone })
    else (.error (env.noSuchHostedZone id), next)

/-- Answer a request. -/
def handleRoute53 (env : Route53Env) :
    (c : Route53Cmd) → Route53World → c.Reply × Route53World
  | .getHostedZone _ id, w => w.request env id fun zone => .ok (some zone.name, zone)
  | .listResourceRecordSets _ id startName startType maxItems, w => w.request env id fun zone =>
    let size := env.pageSize w.requests + 1
    .ok (HostedZone.page (zone.setsFrom startName startType) (maxItems.elim size (min size)), zone)
  | .changeResourceRecordSets _ id change, w => w.request env id fun zone =>
    match zone.change change with
    | some zone' => .ok ((), zone')
    | none => .error (env.invalidChange change)

end Service

end DnsManager.Route53
