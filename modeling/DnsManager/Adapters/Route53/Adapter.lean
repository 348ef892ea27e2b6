import DnsManager.Adapters.Route53.Service

/-!
# The Route53 adapter (`adapters/route53/src/lib.rs`, `client.rs`, `error.rs`)

The three record operations of `Route53Adapter`. The builders of the SDK get all the parts
they require, so their errors are left out. `listRecords` sends requests until a page is not
truncated; it takes the number of requests it may send and returns `none` when they are
used up.
-/

namespace DnsManager.Route53

open Prog (liftExcept)
open RustStr (contains)

/-- A program of the adapter. -/
abbrev Route53M := Prog Route53Cmd Route53Cmd.Reply ProviderError

/-- Send a request. -/
def Route53Cmd.send {ε : Type} (c : Route53Cmd) : Prog Route53Cmd Route53Cmd.Reply ε c.Reply :=
  Prog.perform c

/-! ## Client and errors -/

variable [AwsSdk]

/-- `build_client` -/
def buildClient (creds : Credentials) : Except ProviderError Client := do
  let accessKeyId ← match creds.entries.lookup "access_key_id" with
    | some v => .ok v
    | none => .error (.authError "missing access_key_id in credentials")
  let secretAccessKey ← match creds.entries.lookup "secret_access_key" with
    | some v => .ok v
    | none => .error (.authError "missing secret_access_key in credentials")
  return AwsSdk.fromConf
    { accessKeyId, secretAccessKey, sessionToken := creds.entries.lookup "session_token",
      region := "us-east-1" }

/-- `is_throttle` -/
def isThrottle (msg : String) : Bool :=
  contains msg "Throttling" || contains msg "ThrottlingException" ||
    contains msg "RequestLimitExceeded" || contains msg "Rate exceeded"

/-- `map_sdk_error` -/
def mapSdkError (err : SdkError) : ProviderError :=
  match err.kind with
  | .serviceError msg => if isThrottle msg then .rateLimitExceeded else .apiError msg
  | .timeoutError => .apiError "request to Route53 timed out"
  | .dispatchFailure debug => .apiError s!"network dispatch failure: {debug}"
  | .other => .apiError err.display

/-- `is_record_not_found` -/
def isRecordNotFound (msg : String) : Bool :=
  contains msg "was not found" || contains msg "does not exist" || contains msg "not found"

/-! ## Records and record sets -/

/-- The record set `upsert_record` sends for a record. -/
def recordSet (record : ProviderRecord) (zoneFqdn : String) : ResourceRecordSet where
  name := toFqdn record.name zoneFqdn
  rrType := recordTypeToRrType record.recordType
  setIdentifier := none
  ttl := some (Int64.ofInt record.ttl.toNat)
  aliasTarget := none
  resourceRecords := record.values.map fun v =>
    if record.recordType = .txt then addTxtQuotes v else v

/-- The record `list_records` reports for a record set. Other types, aliases and record sets
    without a time to live are skipped. -/
def reported [UnicodeData] (zoneFqdn : String) (rrs : ResourceRecordSet) :
    Option ProviderRecord := do
  let recordType ← rrTypeToRecordType rrs.rrType
  if rrs.aliasTarget.isSome then none
  let rawTtl ← rrs.ttl
  return {
    name := toRelativeName rrs.name zoneFqdn
    recordType
    -- `(raw_ttl as i64).max(0) as u32` keeps the low 32 bits
    ttl := UInt32.ofNat (max rawTtl.toInt 0).toNat
    values := rrs.resourceRecords.map fun v => if recordType = .txt then stripTxtQuotes v else v }

/-! ## Operations -/

/-- `zone_fqdn` -/
def zoneFqdn (client : Client) (zoneId : String) : Route53M String := do
  let resp ← liftExcept ((← (Route53Cmd.getHostedZone client zoneId).send).mapError fun e =>
    if contains e.display "NoSuchHostedZone" then .zoneNotFound zoneId else mapSdkError e)
  match resp with
  | some name => pure name
  | none => .throw (.apiError "GetHostedZone returned empty body")

/-- The loop of `list_records`, from the records of the pages so far. -/
def listPages [UnicodeData] (client : Client) (zoneId zoneFqdn : String) :
    (fuel : Nat) → (nextName : Option String) → (nextType : Option RrType) →
    (records : List ProviderRecord) → Route53M (Option (List ProviderRecord))
  -- out of requests: the source has no bound and goes on
  | 0, _, _, _ => pure none
  | fuel + 1, nextName, nextType, records => do
    let resp ← liftExcept
      ((← (Route53Cmd.listResourceRecordSets client zoneId nextName nextType none).send).mapError
        mapSdkError)
    let records := records ++ resp.resourceRecordSets.filterMap (reported zoneFqdn)
    -- the next page starts at the name and type of this response, without its identifier
    if resp.isTruncated then
      listPages client zoneId zoneFqdn fuel resp.nextRecordName resp.nextRecordType records
    else pure (some records)

/-- `list_records` -/
def listRecords [UnicodeData] (fuel : Nat) (creds : Credentials) (providerZoneId : String) :
    Route53M (Option (List ProviderRecord)) := do
  let client ← liftExcept (buildClient creds)
  let zoneId := normalizeZoneId providerZoneId
  let zoneFqdn ← zoneFqdn client zoneId
  listPages client zoneId zoneFqdn fuel none none []

/-- `upsert_record` -/
def upsertRecord (creds : Credentials) (providerZoneId : String) (record : ProviderRecord) :
    Route53M Unit := do
  let client ← liftExcept (buildClient creds)
  let zoneId := normalizeZoneId providerZoneId
  let zoneFqdn ← zoneFqdn client zoneId
  liftExcept ((← (Route53Cmd.changeResourceRecordSets client zoneId
    (.upsert (recordSet record zoneFqdn))).send).mapError mapSdkError)

/-- `delete_record` -/
def deleteRecord (creds : Credentials) (providerZoneId : String) (key : RecordKey) :
    Route53M Unit := do
  let client ← liftExcept (buildClient creds)
  let zoneId := normalizeZoneId providerZoneId
  let zoneFqdn ← zoneFqdn client zoneId
  let fqdn := toFqdn key.name zoneFqdn
  let rrType := recordTypeToRrType key.recordType
  let resp ← liftExcept ((← (Route53Cmd.listResourceRecordSets client zoneId (some fqdn)
    (some rrType) (some 1)).send).mapError mapSdkError)
  -- the page starts at or after the name and type: it may hold another record set
  match resp.resourceRecordSets.find? fun rrs => fqdnsEqual rrs.name fqdn && rrs.rrType == rrType with
  | none => pure ()
  | some rrs =>
    match ← (Route53Cmd.changeResourceRecordSets client zoneId (.delete rrs)).send with
    | .ok _ => pure ()
    | .error e =>
      -- the record set was deleted between the listing and this request
      if isRecordNotFound e.display then pure () else .throw (mapSdkError e)

end DnsManager.Route53
