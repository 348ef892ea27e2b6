import DnsManager.Adapters.Route53.Process
import DnsManager.Spec.Route53Listing

/-!
# A listing while the zone changes

`list_records` sends a request for each page, and other clients change the hosted zone between two of
them. What it returns need not be what the zone holds at any one moment: each record comes from a
page, and a record set which every page covers is among them.

## Key results
- `shown_of_path`: what a listing returns, by the replies to its requests alone.
- `pageCovers_of_ordered`: the pages of a zone in order cover its record sets.
-/

namespace DnsManager.Route53

open Prog (Monitor Obeys Path recorder)

/-! ## Pages -/

section Pages

variable [Route53Order]

/-- The record sets of the zone are in the order of the service. -/
def HostedZone.Ordered (zone : HostedZone) : Prop :=
  zone.sets.Pairwise fun a b => Route53Order.le a.key b.key = true

/-- A request for a page starts at the record set or before it. -/
def Reaches (rrs : ResourceRecordSet) : Option String → Option RrType → Prop
  | some name, some rrType => Route53Order.le (name, rrType) rrs.key = true
  | _, _ => True

/-- The page has the record set or goes on to it, unless it starts after it. -/
def PageCovers (rrs : ResourceRecordSet) (nextName : Option String) (nextType : Option RrType)
    (page : ListPage) : Prop :=
  Reaches rrs nextName nextType → rrs ∈ page.resourceRecordSets ∨
    page.isTruncated = true ∧ Reaches rrs page.nextRecordName page.nextRecordType

/-- A listing that starts at a record set of the zone or before it has the record set. -/
private theorem mem_setsFrom_of_reaches {zone : HostedZone} {rrs : ResourceRecordSet}
    (hrrs : rrs ∈ zone.sets) {nextName : Option String} {nextType : Option RrType}
    (hreaches : Reaches rrs nextName nextType) : rrs ∈ zone.setsFrom nextName nextType := by
  unfold HostedZone.setsFrom
  split
  · next name rrType =>
    have hle : Route53Order.le (name, rrType) rrs.key = true := hreaches
    let p : ResourceRecordSet → Bool := fun o => !Route53Order.le (name, rrType) o.key
    rw [← List.takeWhile_append_dropWhile (p := p) (l := zone.sets)] at hrrs
    rcases List.mem_append.mp hrrs with hbefore | hfrom
    · -- what is left out comes before the start
      have hnot : p rrs = true := List.mem_takeWhile_imp hbefore
      simp [p, hle] at hnot
    · exact hfrom
  · exact hrrs

/-- The pages of a zone in order cover its record sets. -/
theorem pageCovers_of_ordered {zone : HostedZone} (hordered : zone.Ordered)
    {rrs : ResourceRecordSet} (hrrs : rrs ∈ zone.sets) (nextName : Option String)
    (nextType : Option RrType) (size : Nat) :
    PageCovers rrs nextName nextType (HostedZone.page (zone.setsFrom nextName nextType) size) := by
  intro hreaches
  have hmem := mem_setsFrom_of_reaches hrrs hreaches
  have hsorted : (zone.setsFrom nextName nextType).Pairwise
      fun a b => Route53Order.le a.key b.key = true := by
    unfold HostedZone.setsFrom
    split
    · exact hordered.sublist (List.dropWhile_sublist _)
    · exact hordered
  -- the page is cut off after `size` record sets
  rw [← List.take_append_drop size (zone.setsFrom nextName nextType)] at hmem
  rcases List.mem_append.mp hmem with hpage | hlater
  · exact .inl hpage
  · right
    have hrest := hsorted.sublist (List.drop_sublist size _)
    unfold HostedZone.page
    cases hdrop : (zone.setsFrom nextName nextType).drop size with
    | nil =>
      rw [hdrop] at hlater
      cases hlater
    | cons first rest =>
      rw [hdrop] at hlater hrest
      -- the next page starts at the first that is cut off, and the others come after it
      refine ⟨rfl, ?_⟩
      change Route53Order.le first.key rrs.key = true
      rcases List.mem_cons.mp hlater with rfl | hmem
      · exact le_refl _
      · exact (List.pairwise_cons.mp hrest).1 rrs hmem

end Pages

/-! ## What a listing has been shown -/

section Shown

/-- The service has told the name of the hosted zone of a binding. -/
def Named (id : String) (log : List (Sigma ZoneCmd.Reply)) (name : String) : Prop :=
  ∃ client zoneId,
    (⟨⟨id, .getHostedZone client zoneId⟩, .ok (some name)⟩ : Sigma ZoneCmd.Reply) ∈ log

/-- The monitor of the requests for a binding that keeps all it has read, with the binding. -/
def zoneRecorder (id : String) (allows : List (Sigma ZoneCmd.Reply) → Route53Cmd → Prop) :
    Monitor Route53Cmd Route53Cmd.Reply where
  State := List (Sigma ZoneCmd.Reply)
  init := []
  allows
  next log c r := log ++ [⟨⟨id, c⟩, r⟩]

/-- `zone_fqdn` returns the name that the service tells. -/
theorem obeys_zoneFqdn {id : String} {allows : List (Sigma ZoneCmd.Reply) → Route53Cmd → Prop}
    {client : Client} {zoneId : String} (h : allows [] (.getHostedZone client zoneId)) :
    Obeys (zoneRecorder id allows) (zoneFqdn client zoneId) []
      fun x (log : List (Sigma ZoneCmd.Reply)) => ∀ name, x = .ok name → Named id log name := by
  refine .perform_bind h fun reply => .liftExcept_bind (fun resp hresp => ?_) fun _ _ => nofun
  cases resp with
  | none => exact nofun
  | some name =>
    cases reply with
    | error e => cases hresp
    | ok found =>
      cases hresp
      intro name' hname
      cases hname
      exact ⟨client, zoneId, List.mem_cons_self⟩

/-- A listing request for a binding was answered with the page. -/
def Paged (id : String) (log : List (Sigma ZoneCmd.Reply)) (nextName : Option String)
    (nextType : Option RrType) (page : ListPage) : Prop :=
  ∃ client zoneId maxItems,
    (⟨⟨id, .listResourceRecordSets client zoneId nextName nextType maxItems⟩, .ok page⟩ :
      Sigma ZoneCmd.Reply) ∈ log

/-- A page of the hosted zone has a record set that is reported as the record. -/
def PageShows [UnicodeData] (id name : String) (log : List (Sigma ZoneCmd.Reply))
    (r : ProviderRecord) : Prop :=
  ∃ nextName nextType page, Paged id log nextName nextType page ∧
    r ∈ page.resourceRecordSets.filterMap (reported name)

theorem Named.mono {id : String} {log log' : List (Sigma ZoneCmd.Reply)} (hlog : log ⊆ log')
    {name : String} (h : Named id log name) : Named id log' name := by
  obtain ⟨client, zoneId, hmem⟩ := h
  exact ⟨client, zoneId, hlog hmem⟩

theorem Paged.mono {id : String} {log log' : List (Sigma ZoneCmd.Reply)} (hlog : log ⊆ log')
    {nextName : Option String} {nextType : Option RrType} {page : ListPage}
    (h : Paged id log nextName nextType page) : Paged id log' nextName nextType page := by
  obtain ⟨client, zoneId, maxItems, hmem⟩ := h
  exact ⟨client, zoneId, maxItems, hlog hmem⟩

variable [Route53Order]

/-- Every page covers the record set. -/
def Covered (id : String) (rrs : ResourceRecordSet) (log : List (Sigma ZoneCmd.Reply)) : Prop :=
  ∀ nextName nextType page, Paged id log nextName nextType page →
    PageCovers rrs nextName nextType page

variable [UnicodeData]

/-- The loop over the pages has the records of the pages so far, and of what is covered all that
    comes before the next page. -/
structure Collected (id name : String) (log : List (Sigma ZoneCmd.Reply))
    (nextName : Option String) (nextType : Option RrType) (records : List ProviderRecord) :
    Prop where
  named : Named id log name
  shown : ∀ r ∈ records, PageShows id name log r
  complete : ∀ rrs r, Covered id rrs log → reported name rrs = some r →
    r ∈ records ∨ Reaches rrs nextName nextType

/-- The records are those of the pages, and all of what is covered is among them. -/
def Shown (id : String) (log : List (Sigma ZoneCmd.Reply)) (records : List ProviderRecord) : Prop :=
  ∃ name, Named id log name ∧ (∀ r ∈ records, PageShows id name log r) ∧
    ∀ rrs r, Covered id rrs log → reported name rrs = some r → r ∈ records

/-- One more page: the loop goes on, or it has collected all. -/
private theorem Collected.page {id name : String} {log log' : List (Sigma ZoneCmd.Reply)}
    {nextName : Option String} {nextType : Option RrType} {records : List ProviderRecord}
    (h : Collected id name log nextName nextType records) (hlog : log ⊆ log') {page : ListPage}
    (hpaged : Paged id log' nextName nextType page) :
    Collected id name log' page.nextRecordName page.nextRecordType
        (records ++ page.resourceRecordSets.filterMap (reported name)) ∧
      (page.isTruncated = false →
        Shown id log' (records ++ page.resourceRecordSets.filterMap (reported name))) := by
  have hnamed : Named id log' name := h.named.mono hlog
  have hshown : ∀ r ∈ records ++ page.resourceRecordSets.filterMap (reported name),
      PageShows id name log' r := by
    intro r hr
    rcases List.mem_append.mp hr with hr | hr
    · obtain ⟨n, t, p, hp, hr⟩ := h.shown r hr
      exact ⟨n, t, p, hp.mono hlog, hr⟩
    · exact ⟨nextName, nextType, page, hpaged, hr⟩
  have hcomplete : ∀ rrs r, Covered id rrs log' → reported name rrs = some r →
      r ∈ records ++ page.resourceRecordSets.filterMap (reported name) ∨
        page.isTruncated = true ∧ Reaches rrs page.nextRecordName page.nextRecordType := by
    intro rrs r hcovered hr
    -- the pages before this one are among all of them
    have hbefore : Covered id rrs log := fun n t p hp => hcovered n t p (hp.mono hlog)
    rcases h.complete rrs r hbefore hr with hmem | hreaches
    · exact .inl (List.mem_append_left _ hmem)
    · rcases hcovered _ _ _ hpaged hreaches with hmem | hlater
      · exact .inl (List.mem_append_right _ (List.mem_filterMap.mpr ⟨rrs, hmem, hr⟩))
      · exact .inr hlater
  refine ⟨⟨hnamed, hshown, fun rrs r hcovered hr => ?_⟩, fun hlast => ?_⟩
  · exact (hcomplete rrs r hcovered hr).imp_right And.right
  · refine ⟨name, hnamed, hshown, fun rrs r hcovered hr => ?_⟩
    rcases hcomplete rrs r hcovered hr with hmem | ⟨htruncated, -⟩
    · exact hmem
    · rw [hlast] at htruncated
      cases htruncated

/-- The loop over the pages returns what they show. -/
private theorem obeys_listPages {id name : String} {client : Client} {zoneId : String} {fuel : Nat}
    {nextName : Option String} {nextType : Option RrType} {records : List ProviderRecord}
    {log : List (Sigma ZoneCmd.Reply)} (h : Collected id name log nextName nextType records) :
    Obeys (zoneRecorder id fun _ _ => True) (listPages client zoneId name fuel nextName nextType records) log
      fun x (log' : List (Sigma ZoneCmd.Reply)) => ∀ out, x = .ok (some out) →
        Shown id log' out := by
  -- by induction on the pages that may still be asked for; `Collected` holds before each
  induction fuel generalizing nextName nextType records log with
  | zero =>
    intro out hout
    cases hout
  | succ fuel ih =>
    refine .perform_bind trivial fun reply => ?_
    apply Obeys.liftExcept_bind
    · intro page hpage
      obtain rfl : reply = .ok page := by
        cases reply with
        | error e => cases hpage
        | ok p => exact congrArg _ (Except.ok.inj hpage)
      have hpaged : Paged id (log ++ [⟨⟨id, .listResourceRecordSets client zoneId nextName nextType
          none⟩, .ok page⟩]) nextName nextType page :=
        ⟨client, zoneId, none, List.mem_append_right _ List.mem_cons_self⟩
      obtain ⟨hcollected, hlast⟩ := h.page (List.subset_append_left _ _) hpaged
      split
      · exact ih hcollected
      · next htruncated =>
        intro out hout
        cases hout
        exact hlast (Bool.not_eq_true _ ▸ htruncated)
    · intro e _ out hout
      cases hout

variable [AwsSdk]

/-- `list_records` returns what its pages show, under the name it was told. -/
private theorem obeys_listRecords (id : String) (fuel : Nat) (creds : Credentials)
    (providerZoneId : String) :
    Obeys (zoneRecorder id fun _ _ => True) (listRecords fuel creds providerZoneId) []
      fun x (log : List (Sigma ZoneCmd.Reply)) => ∀ out, x = .ok (some out) →
        Shown id log out := by
  apply Obeys.liftExcept_bind
  · intro client _
    refine .bind ((obeys_zoneFqdn trivial).mono fun x log hnamed => ?_)
    cases x with
    | error e =>
      intro out hout
      cases hout
    | ok name =>
      -- the first page starts before all record sets
      exact obeys_listPages ⟨hnamed name rfl, List.forall_mem_nil _, fun _ _ _ _ => .inr trivial⟩
  · intro e _ out hout
    cases hout

/-- What the procedure of a listing returns was shown by the pages of the zone. -/
theorem shown_of_path [SerdeJson] {fuel : Nat} {b : ProviderBinding} {creds : Credentials}
    {p : Prog ZoneCmd ZoneCmd.Reply Empty (Option (Except ProviderError (List ProviderRecord)))}
    (hp : adapterCalls fuel (.sync (.listRecords b creds)) = some p)
    {inside : List (Sigma ZoneCmd.Reply)} {records : List ProviderRecord}
    (hpath : Path p inside (.ret (some (.ok records)))) :
    Shown b.id inside records := by
  have hlist : Obeys (recorder fun _ _ => True) ((listRecords fuel creds b.providerZoneId).embed
      (zoneCommands b.id)) [] fun x log => ∀ out, x = .ok (some out) →
        Shown b.id log out :=
    @Obeys.embed _ _ _ _ _ _ (zoneCommands b.id) (zoneRecorder b.id fun _ _ => True)
      (recorder fun _ _ => True) id (fun _ _ _ => trivial) (fun _ _ _ => rfl) _ _ _
      (obeys_listRecords b.id fuel creds b.providerZoneId)
  -- the procedure returns what the adapter does, or does not return
  have hcall : Obeys (recorder fun _ _ => True) p [] fun x log =>
      ∀ out, x = .ok (some (.ok out)) → Shown b.id log out := by
    cases hp
    refine .bind (.attempt (hlist.mono fun x log h => ?_))
    cases x with
    | error e =>
      intro out hout
      cases hout
    | ok found =>
      cases found with
      | none =>
        intro out hout
        cases hout
      | some found =>
        intro out hout
        cases hout
        exact h found rfl
  exact hcall.of_returned hpath records rfl

end Shown

/-! ## The hosted zones -/

section Zones

variable [Route53Order]

omit [Route53Order] in
/-- A request keeps the name of the hosted zone when its answer does. -/
private theorem name_request {α : Type} (env : Route53Env) (w : Route53World) (id : String)
    {answer : HostedZone → Except SdkError (α × HostedZone)}
    (h : ∀ reply zone, answer w.zone = .ok (reply, zone) → zone.name = w.zone.name) :
    (w.request env id answer).2.zone.name = w.zone.name := by
  unfold Route53World.request
  split
  · rfl
  · split
    · split
      · rfl
      · next hanswer => exact h _ _ hanswer
    · rfl

/-- No request changes the name of the hosted zone. -/
theorem name_handleRoute53 (env : Route53Env) (c : Route53Cmd) (w : Route53World) :
    (handleRoute53 env c w).2.zone.name = w.zone.name := by
  cases c with
  | getHostedZone client id =>
    refine name_request env w id fun reply zone h => ?_
    cases h
    rfl
  | listResourceRecordSets client id startName startType maxItems =>
    refine name_request env w id fun reply zone h => ?_
    cases h
    rfl
  | changeResourceRecordSets client id change =>
    refine name_request env w id fun reply zone h => ?_
    cases change with
    | upsert rrs =>
      cases h
      unfold HostedZone.upsert
      split <;> rfl
    | delete rrs =>
      -- a record set that is not there is refused
      dsimp only [HostedZone.change] at h
      split at h
      · next hchange =>
        split at hchange
        · cases hchange
          cases h
          rfl
        · cases hchange
      · cases h

/-- A page that is sent is one of the zone. -/
theorem page_of_answered {env : Route53Env} {w : Route53World} {client : Client}
    {zoneId : String} {nextName : Option String} {nextType : Option RrType} {maxItems : Option Nat}
    {page : ListPage}
    (h : (handleRoute53 env (.listResourceRecordSets client zoneId nextName nextType maxItems)
      w).1 = .ok page) :
    ∃ size, page = HostedZone.page (w.zone.setsFrom nextName nextType) size := by
  obtain ⟨-, zone, hanswer, -⟩ := Route53World.request_eq_ok (Prod.ext h rfl)
  cases hanswer
  exact ⟨_, rfl⟩

/-- The name that is told is that of the zone. -/
theorem name_of_told {env : Route53Env} {w : Route53World} {client : Client}
    {zoneId name : String}
    (h : (handleRoute53 env (.getHostedZone client zoneId) w).1 = .ok (some name)) :
    w.zone.name = name := by
  obtain ⟨-, zone, hanswer, -⟩ := Route53World.request_eq_ok (Prod.ext h rfl)
  cases hanswer
  rfl

end Zones

end DnsManager.Route53
