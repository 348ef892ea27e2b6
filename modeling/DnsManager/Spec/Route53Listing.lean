import DnsManager.Adapters.Route53.Adapter

/-!
# Listing a hosted zone

`list_records` asks for page after page until one is not truncated. Where a page ends
between two record sets of different names or types, the next request starts exactly at the
record set that follows.

## Key results
- `run_listRecords`: over such pages every run that is not out of requests reports the
  record sets of the zone, in order, and as many requests as there are record sets, and
  one, are enough.
- `cleanPages_of_sorted`: the pages of a zone whose names and types are distinct are such.
- `run_upsertRecord_eq_ok`: an accepted `upsert_record` has stored the record set of the record.
-/

namespace DnsManager.Route53

open Prog (liftExcept)

variable [Route53Order]

/-- The pages of the record sets `rest`, which follow the record sets `before`: none of them
    ends between two record sets that the service orders equally. -/
inductive CleanPages (pageSize : Nat → Nat) :
    (request : Nat) → (before rest : List ResourceRecordSet) → Prop where
  | last {request : Nat} {before rest : List ResourceRecordSet}
      (fits : rest.length ≤ pageSize request + 1) : CleanPages pageSize request before rest
  | cut {request : Nat} {before page rest : List ResourceRecordSet} {first : ResourceRecordSet}
      (length : page.length = pageSize request + 1)
      (clean : ∀ o ∈ before ++ page, Route53Order.le first.key o.key = false)
      (tail : CleanPages pageSize (request + 1) (before ++ page) (first :: rest)) :
      CleanPages pageSize request before (page ++ first :: rest)

theorem le_refl (k : SetKey) : Route53Order.le k k = true := by
  rcases Route53Order.le_total k k with h | h <;> exact h

/-- However a zone is cut into pages, if its record sets have distinct names and types and are
    in the order of the service. -/
theorem cleanPages_of_sorted (pageSize : Nat → Nat) (request : Nat)
    {before rest : List ResourceRecordSet}
    (h : (before ++ rest).Pairwise fun a b => Route53Order.le b.key a.key = false) :
    CleanPages pageSize request before rest := by
  by_cases hfits : rest.length ≤ pageSize request + 1
  · exact .last hfits
  · cases hdrop : rest.drop (pageSize request + 1) with
    | nil => exact absurd (List.drop_eq_nil_iff.mp hdrop) hfits
    | cons first tail =>
      have hsplit : rest.take (pageSize request + 1) ++ first :: tail = rest := by
        rw [← hdrop, List.take_append_drop]
      have hlength : (first :: tail).length < rest.length := by
        have := congrArg List.length hdrop
        rw [List.length_drop] at this
        omega
      have hall : ((before ++ rest.take (pageSize request + 1)) ++ first :: tail).Pairwise
          fun a b => Route53Order.le b.key a.key = false := by
        rw [List.append_assoc, hsplit]
        exact h
      rw [← hsplit]
      refine .cut (by rw [List.length_take]; omega) (fun o ho => ?_)
        (cleanPages_of_sorted pageSize (request + 1) hall)
      exact (List.pairwise_append.mp hall).2.2 o ho first List.mem_cons_self
termination_by rest.length

/-! ## Requests -/

omit [Route53Order] in
/-- A request that does not fail is answered. -/
theorem Route53World.request_ok {α : Type} {env : Route53Env} {w : Route53World} {id : String}
    {answer : HostedZone → Except SdkError (α × HostedZone)} {reply : α} {zone : HostedZone}
    (hok : env.failures w.requests = none) (hid : id = w.zone.id)
    (hanswer : answer w.zone = .ok (reply, zone)) :
    w.request env id answer = (.ok reply, { zone, requests := w.requests + 1 }) := by
  simp only [Route53World.request, hok, hid, if_true, hanswer]

omit [Route53Order] in
/-- A request that fails changes nothing. -/
theorem Route53World.request_error {α : Type} {env : Route53Env} {w : Route53World} {id : String}
    {answer : HostedZone → Except SdkError (α × HostedZone)} {e : SdkError}
    (hfail : env.failures w.requests = some e) :
    w.request env id answer = (.error e, { w with requests := w.requests + 1 }) := by
  simp only [Route53World.request, hfail]

omit [Route53Order] in
/-- A request that is answered has not failed. -/
theorem Route53World.request_eq_ok {α : Type} {env : Route53Env} {w w' : Route53World}
    {id : String} {answer : HostedZone → Except SdkError (α × HostedZone)} {reply : α}
    (h : w.request env id answer = (.ok reply, w')) :
    id = w.zone.id ∧ ∃ zone, answer w.zone = .ok (reply, zone) ∧
      w' = { zone, requests := w.requests + 1 } := by
  unfold Route53World.request at h
  split at h
  · exact nomatch congrArg Prod.fst h
  · split at h
    · next hid =>
      split at h
      · exact nomatch congrArg Prod.fst h
      · next hanswer =>
        cases h
        exact ⟨hid, _, hanswer, rfl⟩
    · exact nomatch congrArg Prod.fst h

@[simp] theorem run_send {ε : Type} (env : Route53Env) (c : Route53Cmd) (w : Route53World) :
    @Prog.run Route53Cmd Route53Cmd.Reply ε Route53World (no_index c.Reply) (handleRoute53 env)
      c.send w = (.ok (handleRoute53 env c w).1, (handleRoute53 env c w).2) := rfl

/-- The name of the hosted zone. -/
theorem run_zoneFqdn {env : Route53Env} {w : Route53World} (client : Client)
    (hok : env.failures w.requests = none) :
    (zoneFqdn client w.zone.id).run (handleRoute53 env) w =
      (.ok w.zone.name, { w with requests := w.requests + 1 }) := by
  have hrequest : handleRoute53 env (.getHostedZone client w.zone.id) w =
      (.ok (some w.zone.name), { w with requests := w.requests + 1 }) := by
    simp only [handleRoute53]
    exact Route53World.request_ok hok rfl rfl
  simp only [zoneFqdn, Prog.run_bind, run_send, hrequest, Except.mapError, Prog.run_liftExcept,
    Prog.run_pure]

/-- The name of the hosted zone is only found for the hosted zone. -/
theorem run_zoneFqdn_eq_ok {env : Route53Env} {w w' : Route53World} {client : Client}
    {zoneId name : String}
    (h : (zoneFqdn client zoneId).run (handleRoute53 env) w = (.ok name, w')) :
    zoneId = w.zone.id ∧ name = w.zone.name ∧ w' = { w with requests := w.requests + 1 } := by
  unfold zoneFqdn at h
  simp only [Prog.run_bind, run_send, handleRoute53] at h
  generalize hrequest : w.request env zoneId (fun zone => .ok (some zone.name, zone)) = x at h
  obtain ⟨reply, w₁⟩ := x
  cases reply with
  | error e => exact nomatch congrArg Prod.fst h
  | ok reply =>
    obtain ⟨hid, zone, hanswer, rfl⟩ := Route53World.request_eq_ok hrequest
    cases hanswer
    cases h
    exact ⟨hid, rfl, rfl⟩

/-- What every call does first: it builds a client and looks up the name of the hosted zone. -/
theorem run_open_eq_ok [AwsSdk] {β : Type} {env : Route53Env} {w w' : Route53World}
    {creds : Credentials} {providerZoneId : String} {k : Client → String → Route53M β} {b : β}
    (h : (liftExcept (buildClient creds) >>= fun client =>
      zoneFqdn client (normalizeZoneId providerZoneId) >>= k client).run (handleRoute53 env) w =
        (.ok b, w')) :
    normalizeZoneId providerZoneId = w.zone.id ∧ ∃ client, buildClient creds = .ok client ∧
      (k client w.zone.name).run (handleRoute53 env) { w with requests := w.requests + 1 } =
        (.ok b, w') := by
  obtain ⟨client, w₁, hbuild, h⟩ := (Prog.run_bind_eq_ok _).mp h
  obtain ⟨hclient, rfl⟩ : buildClient creds = .ok client ∧ w = w₁ := by simpa using hbuild
  obtain ⟨name, w₂, hname, h⟩ := (Prog.run_bind_eq_ok _).mp h
  obtain ⟨hid, rfl, rfl⟩ := run_zoneFqdn_eq_ok hname
  exact ⟨hid, client, hclient, h⟩

/-- An accepted `upsert_record` has put the record set of the record into the zone. -/
theorem run_upsertRecord_eq_ok [AwsSdk] {env : Route53Env} {w w' : Route53World}
    {creds : Credentials} {providerZoneId : String} {record : ProviderRecord}
    (h : (upsertRecord creds providerZoneId record).run (handleRoute53 env) w = (.ok (), w')) :
    normalizeZoneId providerZoneId = w.zone.id ∧ (∃ client, buildClient creds = .ok client) ∧
      w'.zone = w.zone.upsert (recordSet record w.zone.name) := by
  unfold upsertRecord at h
  obtain ⟨hid, client, hclient, h⟩ := run_open_eq_ok h
  refine ⟨hid, ⟨client, hclient⟩, ?_⟩
  simp only [Prog.run_bind, run_send, handleRoute53] at h
  generalize hrequest :
    Route53World.request env _ (normalizeZoneId providerZoneId) _ = x at h
  obtain ⟨reply, w₃⟩ := x
  cases reply with
  | error e => exact nomatch congrArg Prod.fst h
  | ok reply =>
    obtain ⟨-, zone, hanswer, rfl⟩ := Route53World.request_eq_ok hrequest
    cases hanswer
    cases h
    rfl

/-! ## The loop over the pages -/

/-- The answer to a listing request that starts where the record sets `rest` do. -/
theorem handle_list {env : Route53Env} {w : Route53World} {client : Client}
    {nextName : Option String} {nextType : Option RrType} {rest : List ResourceRecordSet}
    (hok : env.failures w.requests = none) (hfrom : w.zone.setsFrom nextName nextType = rest) :
    handleRoute53 env (.listResourceRecordSets client w.zone.id nextName nextType none) w =
      (.ok (HostedZone.page rest (env.pageSize w.requests + 1)),
        { w with requests := w.requests + 1 }) := by
  simp only [handleRoute53]
  exact Route53World.request_ok hok rfl (by rw [hfrom]; rfl)

/-- A listing that starts at a record set before which all others are strictly less. -/
private theorem setsFrom_cut {zone : HostedZone} {before rest : List ResourceRecordSet}
    {first : ResourceRecordSet} (hsets : zone.sets = before ++ first :: rest)
    (hclean : ∀ o ∈ before, Route53Order.le first.key o.key = false) :
    zone.setsFrom (some first.name) (some first.rrType) = first :: rest := by
  have hdropped : ∀ o ∈ before, (!Route53Order.le (first.name, first.rrType) o.key) = true := by
    intro o ho
    simpa [ResourceRecordSet.key] using hclean o ho
  change zone.sets.dropWhile _ = _
  rw [hsets, List.dropWhile_append_of_pos hdropped]
  have hhead : Route53Order.le (first.name, first.rrType) first.key = true := le_refl first.key
  exact List.dropWhile_cons_of_neg (by simp [hhead])

variable [UnicodeData]

/-- A page that holds all that remains ends the loop. -/
theorem run_listPages_last {env : Route53Env} {w : Route53World} (client : Client)
    (hok : env.failures w.requests = none) {nextName : Option String} {nextType : Option RrType}
    {rest : List ResourceRecordSet} (hfrom : w.zone.setsFrom nextName nextType = rest)
    (hfits : rest.length ≤ env.pageSize w.requests + 1) (zoneFqdn : String) (fuel : Nat)
    (records : List ProviderRecord) :
    (listPages client w.zone.id zoneFqdn (fuel + 1) nextName nextType records).run
        (handleRoute53 env) w =
      (.ok (some (records ++ rest.filterMap (reported zoneFqdn))),
        { w with requests := w.requests + 1 }) := by
  have hdrop : rest.drop (env.pageSize w.requests + 1) = [] := List.drop_eq_nil_iff.mpr hfits
  simp only [listPages, Prog.run_bind, run_send, handle_list hok hfrom, Except.mapError,
    Prog.run_liftExcept, HostedZone.page, hdrop, List.take_of_length_le hfits, List.isEmpty_nil,
    Bool.not_true, Bool.false_eq_true, if_false, Prog.run_pure]

/-- After a full page the loop goes on at the first record set that does not fit. -/
theorem run_listPages_cut {env : Route53Env} {w : Route53World} (client : Client)
    (hok : env.failures w.requests = none) {nextName : Option String} {nextType : Option RrType}
    {page rest : List ResourceRecordSet} {first : ResourceRecordSet}
    (hfrom : w.zone.setsFrom nextName nextType = page ++ first :: rest)
    (hlength : page.length = env.pageSize w.requests + 1) (zoneFqdn : String) (fuel : Nat)
    (records : List ProviderRecord) :
    (listPages client w.zone.id zoneFqdn (fuel + 1) nextName nextType records).run
        (handleRoute53 env) w =
      (listPages client w.zone.id zoneFqdn fuel (some first.name) (some first.rrType)
        (records ++ page.filterMap (reported zoneFqdn))).run (handleRoute53 env)
          { w with requests := w.requests + 1 } := by
  have htake : (page ++ first :: rest).take (env.pageSize w.requests + 1) = page := by
    rw [← hlength, List.take_left]
  have hdrop : (page ++ first :: rest).drop (env.pageSize w.requests + 1) = first :: rest := by
    rw [← hlength, List.drop_left]
  simp only [listPages, Prog.run_bind, run_send, handle_list hok hfrom, Except.mapError,
    Prog.run_liftExcept, HostedZone.page, hdrop, htake, List.isEmpty_cons, Bool.not_false,
    if_true, List.head?_cons, Option.map_some]

/-- The loop over clean pages uses up its requests or reports all that remains. -/
theorem run_listPages {env : Route53Env} (hok : ∀ n, env.failures n = none) (client : Client)
    {before rest : List ResourceRecordSet} {request : Nat}
    (hpages : CleanPages env.pageSize request before rest) {w : Route53World}
    (hrequest : w.requests = request) (hsets : w.zone.sets = before ++ rest)
    {nextName : Option String} {nextType : Option RrType}
    (hfrom : w.zone.setsFrom nextName nextType = rest) (zoneFqdn : String) (fuel : Nat)
    (records : List ProviderRecord) :
    ∃ w', (listPages client w.zone.id zoneFqdn fuel nextName nextType records).run
        (handleRoute53 env) w = (.ok none, w') ∧ fuel ≤ rest.length ∨
      (listPages client w.zone.id zoneFqdn fuel nextName nextType records).run
        (handleRoute53 env) w = (.ok (some (records ++ rest.filterMap (reported zoneFqdn))), w') := by
  induction hpages generalizing w nextName nextType fuel records with
  | last fits =>
    next request before rest =>
    cases fuel with
    | zero => exact ⟨w, .inl ⟨rfl, Nat.zero_le _⟩⟩
    | succ fuel =>
      subst hrequest
      exact ⟨{ w with requests := w.requests + 1 }, .inr
        (run_listPages_last client (hok _) hfrom fits zoneFqdn fuel records)⟩
  | cut length clean tail ih =>
    next request before page rest first =>
    cases fuel with
    | zero => exact ⟨w, .inl ⟨rfl, Nat.zero_le _⟩⟩
    | succ fuel =>
      -- the page is `page`; the next request starts at `first`, so again at the rest
      subst hrequest
      have hsets' : w.zone.sets = (before ++ page) ++ first :: rest := by
        rw [hsets, List.append_assoc]
      have hrec := ih (w := { w with requests := w.requests + 1 }) rfl hsets'
        (setsFrom_cut hsets' clean) fuel (records ++ page.filterMap (reported zoneFqdn))
      rw [run_listPages_cut client (hok _) hfrom length]
      obtain ⟨w', ⟨hnone, hfuel⟩ | hsome⟩ := hrec
      -- each page holds a record set, so the requests never outnumber them
      · refine ⟨w', .inl ⟨hnone, ?_⟩⟩
        rw [List.length_append]
        omega
      · refine ⟨w', .inr (hsome.trans ?_)⟩
        rw [List.filterMap_append, List.append_assoc]

/-- Over clean pages every listing that is not out of requests reports the record sets of the
    zone in order, and one with more requests than there are record sets is not. -/
theorem run_listRecords [AwsSdk] {env : Route53Env} (hok : ∀ n, env.failures n = none)
    {w : Route53World} (hpages : CleanPages env.pageSize (w.requests + 1) [] w.zone.sets)
    {creds : Credentials} {client : Client} (hclient : buildClient creds = .ok client)
    {providerZoneId : String} (hid : normalizeZoneId providerZoneId = w.zone.id) (fuel : Nat) :
    ∃ w', (listRecords fuel creds providerZoneId).run (handleRoute53 env) w = (.ok none, w') ∧
        fuel ≤ w.zone.sets.length ∨
      (listRecords fuel creds providerZoneId).run (handleRoute53 env) w =
        (.ok (some (w.zone.sets.filterMap (reported w.zone.name))), w') := by
  have hrun : (listRecords fuel creds providerZoneId).run (handleRoute53 env) w =
      (listPages client w.zone.id w.zone.name fuel none none []).run (handleRoute53 env)
        { w with requests := w.requests + 1 } := by
    simp only [listRecords, hclient, hid, Prog.run_bind, Prog.run_liftExcept,
      run_zoneFqdn client (hok _)]
  rw [hrun]
  exact run_listPages hok client hpages (w := { w with requests := w.requests + 1 }) rfl rfl rfl
    w.zone.name fuel []

/-! ## What a listing can show -/

omit [Route53Order] in
/-- The record sets `list_records` reports: of a supported type, no alias, with a time to
    live. -/
theorem reported_isSome_iff {zoneFqdn : String} {rrs : ResourceRecordSet} :
    (reported zoneFqdn rrs).isSome = true ↔
      (rrTypeToRecordType rrs.rrType).isSome = true ∧ rrs.aliasTarget = none ∧
        rrs.ttl.isSome = true := by
  unfold reported
  cases rrTypeToRecordType rrs.rrType <;> cases rrs.aliasTarget <;> cases rrs.ttl <;> simp

omit [UnicodeData] in
theorem HostedZone.mem_of_mem_setsFrom {zone : HostedZone} {startName : Option String}
    {startType : Option RrType} {rrs : ResourceRecordSet}
    (h : rrs ∈ zone.setsFrom startName startType) : rrs ∈ zone.sets := by
  unfold setsFrom at h
  split at h
  · exact (List.dropWhile_sublist _).mem h
  · exact h

omit [UnicodeData] in
/-- An answered listing request shows a page of the zone and changes nothing. -/
theorem run_list_eq_ok {β : Type} {env : Route53Env} {w w' : Route53World} {client : Client}
    {zoneId : String} {nextName : Option String} {nextType : Option RrType} {maxItems : Option Nat}
    {k : ListPage → Route53M β} {b : β}
    (h : ((Route53Cmd.listResourceRecordSets client zoneId nextName nextType maxItems).send >>=
      fun reply => liftExcept (reply.mapError mapSdkError) >>= k).run (handleRoute53 env) w =
        (.ok b, w')) :
    (k (HostedZone.page (w.zone.setsFrom nextName nextType)
      (maxItems.elim (env.pageSize w.requests + 1) (min (env.pageSize w.requests + 1))))).run
        (handleRoute53 env) { w with requests := w.requests + 1 } = (.ok b, w') := by
  simp only [Prog.run_bind, run_send, handleRoute53] at h
  generalize hrequest : w.request env zoneId _ = x at h
  obtain ⟨reply, w₁⟩ := x
  cases reply with
  | error e => cases congrArg Prod.fst h
  | ok page =>
    obtain ⟨-, zone, hanswer, rfl⟩ := Route53World.request_eq_ok hrequest
    cases hanswer
    exact h

/-- The loop adds records of record sets of the zone only, and does not change the zone. -/
theorem run_listPages_eq_ok {env : Route53Env} {w w' : Route53World} {client : Client}
    {zoneId zoneFqdn : String} {fuel : Nat} {nextName : Option String} {nextType : Option RrType}
    {records out : List ProviderRecord}
    (h : (listPages client zoneId zoneFqdn fuel nextName nextType records).run (handleRoute53 env)
      w = (.ok (some out), w')) :
    w'.zone = w.zone ∧
      ∀ r ∈ out, r ∈ records ∨ ∃ rrs ∈ w.zone.sets, reported zoneFqdn rrs = some r := by
  induction fuel generalizing w nextName nextType records with
  | zero => cases congrArg Prod.fst h
  | succ fuel ih =>
    have hpage := run_list_eq_ok h
    have hnew : ∀ size, ∀ r ∈ records ++ ((HostedZone.page (w.zone.setsFrom nextName nextType)
        size).resourceRecordSets).filterMap (reported zoneFqdn),
        r ∈ records ∨ ∃ rrs ∈ w.zone.sets, reported zoneFqdn rrs = some r := by
      intro size r hr
      rcases List.mem_append.mp hr with hr | hr
      · exact .inl hr
      · obtain ⟨rrs, hrrs, hreported⟩ := List.mem_filterMap.mp hr
        exact .inr ⟨rrs, HostedZone.mem_of_mem_setsFrom ((List.take_sublist _ _).mem hrrs), hreported⟩
    split at hpage
    · obtain ⟨hzone, hout⟩ := ih hpage
      refine ⟨hzone, fun r hr => ?_⟩
      rcases hout r hr with hr | hr
      · exact hnew _ r hr
      · exact .inr hr
    · rw [Prog.run_pure] at hpage
      cases hpage
      exact ⟨rfl, hnew _⟩

/-- `list_records` reports records of record sets of the zone only, and does not change it. -/
theorem run_listRecords_eq_ok [AwsSdk] {env : Route53Env} {w w' : Route53World} {fuel : Nat}
    {creds : Credentials} {providerZoneId : String} {records : List ProviderRecord}
    (h : (listRecords fuel creds providerZoneId).run (handleRoute53 env) w =
      (.ok (some records), w')) :
    w'.zone = w.zone ∧
      ∀ r ∈ records, ∃ rrs ∈ w.zone.sets, reported w.zone.name rrs = some r := by
  unfold listRecords at h
  obtain ⟨-, client, -, h⟩ := run_open_eq_ok h
  obtain ⟨hzone, hout⟩ := run_listPages_eq_ok h
  exact ⟨hzone, fun r hr => (hout r hr).resolve_left (List.not_mem_nil)⟩

/-- Some run of `list_records` reports every record set of the zone. -/
theorem exists_run_listRecords [AwsSdk] (w : Route53World) {creds : Credentials} {client : Client}
    (hclient : buildClient creds = .ok client) {providerZoneId : String}
    (hid : normalizeZoneId providerZoneId = w.zone.id) :
    ∃ (env : Route53Env) (fuel : Nat) (w' : Route53World), (∀ n, env.failures n = none) ∧
      (listRecords fuel creds providerZoneId).run (handleRoute53 env) w =
        (.ok (some (w.zone.sets.filterMap (reported w.zone.name))), w') := by
  -- a service with one page for the whole zone
  let env : Route53Env := ⟨fun _ => none, fun _ => ⟨.other, ""⟩, fun _ => ⟨.other, ""⟩,
    fun _ => w.zone.sets.length⟩
  have hok : ∀ n, env.failures n = none := fun _ => rfl
  have hpages : CleanPages env.pageSize (w.requests + 1) [] w.zone.sets :=
    .last (Nat.le_succ w.zone.sets.length)
  obtain ⟨w', ⟨-, hfuel⟩ | hrun⟩ := run_listRecords hok hpages hclient hid
    (w.zone.sets.length + 1)
  · omega
  · exact ⟨env, _, w', hok, hrun⟩

end DnsManager.Route53
