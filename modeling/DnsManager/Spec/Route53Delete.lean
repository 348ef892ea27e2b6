import DnsManager.Spec.Route53Listing
import DnsManager.Spec.Sample

/-!
# What a delete removes

`delete_record` looks at one record set, the first at or after the name and type of the key,
and deletes it when it has both. `list_records` reports record sets under a key by other rules:
it skips aliases, and it reports every record set of the name and type.

## Key results
- `run_deleteRecord_eq_ok`: what a `delete_record` that returns `Ok` has done to the zone.
- `deleteRecord_exact_iff`: it removed what was reported under the key, and nothing else, exactly
  when that was one record set, which it found and deleted, or nothing, and it deleted nothing.
-/

namespace DnsManager.Route53

open Prog (liftExcept)

section Delete

variable [Route53Order]

/-- The record set `delete_record` deletes for a key: the first at or after its name and type,
    when it has both. -/
def HostedZone.found (zone : HostedZone) (key : RecordKey) : Option ResourceRecordSet :=
  let fqdn := toFqdn key.name zone.name
  let rrType := recordTypeToRrType key.recordType
  (zone.setsFrom (some fqdn) (some rrType)).head?.filter fun rrs =>
    fqdnsEqual rrs.name fqdn && rrs.rrType == rrType

theorem HostedZone.mem_of_found {zone : HostedZone} {key : RecordKey} {rrs : ResourceRecordSet}
    (h : zone.found key = some rrs) : rrs ∈ zone.sets :=
  HostedZone.mem_of_mem_setsFrom (List.mem_of_head? (Option.eq_some_of_filter_eq_some h))

omit [Route53Order] in
private theorem find?_take_one (p : ResourceRecordSet → Bool) (sets : List ResourceRecordSet) :
    (sets.take 1).find? p = sets.head?.filter p := by
  cases sets with
  | nil => rfl
  | cons rrs rest => cases hp : p rrs <;> simp [Option.filter, hp]

/-- The page of one item holds what is found. -/
theorem find?_page_one (zone : HostedZone) (key : RecordKey) (size : Nat) :
    (HostedZone.page (zone.setsFrom (some (toFqdn key.name zone.name))
      (some (recordTypeToRrType key.recordType))) (min (size + 1) 1)).resourceRecordSets.find?
        (fun rrs => fqdnsEqual rrs.name (toFqdn key.name zone.name) &&
          rrs.rrType == recordTypeToRrType key.recordType) = zone.found key := by
  have hone : min (size + 1) 1 = 1 := by omega
  rw [hone]
  exact find?_take_one _ _

variable [AwsSdk]

/-- A `delete_record` that returns `Ok` found nothing, deleted what it found, or took the failure
    of its request for a missing record set. -/
theorem run_deleteRecord_eq_ok {env : Route53Env} {w w' : Route53World} {creds : Credentials}
    {providerZoneId : String} {key : RecordKey}
    (h : (deleteRecord creds providerZoneId key).run (handleRoute53 env) w = (.ok (), w')) :
    normalizeZoneId providerZoneId = w.zone.id ∧ (∃ client, buildClient creds = .ok client) ∧
      ((w.zone.found key = none ∧ w'.zone = w.zone) ∨
        ∃ rrs, w.zone.found key = some rrs ∧
          ((env.failures (w.requests + 2) = none ∧
              w'.zone = { w.zone with sets := w.zone.sets.erase rrs }) ∨
            (∃ e, env.failures (w.requests + 2) = some e ∧ isRecordNotFound e.display = true ∧
              w'.zone = w.zone))) := by
  unfold deleteRecord at h
  obtain ⟨hid, client, hclient, h⟩ := run_open_eq_ok h
  refine ⟨hid, ⟨client, hclient⟩, ?_⟩
  have hpage := run_list_eq_ok h
  simp only [Option.elim_some] at hpage
  rw [find?_page_one] at hpage
  cases hfound : w.zone.found key with
  | none =>
    rw [hfound] at hpage
    cases hpage
    exact .inl ⟨rfl, rfl⟩
  | some rrs =>
    rw [hfound] at hpage
    refine .inr ⟨rrs, rfl, ?_⟩
    have hmem := HostedZone.mem_of_found hfound
    -- the third request deletes what the second one has found
    cases hfail : env.failures (w.requests + 2) with
    | none =>
      have hreply : handleRoute53 env (.changeResourceRecordSets client
          (normalizeZoneId providerZoneId) (.delete rrs)) ⟨w.zone, w.requests + 1 + 1⟩ =
            (.ok (), ⟨{ w.zone with sets := w.zone.sets.erase rrs }, w.requests + 1 + 1 + 1⟩) := by
        simp only [handleRoute53]
        exact Route53World.request_ok (w := ⟨w.zone, w.requests + 1 + 1⟩) hfail hid
          (by simp only [HostedZone.change, if_pos hmem])
      simp only [Prog.run_bind, run_send, hreply] at hpage
      cases hpage
      exact .inl ⟨rfl, rfl⟩
    | some e =>
      have hreply : handleRoute53 env (.changeResourceRecordSets client
          (normalizeZoneId providerZoneId) (.delete rrs)) ⟨w.zone, w.requests + 1 + 1⟩ =
            (.error e, ⟨w.zone, w.requests + 1 + 1 + 1⟩) := by
        simp only [handleRoute53]
        exact Route53World.request_error (w := ⟨w.zone, w.requests + 1 + 1⟩) hfail
      simp only [Prog.run_bind, run_send, hreply] at hpage
      by_cases hmissing : isRecordNotFound e.display = true
      · rw [if_pos hmissing] at hpage
        cases hpage
        exact .inr ⟨e, rfl, hmissing, rfl⟩
      · rw [if_neg hmissing] at hpage
        cases congrArg Prod.fst hpage

variable [UnicodeData]

/-- `list_records` reports the record set under the key. -/
def HostedZone.reportsUnder (zone : HostedZone) (key : RecordKey) (rrs : ResourceRecordSet) :
    Bool :=
  (reported zone.name rrs).any fun r => r.key = key

omit [AwsSdk] [Route53Order] in
theorem HostedZone.reportsUnder_iff {zone : HostedZone} {key : RecordKey}
    {rrs : ResourceRecordSet} :
    zone.reportsUnder key rrs = true ↔ ∃ r, reported zone.name rrs = some r ∧ r.key = key := by
  simp [HostedZone.reportsUnder, Option.any_eq_true]

/-- The service has removed what was reported under the key, and nothing else: no listing reports
    a record with the key, and the record sets that were not reported under it are the same. -/
structure DeletedExactly (creds : Credentials) (providerZoneId : String) (key : RecordKey)
    (w w' : Route53World) : Prop where
  absent : ∀ env fuel records w'', (listRecords fuel creds providerZoneId).run (handleRoute53 env)
    w' = (.ok (some records), w'') → ∀ r ∈ records, r.key ≠ key
  others : (w'.zone.sets.filter fun rrs => !w.zone.reportsUnder key rrs) =
    w.zone.sets.filter fun rrs => !w.zone.reportsUnder key rrs

/-- No listing reports a record with the key when no record set is reported under it. -/
theorem absent_iff {w : Route53World} {creds : Credentials} {client : Client}
    (hclient : buildClient creds = .ok client) {providerZoneId : String}
    (hid : normalizeZoneId providerZoneId = w.zone.id) (key : RecordKey) :
    (∀ env fuel records w'', (listRecords fuel creds providerZoneId).run (handleRoute53 env) w =
      (.ok (some records), w'') → ∀ r ∈ records, r.key ≠ key) ↔
    w.zone.sets.filter (w.zone.reportsUnder key) = [] := by
  rw [List.filter_eq_nil_iff]
  constructor
  · intro hall rrs hrrs hunder
    obtain ⟨r, hr, hkey⟩ := HostedZone.reportsUnder_iff.mp hunder
    obtain ⟨env, fuel, w'', -, hrun⟩ := exists_run_listRecords w hclient hid
    exact hall env fuel _ w'' hrun r (List.mem_filterMap.mpr ⟨rrs, hrrs, hr⟩) hkey
  · intro hnone env fuel records w'' hrun r hr hkey
    obtain ⟨-, hreported⟩ := run_listRecords_eq_ok hrun
    obtain ⟨rrs, hrrs, hr⟩ := hreported r hr
    exact hnone rrs hrrs (HostedZone.reportsUnder_iff.mpr ⟨r, hr, hkey⟩)

omit [AwsSdk] [Route53Order] in
/-- Without the record set nothing is reported under the key, and all that is not reported under
    it remains, exactly when it was the only record set reported under the key. -/
theorem erase_exact_iff {zone : HostedZone} {key : RecordKey} {rrs : ResourceRecordSet}
    (hmem : rrs ∈ zone.sets) :
    ((zone.sets.erase rrs).filter (zone.reportsUnder key) = [] ∧
      ((zone.sets.erase rrs).filter fun o => !zone.reportsUnder key o) =
        zone.sets.filter fun o => !zone.reportsUnder key o) ↔
      zone.sets.filter (zone.reportsUnder key) = [rrs] := by
  obtain ⟨before, rest, -, hsets, herase⟩ := List.exists_erase_eq hmem
  rw [herase, hsets]
  cases hunder : zone.reportsUnder key rrs with
  | true =>
    simp only [List.filter_append, List.filter_cons, hunder, if_true, Bool.not_true,
      Bool.false_eq_true, if_false, and_true]
    constructor
    · intro hnil
      obtain ⟨hbefore, hrest⟩ := List.append_eq_nil_iff.mp hnil
      rw [hbefore, hrest, List.nil_append]
    · intro hone
      have hlength := congrArg List.length hone
      rw [List.length_append, List.length_cons, List.length_singleton] at hlength
      exact List.eq_nil_of_length_eq_zero (by rw [List.length_append]; omega)
  | false =>
    constructor
    · rintro ⟨-, hothers⟩
      -- the record set that was deleted was not reported under the key
      have hlength := congrArg List.length hothers
      simp only [List.filter_append, List.filter_cons, hunder, Bool.not_false, if_true,
        List.length_append, List.length_cons] at hlength
      omega
    · intro hone
      have hin : rrs ∈ (before ++ rrs :: rest).filter (zone.reportsUnder key) := by
        rw [hone]
        exact List.mem_singleton_self rrs
      rw [(List.mem_filter.mp hin).2] at hunder
      cases hunder

/-- A `delete_record` that returns `Ok` has removed what was reported under the key, and nothing
    else, exactly when nothing was reported and it deleted nothing, or when one record set was
    reported, which it found and deleted. -/
theorem deleteRecord_exact_iff {env : Route53Env} {w w' : Route53World} {creds : Credentials}
    {providerZoneId : String} {key : RecordKey}
    (h : (deleteRecord creds providerZoneId key).run (handleRoute53 env) w = (.ok (), w')) :
    DeletedExactly creds providerZoneId key w w' ↔
      (w.zone.sets.filter (w.zone.reportsUnder key) = [] ∧
        (w.zone.found key = none ∨ env.failures (w.requests + 2) ≠ none)) ∨
      (∃ rrs, w.zone.found key = some rrs ∧
        w.zone.sets.filter (w.zone.reportsUnder key) = [rrs] ∧
        env.failures (w.requests + 2) = none) := by
  obtain ⟨hid, ⟨client, hclient⟩, hcases⟩ := run_deleteRecord_eq_ok h
  have hname : w'.zone.name = w.zone.name ∧ w'.zone.id = w.zone.id := by
    rcases hcases with ⟨-, hzone⟩ | ⟨rrs, -, ⟨-, hzone⟩ | ⟨-, -, -, hzone⟩⟩ <;>
      simp only [hzone, and_self]
  have hsplit : DeletedExactly creds providerZoneId key w w' ↔
      w'.zone.sets.filter (w.zone.reportsUnder key) = [] ∧
        (w'.zone.sets.filter fun rrs => !w.zone.reportsUnder key rrs) =
          w.zone.sets.filter fun rrs => !w.zone.reportsUnder key rrs := by
    have habsent := absent_iff hclient (hid.trans hname.2.symm) key (w := w')
    have hunder : w'.zone.reportsUnder key = w.zone.reportsUnder key := by
      unfold HostedZone.reportsUnder
      rw [hname.1]
    rw [hunder] at habsent
    exact ⟨fun h => ⟨habsent.mp h.absent, h.others⟩, fun h => ⟨habsent.mpr h.1, h.2⟩⟩
  rw [hsplit]
  rcases hcases with ⟨hnone, hzone⟩ | ⟨rrs, hfound, ⟨hok, hzone⟩ | ⟨e, hfail, -, hzone⟩⟩
  · -- nothing was found
    rw [hzone, hnone]
    simp
  · rw [hzone, erase_exact_iff (HostedZone.mem_of_found hfound), hfound, hok]
    simp
  · -- the request failed, and the record set that was found is still there
    rw [hzone, hfound, hfail]
    simp

end Delete

section Sample

open DnsManager.Sample

/-- An alias `www`, which has no time to live. -/
def wwwAlias : ResourceRecordSet :=
  ⟨"www.example.com.", .a, none, none, some "lb.example.net.", []⟩

/-- The service after the `A` record `www` was deleted from a zone with the given record sets. -/
def deleted (sets : List ResourceRecordSet) : Except ProviderError Unit × Route53World :=
  (deleteRecord credentials "Z1" ⟨"www", .a⟩).run (handleRoute53 route53Env) { zone := hosted sets }

theorem eq_ok_deleted {sets : List ResourceRecordSet} (h : (deleted sets).1 = .ok ()) :
    (deleteRecord credentials "Z1" ⟨"www", .a⟩).run (handleRoute53 route53Env)
      { zone := hosted sets } = (.ok (), (deleted sets).2) :=
  Prod.ext h rfl

/-- A plain record set is deleted, and nothing else. -/
theorem deleteRecord_exact_plain :
    DeletedExactly credentials "Z1" ⟨"www", .a⟩
      { zone := hosted (hostedZone.sets ++ [wwwSet none "192.0.2.1"]) }
      (deleted (hostedZone.sets ++ [wwwSet none "192.0.2.1"])).2 :=
  (deleteRecord_exact_iff (eq_ok_deleted (by decide +kernel))).mpr
    (.inr ⟨wwwSet none "192.0.2.1", by decide +kernel, by decide +kernel, rfl⟩)

/-- Of two record sets with set identifiers one is left and still reported; an alias, which was
    never reported, is gone. -/
theorem deleteRecord_inexact :
    ((deleted [wwwSet (some "blue") "192.0.2.1", wwwSet (some "green") "192.0.2.2"]).1 = .ok () ∧
      ¬ DeletedExactly credentials "Z1" ⟨"www", .a⟩
        { zone := hosted [wwwSet (some "blue") "192.0.2.1", wwwSet (some "green") "192.0.2.2"] }
        (deleted [wwwSet (some "blue") "192.0.2.1", wwwSet (some "green") "192.0.2.2"]).2) ∧
    (deleted [wwwAlias]).1 = .ok () ∧
      ¬ DeletedExactly credentials "Z1" ⟨"www", .a⟩ { zone := hosted [wwwAlias] }
        (deleted [wwwAlias]).2 := by
  refine ⟨⟨by decide +kernel, fun h => ?_⟩, by decide +kernel, fun h => ?_⟩
  · have hid : normalizeZoneId "Z1" = (deleted [wwwSet (some "blue") "192.0.2.1",
        wwwSet (some "green") "192.0.2.2"]).2.zone.id := by decide +kernel
    obtain ⟨env, fuel, w', -, hrun⟩ := exists_run_listRecords _ buildClient_credentials hid
    have hstill : ∃ r ∈ (deleted [wwwSet (some "blue") "192.0.2.1",
        wwwSet (some "green") "192.0.2.2"]).2.zone.sets.filterMap (reported "example.com."),
        r.key = ⟨"www", .a⟩ := by decide +kernel
    obtain ⟨r, hr, hkey⟩ := hstill
    exact h.absent env fuel _ w' hrun r hr hkey
  · exact absurd h.others (by decide +kernel)

end Sample

end DnsManager.Route53
