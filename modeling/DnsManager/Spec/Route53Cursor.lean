import DnsManager.Spec.Route53Listing
import DnsManager.Spec.Sample

/-!
# When a listing over pages is complete

The next request of `list_records` starts at the name and type of the record set that follows
the page. Route53 may hold several record sets of one name and type, told apart by their set
identifiers, and the request has no identifier: it lists the whole group again.

## Key results
- `run_listRecords_collected`: what the loop returns, as a function of the zone and the pages.
- `collected_eq_iff`: nothing is missing or reported twice exactly over `WholePages`.
- `listRecords_complete_iff`: the same for `list_records`.
-/

namespace DnsManager.Route53

open Prog (liftExcept)

section Listing

variable [Route53Order]

/-- A request lists the end of the zone. -/
theorem HostedZone.setsFrom_suffix (zone : HostedZone) (first : ResourceRecordSet) :
    zone.setsFrom (some first.name) (some first.rrType) <:+ zone.sets :=
  List.dropWhile_suffix _

/-- A request that starts at a record set of the zone lists it and what follows it, and may list
    some of what precedes it again. -/
theorem HostedZone.setsFrom_mem {zone : HostedZone} {before rest : List ResourceRecordSet}
    {first : ResourceRecordSet} (hsets : zone.sets = before ++ first :: rest) :
    ∃ again,
      zone.setsFrom (some first.name) (some first.rrType) = again ++ first :: rest := by
  let p : ResourceRecordSet → Bool := fun o => !Route53Order.le (first.name, first.rrType) o.key
  have hfirst : p first = false := by
    change (!Route53Order.le first.key first.key) = false
    rw [le_refl]
    rfl
  refine ⟨before.dropWhile p, ?_⟩
  change zone.sets.dropWhile p = _
  rw [hsets, List.dropWhile_append]
  cases hdrop : before.dropWhile p with
  | nil => rw [List.isEmpty_nil, if_pos rfl, List.dropWhile_cons_of_neg (by simp [hfirst])]; rfl
  | cons o os => rw [List.isEmpty_cons, if_neg (by decide)]

variable [UnicodeData] (zone : HostedZone) (pageSize : Nat → Nat)

/-- The records the loop collects from where it lists the record sets `rest`, if it ends within
    `fuel` requests. -/
def collected : (fuel request : Nat) → (rest : List ResourceRecordSet) →
    Option (List ProviderRecord)
  | 0, _, _ => none
  | fuel + 1, request, rest =>
    let page := (rest.take (pageSize request + 1)).filterMap (reported zone.name)
    match rest.drop (pageSize request + 1) with
    | [] => some page
    | first :: _ => (collected fuel (request + 1)
        (zone.setsFrom (some first.name) (some first.rrType))).map (page ++ ·)

/-- The pages from where the record sets `rest` are listed: in the end one page holds all that
    remains, and before that no record set is listed again that is reported. -/
inductive WholePages : (request : Nat) → (rest : List ResourceRecordSet) → Prop where
  | last {request : Nat} {rest : List ResourceRecordSet}
      (fits : rest.length ≤ pageSize request + 1) : WholePages request rest
  | cut {request : Nat} {page again rest : List ResourceRecordSet} {first : ResourceRecordSet}
      (length : page.length = pageSize request + 1)
      (start : zone.setsFrom (some first.name) (some first.rrType) = again ++ first :: rest)
      (skipped : ∀ o ∈ again, reported zone.name o = none)
      (tail : WholePages (request + 1) (again ++ first :: rest)) :
      WholePages request (page ++ first :: rest)

variable {zone pageSize}

/-- A page that holds all that remains ends the loop. -/
theorem collected_last {fuel request : Nat} {rest : List ResourceRecordSet}
    (fits : rest.length ≤ pageSize request + 1) :
    collected zone pageSize (fuel + 1) request rest =
      some (rest.filterMap (reported zone.name)) := by
  have hdrop : rest.drop (pageSize request + 1) = [] := List.drop_eq_nil_iff.mpr fits
  simp only [collected, hdrop, List.take_of_length_le fits]

/-- After another page the loop goes on at the name and type of the record set that follows. -/
theorem collected_cut {fuel request : Nat} {page rest : List ResourceRecordSet}
    {first : ResourceRecordSet} (length : page.length = pageSize request + 1) :
    collected zone pageSize (fuel + 1) request (page ++ first :: rest) =
      (collected zone pageSize fuel (request + 1)
        (zone.setsFrom (some first.name) (some first.rrType))).map
          (page.filterMap (reported zone.name) ++ ·) := by
  have htake : (page ++ first :: rest).take (pageSize request + 1) = page := by
    rw [← length, List.take_left]
  have hdrop : (page ++ first :: rest).drop (pageSize request + 1) = first :: rest := by
    rw [← length, List.drop_left]
  simp only [collected, htake, hdrop]

omit [Route53Order] [UnicodeData] in
/-- A list fits the page, or is the page and a rest that is not empty. -/
theorem page_cases (pageSize : Nat → Nat) (request : Nat) (sets : List ResourceRecordSet) :
    sets.length ≤ pageSize request + 1 ∨
      ∃ page first rest, sets = page ++ first :: rest ∧ page.length = pageSize request + 1 := by
  by_cases hfits : sets.length ≤ pageSize request + 1
  · exact .inl hfits
  · cases hdrop : sets.drop (pageSize request + 1) with
    | nil => exact absurd (List.drop_eq_nil_iff.mp hdrop) hfits
    | cons first rest =>
      refine .inr ⟨sets.take (pageSize request + 1), first, rest, ?_, ?_⟩
      · rw [← hdrop, List.take_append_drop]
      · rw [List.length_take]
        omega

/-- Nothing is missing from what the loop collects. -/
theorem sublist_of_collected {fuel request : Nat} {rest : List ResourceRecordSet}
    (hrest : rest <:+ zone.sets) {records : List ProviderRecord}
    (h : collected zone pageSize fuel request rest = some records) :
    (rest.filterMap (reported zone.name)).Sublist records := by
  induction fuel generalizing request rest records with
  | zero => cases h
  | succ fuel ih =>
    rcases page_cases pageSize request rest with
      hfits | ⟨page, first, rest, rfl, hlength⟩
    · rw [collected_last hfits] at h
      cases h
      exact List.Sublist.refl _
    · obtain ⟨before, hsets⟩ := hrest
      rw [← List.append_assoc] at hsets
      obtain ⟨again, hstart⟩ := HostedZone.setsFrom_mem hsets.symm
      rw [collected_cut hlength, hstart] at h
      obtain ⟨tail, htail, rfl⟩ := Option.map_eq_some_iff.mp h
      have hsuffix := hstart ▸ zone.setsFrom_suffix first
      rw [List.filterMap_append]
      refine List.Sublist.append_left (List.Sublist.trans ?_ (ih hsuffix htail)) _
      rw [List.filterMap_append]
      exact List.sublist_append_right _ _

/-- The loop collects the records of all that remains, each once, exactly over `WholePages`. -/
theorem collected_eq_iff {request : Nat} {rest : List ResourceRecordSet}
    (hrest : rest <:+ zone.sets) :
    (∃ fuel, collected zone pageSize fuel request rest =
      some (rest.filterMap (reported zone.name))) ↔ WholePages zone pageSize request rest := by
  constructor
  · rintro ⟨fuel, h⟩
    induction fuel generalizing request rest with
    | zero => cases h
    | succ fuel ih =>
      rcases page_cases pageSize request rest with
        hfits | ⟨page, first, rest, rfl, hlength⟩
      · exact .last hfits
      · obtain ⟨before, hsets⟩ := hrest
        rw [← List.append_assoc] at hsets
        obtain ⟨again, hstart⟩ := HostedZone.setsFrom_mem hsets.symm
        have hsuffix := hstart ▸ zone.setsFrom_suffix first
        rw [collected_cut hlength, hstart] at h
        obtain ⟨tail, htail, hrecords⟩ := Option.map_eq_some_iff.mp h
        rw [List.filterMap_append, List.append_right_inj] at hrecords
        subst hrecords
        -- what is listed again adds nothing, since nothing of the rest is missing
        have hlen := (sublist_of_collected hsuffix htail).length_le
        rw [List.filterMap_append, List.length_append] at hlen
        have hnil : again.filterMap (reported zone.name) = [] :=
          List.eq_nil_of_length_eq_zero (by omega)
        refine .cut hlength hstart (List.filterMap_eq_nil_iff.mp hnil) (ih hsuffix ?_)
        rw [htail, List.filterMap_append, hnil, List.nil_append]
  · intro h
    induction h with
    | last fits => exact ⟨1, collected_last fits⟩
    | cut length start skipped tail ih =>
      next request page again rest first =>
      obtain ⟨fuel, hfuel⟩ := ih (start ▸ zone.setsFrom_suffix first)
      refine ⟨fuel + 1, ?_⟩
      rw [collected_cut length, start, hfuel, Option.map_some, List.filterMap_append,
        List.filterMap_append, List.filterMap_eq_nil_iff.mpr skipped, List.nil_append]

/-! ## The run -/

/-- When no request fails, the loop over the pages returns what it collects. -/
theorem run_listPages_collected {env : Route53Env} (hok : ∀ n, env.failures n = none)
    (client : Client) {w : Route53World} {nextName : Option String} {nextType : Option RrType}
    {rest : List ResourceRecordSet} (hfrom : w.zone.setsFrom nextName nextType = rest)
    (fuel : Nat) (records : List ProviderRecord) :
    ∃ w', (listPages client w.zone.id w.zone.name fuel nextName nextType records).run
        (handleRoute53 env) w =
      (.ok ((collected w.zone env.pageSize fuel w.requests rest).map (records ++ ·)), w') := by
  induction fuel generalizing w nextName nextType rest records with
  | zero => exact ⟨w, rfl⟩
  | succ fuel ih =>
    rcases page_cases env.pageSize w.requests rest with
      hfits | ⟨page, first, rest, rfl, hlength⟩
    · refine ⟨{ w with requests := w.requests + 1 }, ?_⟩
      rw [collected_last hfits, Option.map_some]
      exact run_listPages_last client (hok _) hfrom hfits w.zone.name fuel records
    · have hnext : ({ w with requests := w.requests + 1 } : Route53World).zone.setsFrom
          (some first.name) (some first.rrType) =
            w.zone.setsFrom (some first.name) (some first.rrType) := rfl
      obtain ⟨w', hrun⟩ := ih hnext (records ++ page.filterMap (reported w.zone.name))
      refine ⟨w', ?_⟩
      rw [run_listPages_cut client (hok _) hfrom hlength, hrun, collected_cut hlength,
        Option.map_map]
      simp only [Function.comp_def, List.append_assoc]

variable [AwsSdk]

/-- When no request fails, `list_records` returns what the loop collects. -/
theorem run_listRecords_collected {env : Route53Env} (hok : ∀ n, env.failures n = none)
    {w : Route53World} {creds : Credentials} {client : Client}
    (hclient : buildClient creds = .ok client) {providerZoneId : String}
    (hid : normalizeZoneId providerZoneId = w.zone.id) (fuel : Nat) :
    ∃ w', (listRecords fuel creds providerZoneId).run (handleRoute53 env) w =
      (.ok (collected w.zone env.pageSize fuel (w.requests + 1) w.zone.sets), w') := by
  have hstart : ({ w with requests := w.requests + 1 } : Route53World).zone.setsFrom none none =
      w.zone.sets := rfl
  obtain ⟨w', hpages⟩ := run_listPages_collected hok client hstart fuel []
  refine ⟨w', ?_⟩
  simp only [List.nil_append, Option.map_id'] at hpages
  simp only [listRecords, hclient, hid, Prog.run_bind, Prog.run_liftExcept,
    run_zoneFqdn client (hok _), hpages]

/-- Against a service that answers, `list_records` ends with the records of all record sets that
    are of a supported type, no alias, and have a time to live, each once and in order, exactly
    when its pages are `WholePages`. -/
theorem listRecords_complete_iff {env : Route53Env} (hok : ∀ n, env.failures n = none)
    {w : Route53World} {creds : Credentials} {client : Client}
    (hclient : buildClient creds = .ok client) {providerZoneId : String}
    (hid : normalizeZoneId providerZoneId = w.zone.id) :
    (∃ fuel w', (listRecords fuel creds providerZoneId).run (handleRoute53 env) w =
        (.ok (some (w.zone.sets.filterMap (reported w.zone.name))), w')) ↔
      WholePages w.zone env.pageSize (w.requests + 1) w.zone.sets := by
  rw [← collected_eq_iff (List.suffix_refl _)]
  refine exists_congr fun fuel => ?_
  obtain ⟨w', hrun⟩ := run_listRecords_collected hok hclient hid fuel
  rw [hrun]
  simp only [Prod.mk.injEq, Except.ok.injEq]
  exact ⟨fun ⟨_, h, _⟩ => h, fun h => ⟨w', h, rfl⟩⟩

end Listing

section Sample

open DnsManager.Sample

/-- The service with pages of these sizes, less one. -/
def pagedEnv (pageSize : Nat → Nat) : Route53Env := { route53Env with pageSize }

/-- Two record sets of different types on pages of one record set. -/
theorem listRecords_complete_plain :
    ∃ fuel w', (listRecords fuel credentials "Z1").run (handleRoute53 (pagedEnv fun _ => 0))
        { zone := hosted (hostedZone.sets ++ [wwwSet none "192.0.2.1"]) } =
      (.ok (some ((hosted (hostedZone.sets ++ [wwwSet none "192.0.2.1"])).sets.filterMap
        (reported "example.com."))), w') := by
  have hok : ∀ n, (pagedEnv fun _ => 0).failures n = none := fun _ => rfl
  have hnext : (hosted (hostedZone.sets ++ [wwwSet none "192.0.2.1"])).setsFrom
      (some "www.example.com.") (some .a) = [] ++ [wwwSet none "192.0.2.1"] := by decide +kernel
  refine (listRecords_complete_iff hok buildClient_credentials (by decide)).mpr
    (.cut rfl hnext (fun o ho => ?_) (.last (by decide)))
  cases ho

/-- A page that ends between the two record sets of `www`. -/
def betweenPages (request : Nat) : Nat := if request = 1 then 0 else 99

/-- Two record sets of `www`. -/
def weighted : HostedZone := hosted [wwwSet (some "blue") "192.0.2.1", wwwSet (some "green") "192.0.2.2"]

/-- The record sets of the second page start with the first one again. -/
theorem listRecords_repeats :
    ¬ ∃ fuel w', (listRecords fuel credentials "Z1").run (handleRoute53 (pagedEnv betweenPages))
        { zone := weighted } =
      (.ok (some (weighted.sets.filterMap (reported "example.com."))), w') := by
  rintro ⟨fuel, w', hrun⟩
  have hok : ∀ n, (pagedEnv betweenPages).failures n = none := fun _ => rfl
  have hid : normalizeZoneId "Z1" = ({ zone := weighted } : Route53World).zone.id := by decide
  obtain ⟨w'', hcollected⟩ := run_listRecords_collected hok buildClient_credentials hid fuel
  have hrecords := Except.ok.inj (congrArg Prod.fst (hcollected.symm.trans hrun))
  rcases fuel with _ | _ | fuel
  · cases hrecords
  · exact absurd hrecords (by decide +kernel)
  · -- the second request starts at `www`, so again at the first record set
    have hstart : weighted.setsFrom (some (wwwSet (some "green") "192.0.2.2").name)
        (some (wwwSet (some "green") "192.0.2.2").rrType) = weighted.sets := by decide +kernel
    have hlast : collected weighted betweenPages (fuel + 1) 2 weighted.sets =
        some (weighted.sets.filterMap (reported weighted.name)) := collected_last (by decide)
    have hcut : collected weighted betweenPages (fuel + 2) 1
        ([wwwSet (some "blue") "192.0.2.1"] ++ [wwwSet (some "green") "192.0.2.2"]) = _ :=
      collected_cut rfl
    rw [hstart, hlast] at hcut
    have hlength := congrArg (Option.map List.length) (hcut.symm.trans hrecords)
    exact absurd hlength (by decide +kernel)

end Sample

end DnsManager.Route53
