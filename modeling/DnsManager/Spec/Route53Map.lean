import DnsManager.ForStd.Except
import DnsManager.Spec.ObserveCorrect
import DnsManager.Spec.Route53Cursor
import DnsManager.Spec.Route53Names
import DnsManager.Spec.Sample
import Mathlib.Data.List.Pairwise

/-!
# The map of observed records

`fetch_actual_records` puts the listed records into a map by name and type, where the last of
two records with one key wins. Since the relative names of a zone are told apart as its
absolute names are, no record set of the zone is lost there.

## Key results
- `run_listPages_reports`: no page loses a record set, whatever the service answers.
- `holdsEach_of_listRecords`: the map has one entry for each reported record set.
- `nameCodec_lossless`: the names, the map, and that there is one.
-/

namespace DnsManager.Route53

section Map

variable [Route53Order] [UnicodeData]

/-- Every run of the loop that ends has reported what it had and all that the request lists. -/
theorem run_listPages_reports {env : Route53Env} {w w' : Route53World} {client : Client}
    {zoneId zoneFqdn : String} {fuel : Nat} {nextName : Option String} {nextType : Option RrType}
    {records out : List ProviderRecord}
    (h : (listPages client zoneId zoneFqdn fuel nextName nextType records).run (handleRoute53 env)
      w = (.ok (some out), w')) {rest : List ResourceRecordSet}
    (hrest : w.zone.setsFrom nextName nextType = rest) (hsuffix : rest <:+ w.zone.sets) :
    ∀ r ∈ records ++ rest.filterMap (reported zoneFqdn), r ∈ out := by
  induction fuel generalizing w nextName nextType records rest with
  | zero => cases congrArg Prod.fst h
  | succ fuel ih =>
    have hpage := run_list_eq_ok h
    rw [hrest] at hpage
    rcases page_cases env.pageSize w.requests rest with
      hfits | ⟨page, first, rest, rfl, hlength⟩
    · -- one page holds all that remains
      have hdrop : rest.drop (env.pageSize w.requests + 1) = [] := List.drop_eq_nil_iff.mpr hfits
      simp only [Option.elim_none, HostedZone.page, hdrop, List.take_of_length_le hfits,
        List.isEmpty_nil, Bool.not_true, Bool.false_eq_true, if_false, Prog.run_pure] at hpage
      cases hpage
      exact fun r hr => hr
    · have htake : (page ++ first :: rest).take (env.pageSize w.requests + 1) = page := by
        rw [← hlength, List.take_left]
      have hdrop : (page ++ first :: rest).drop (env.pageSize w.requests + 1) = first :: rest := by
        rw [← hlength, List.drop_left]
      simp only [Option.elim_none, HostedZone.page, hdrop, htake, List.isEmpty_cons, Bool.not_false,
        if_true, List.head?_cons, Option.map_some] at hpage
      -- the next request lists the record sets that follow, and perhaps some again
      obtain ⟨before, hsets⟩ := hsuffix
      rw [← List.append_assoc] at hsets
      obtain ⟨again, hstart⟩ := HostedZone.setsFrom_mem hsets.symm
      have hall := ih hpage hstart (hstart ▸ w.zone.setsFrom_suffix first)
      intro r hr
      apply hall
      simp only [List.filterMap_append, List.mem_append] at hr ⊢
      rcases hr with hr | hr | hr
      · exact .inl (.inl hr)
      · exact .inl (.inr hr)
      · exact .inr (.inr hr)

variable [AwsSdk]

/-- Every run of `list_records` that ends has reported each record set of the zone. -/
theorem run_listRecords_reports {env : Route53Env} {w w' : Route53World} {fuel : Nat}
    {creds : Credentials} {providerZoneId : String} {records : List ProviderRecord}
    (h : (listRecords fuel creds providerZoneId).run (handleRoute53 env) w =
      (.ok (some records), w')) {rrs : ResourceRecordSet} (hrrs : rrs ∈ w.zone.sets)
    {r : ProviderRecord} (hr : reported w.zone.name rrs = some r) : r ∈ records := by
  unfold listRecords at h
  obtain ⟨-, client, -, h⟩ := run_open_eq_ok h
  exact run_listPages_reports h rfl (List.suffix_refl _) r
    (List.mem_append_right _ (List.mem_filterMap.mpr ⟨rrs, hrrs, hr⟩))

/-- No two record sets have the same name, up to case and the trailing dot, and type. -/
def DistinctSets (sets : List ResourceRecordSet) : Prop :=
  sets.Pairwise fun a b => ¬ (fqdnsEqual a.name b.name = true ∧ a.rrType = b.rrType)

/-- The map has one entry for each record set of a supported type that is no alias and has a time
    to live, and no other: no entry shadows another. -/
structure HoldsEach (zoneFqdn : String) (sets : List ResourceRecordSet)
    (actual : RecordKey → Option ProviderRecord) : Prop where
  entry : ∀ rrs ∈ sets, (rrTypeToRecordType rrs.rrType).isSome = true → rrs.aliasTarget = none →
    rrs.ttl.isSome = true → ∃ r, reported zoneFqdn rrs = some r ∧ actual r.key = some r
  distinct : ∀ rrs ∈ sets, ∀ rrs' ∈ sets, ∀ r r', reported zoneFqdn rrs = some r →
    reported zoneFqdn rrs' = some r' → r.key = r'.key → rrs = rrs'
  only : ∀ key r, actual key = some r → ∃ rrs ∈ sets, reported zoneFqdn rrs = some r ∧ r.key = key

omit [AwsSdk] [Route53Order] in
/-- The key of a reported record. -/
theorem reported_key {zoneFqdn : String} {rrs : ResourceRecordSet} {r : ProviderRecord}
    (h : reported zoneFqdn rrs = some r) :
    r.key.name = toRelativeName rrs.name zoneFqdn ∧
      recordTypeToRrType r.key.recordType = rrs.rrType := by
  unfold reported at h
  cases htype : rrTypeToRecordType rrs.rrType with
  | none =>
    rw [htype] at h
    cases h
  | some recordType =>
    have hrrType := recordTypeToRrType_of_rrTypeToRecordType htype
    cases halias : rrs.aliasTarget <;> cases httl : rrs.ttl <;> rw [htype, halias, httl] at h <;>
      cases h
    exact ⟨rfl, hrrType⟩

omit [AwsSdk] [Route53Order] in
/-- Record sets with one key are the same. -/
theorem eq_of_reported_key_eq {zoneFqdn : String} {sets : List ResourceRecordSet}
    (hnames : ∀ rrs ∈ sets, ZoneName zoneFqdn rrs.name) (hdistinct : DistinctSets sets)
    {rrs rrs' : ResourceRecordSet} (hrrs : rrs ∈ sets) (hrrs' : rrs' ∈ sets)
    {r r' : ProviderRecord} (h : reported zoneFqdn rrs = some r)
    (h' : reported zoneFqdn rrs' = some r') (hkey : r.key = r'.key) : rrs = rrs' := by
  obtain ⟨hname, htype⟩ := reported_key h
  obtain ⟨hname', htype'⟩ := reported_key h'
  have hequal : fqdnsEqual rrs.name rrs'.name = true := by
    apply fqdnsEqual_of_toRelativeName_eq (hnames rrs hrrs) (hnames rrs' hrrs')
    rw [← hname, ← hname', hkey]
  have hrrType : rrs.rrType = rrs'.rrType := by rw [← htype, ← htype', hkey]
  -- two different record sets of the zone differ in name or type, whichever comes first
  have hsymm : Std.Symm fun a b : ResourceRecordSet =>
      ¬ (fqdnsEqual a.name b.name = true ∧ a.rrType = b.rrType) := by
    constructor
    rintro a b hab ⟨hname, htype⟩
    apply hab
    constructor
    · unfold fqdnsEqual at *
      rw [RustStr.eqIgnoreAsciiCase_comm]
      exact hname
    · exact htype.symm
  by_contra hne
  exact hdistinct.forall hrrs hrrs' hne ⟨hequal, hrrType⟩

omit [AwsSdk] [Route53Order] [UnicodeData] in
/-- A record is found under its key when all records with that key are the same. -/
theorem actualMap_eq_some {records : List ProviderRecord} {r : ProviderRecord} (hr : r ∈ records)
    (hsame : ∀ r' ∈ records, r'.key = r.key → r' = r) : actualMap records r.key = some r := by
  unfold actualMap
  cases hfind : records.reverse.find? fun r' => r'.key = r.key with
  | none =>
    have := List.find?_eq_none.mp hfind r (List.mem_reverse.mpr hr)
    simp at this
  | some r' =>
    have hkey : r'.key = r.key := by simpa using List.find?_some hfind
    rw [hsame r' (List.mem_reverse.mp (List.mem_of_find?_eq_some hfind)) hkey]

/-- The map of what a run of `list_records` returns. -/
theorem holdsEach_of_listRecords {env : Route53Env} {w w' : Route53World} {fuel : Nat}
    {creds : Credentials} {providerZoneId : String} {records : List ProviderRecord}
    (hnames : ∀ rrs ∈ w.zone.sets, ZoneName w.zone.name rrs.name)
    (hdistinct : DistinctSets w.zone.sets)
    (h : (listRecords fuel creds providerZoneId).run (handleRoute53 env) w =
      (.ok (some records), w')) :
    HoldsEach w.zone.name w.zone.sets (actualMap records) := by
  obtain ⟨-, honly⟩ := run_listRecords_eq_ok h
  constructor
  · intro rrs hrrs htype halias httl
    obtain ⟨r, hr⟩ := Option.isSome_iff_exists.mp (reported_isSome_iff.mpr ⟨htype, halias, httl⟩)
    refine ⟨r, hr, actualMap_eq_some (run_listRecords_reports h hrrs hr) fun r' hr' hkey => ?_⟩
    -- another record with the key is that of the same record set
    obtain ⟨rrs', hrrs', hreported⟩ := honly r' hr'
    obtain rfl := eq_of_reported_key_eq hnames hdistinct hrrs' hrrs hreported hr hkey
    exact Option.some.inj (hreported.symm.trans hr)
  · intro rrs hrrs rrs' hrrs' r r' hr hr' hkey
    exact eq_of_reported_key_eq hnames hdistinct hrrs hrrs' hr hr' hkey
  · intro key r hfound
    have hmem := List.mem_reverse.mp (List.mem_of_find?_eq_some hfound)
    obtain ⟨rrs, hrrs, hr⟩ := honly r hmem
    exact ⟨rrs, hrrs, hr, by simpa using List.find?_some hfound⟩

section Fetch

variable [CryptoLib] [SerdeJson]

/-- The listing of the binding was made by `list_records` against the hosted zone. -/
def ListedBy (env : Route53Env) (w : Route53World) (binding : ProviderBinding)
    (listing : Credentials → Except ProviderError (List ProviderRecord)) : Prop :=
  ∀ creds records, listing creds = .ok records → ∃ fuel w',
    (listRecords fuel creds binding.providerZoneId).run (handleRoute53 env) w =
      (.ok (some records), w')

/-- The map `fetch_actual_records` returns holds each record set of the zone. -/
theorem holdsEach_of_fetchActualRecords {worker : ReconcileWorker} {senv : SyncEnv}
    {sw sw' : SyncWorld} {binding : ProviderBinding} {env : Route53Env} {w : Route53World}
    {actual : RecordKey → Option ProviderRecord}
    (hnames : ∀ rrs ∈ w.zone.sets, ZoneName w.zone.name rrs.name)
    (hdistinct : DistinctSets w.zone.sets)
    (hlisted : ListedBy env w binding (senv.listings sw.listings binding))
    (h : (worker.fetchActualRecords binding).run (handleSync senv) sw = (.ok actual, sw')) :
    HoldsEach w.zone.name w.zone.sets actual := by
  have hrun := run_fetchActualRecords worker senv binding sw
  have hfetched : worker.fetched senv sw.listings binding = .ok actual :=
    congrArg Prod.fst (hrun.symm.trans h)
  unfold ReconcileWorker.fetched at hfetched
  split at hfetched
  · cases hfetched
  · obtain ⟨creds, -, hfetched⟩ := Except.bind_eq_ok.mp hfetched
    obtain ⟨records, hrecords, hmap⟩ := Except.bind_eq_ok.mp hfetched
    cases hmap
    obtain ⟨fuel, w', hlist⟩ := hlisted creds records (Except.mapError_eq_ok.mp hrecords)
    exact holdsEach_of_listRecords hnames hdistinct hlist

/-- In a zone with an ASCII name, relative names come back from Route53 in lower case, absolute
    names come back up to case, and the map of every successful fetch holds each record set that
    is reported; where the service answers and lists in its order, the listing ends. -/
theorem nameCodec_lossless {zoneFqdn : String} (hzone : ∀ c ∈ zoneFqdn.toList, c.toNat < 128) :
    (∀ r : String, (∀ c ∈ r.toList, c.toNat < 128) →
      toRelativeName (toFqdn r zoneFqdn) zoneFqdn =
        if r = "@" then "@" else String.ofList (r.toList.map Char.toLower)) ∧
    (∀ fqdn, ZoneName zoneFqdn fqdn →
      fqdnsEqual (toFqdn (toRelativeName fqdn zoneFqdn) zoneFqdn) fqdn = true) ∧
    (∀ (env : Route53Env) (w : Route53World), w.zone.name = zoneFqdn →
      (∀ rrs ∈ w.zone.sets, ZoneName zoneFqdn rrs.name) → DistinctSets w.zone.sets →
      (∀ (worker : ReconcileWorker) (senv : SyncEnv) (sw sw' : SyncWorld)
        (binding : ProviderBinding) (actual : RecordKey → Option ProviderRecord),
        ListedBy env w binding (senv.listings sw.listings binding) →
        (worker.fetchActualRecords binding).run (handleSync senv) sw = (.ok actual, sw') →
        HoldsEach zoneFqdn w.zone.sets actual) ∧
      ((∀ n, env.failures n = none) →
        (w.zone.sets.Pairwise fun a b => Route53Order.le b.key a.key = false) →
        ∀ creds client providerZoneId, buildClient creds = .ok client →
          normalizeZoneId providerZoneId = w.zone.id →
          ∃ fuel records w', (listRecords fuel creds providerZoneId).run (handleRoute53 env) w =
            (.ok (some records), w'))) := by
  refine ⟨fun r hr => toRelativeName_toFqdn_ascii hr hzone,
    fun fqdn => fqdnsEqual_toFqdn_toRelativeName, fun env w hname hnames hdistinct => ?_⟩
  subst hname
  constructor
  · intro worker senv sw sw' binding actual hlisted hfetch
    exact holdsEach_of_fetchActualRecords hnames hdistinct hlisted hfetch
  · intro hok hsorted creds client providerZoneId hclient hid
    have hpages := @cleanPages_of_sorted _ env.pageSize (w.requests + 1) [] w.zone.sets hsorted
    obtain ⟨w', ⟨-, hfuel⟩ | hrun⟩ := run_listRecords hok hpages hclient hid
      (w.zone.sets.length + 1)
    · omega
    · exact ⟨_, _, w', hrun⟩

end Fetch

end Map

section Sample

open DnsManager.Sample

/-- The hosted zone with `www` written in two ways, for two types. -/
def mixedWorld : Route53World where
  zone := hosted (hostedZone.sets ++ [wwwSet none "192.0.2.1",
    ⟨"WWW.Example.com", .aaaa, none, some 60, none, ["2001:db8::1"]⟩])

/-- The provider lists by `list_records`, with three requests at most. -/
def route53SyncEnv (w : Route53World) : SyncEnv where
  queries _ := none
  writes _ := none
  listings _ b creds :=
    match ((listRecords 3 creds b.providerZoneId).run (handleRoute53 route53Env) w).1 with
    | .ok (some records) => .ok records
    | .ok none => .error (.apiError "request to Route53 timed out")
    | .error e => .error e
  now _ := noon

theorem listedBy_route53SyncEnv (w : Route53World) (b : ProviderBinding) (n : Nat) :
    ListedBy route53Env w b ((route53SyncEnv w).listings n b) := by
  intro creds records h
  refine ⟨3, ((listRecords 3 creds b.providerZoneId).run (handleRoute53 route53Env) w).2, ?_⟩
  apply Prod.ext
  · change (match ((listRecords 3 creds b.providerZoneId).run (handleRoute53 route53Env) w).1 with
      | .ok (some records) => .ok records
      | .ok none => .error (.apiError "request to Route53 timed out")
      | .error e => .error e) = Except.ok records at h
    split at h
    · next hrun =>
      cases h
      exact hrun
    · cases h
    · cases h
  · rfl

/-- The three record sets have three entries. -/
theorem nameCodec_lossless_mixed :
    toRelativeName (toFqdn "WWW" "example.com.") "example.com." = "www" ∧
      ∃ actual sw', (worker.fetchActualRecords (binding "b1" "Z1")).run
          (handleSync (route53SyncEnv mixedWorld)) { db := twoBindings } = (.ok actual, sw') ∧
        HoldsEach "example.com." mixedWorld.zone.sets actual := by
  have hzone : ∀ c ∈ "example.com.".toList, c.toNat < 128 := ascii_of_all (by decide)
  obtain ⟨hrelative, -, hfetch⟩ := nameCodec_lossless hzone
  refine ⟨?_, ?_⟩
  · rw [hrelative "WWW" (ascii_of_all (by decide))]
    decide
  have hnames : ∀ rrs ∈ mixedWorld.zone.sets, ZoneName "example.com." rrs.name := by
    have happex : ZoneName "example.com." "example.com." :=
      ⟨ascii_of_all (by decide), .inl (by decide), by decide⟩
    have hlower : ZoneName "example.com." "www.example.com." :=
      ⟨ascii_of_all (by decide), .inr ⟨"www", "example.com", by decide, by decide⟩, by decide⟩
    have hmixed : ZoneName "example.com." "WWW.Example.com" :=
      ⟨ascii_of_all (by decide), .inr ⟨"WWW", "Example.com", by decide, by decide⟩, by decide⟩
    intro rrs hrrs
    simp only [mixedWorld, hosted, hostedZone, List.cons_append, List.nil_append, List.mem_cons,
      List.not_mem_nil, or_false] at hrrs
    rcases hrrs with rfl | rfl | rfl
    · exact happex
    · exact hlower
    · exact hmixed
  have hdistinct : DistinctSets mixedWorld.zone.sets := by
    unfold DistinctSets
    decide
  have hrun := run_fetchActualRecords worker (route53SyncEnv mixedWorld)
    (binding "b1" "Z1") { db := twoBindings }
  have hok : (worker.fetched (route53SyncEnv mixedWorld) 0 (binding "b1" "Z1")).isOk = true := by
    decide +kernel
  rw [Sample.eq_ok_get _ hok] at hrun
  exact ⟨_, _, hrun, (hfetch route53Env mixedWorld rfl hnames hdistinct).1 worker _ _ _ _ _
    (listedBy_route53SyncEnv mixedWorld _ _) hrun⟩

end Sample

end DnsManager.Route53
