import DnsManager.Spec.Route53Listing
import DnsManager.Spec.Sample
import Mathlib.Algebra.Order.BigOperators.Group.List

/-!
# A record that was written is observed

`upsert_record` turns a record into a record set and `list_records` turns it back. The two
conversions disagree on names with upper-case letters and on TXT values that carry quotes
of their own.

## Key results
- `reported_recordSet`: what is reported for the record set of a record.
- `observed_inSync_iff`: after a record was written to Route53, an observe pass finds it
  and writes `in_sync` exactly when its name and values survive the way to Route53 and back
  and no record set listed after it shadows it.
-/

namespace DnsManager

open RustStr
open Route53

section Worker

/-- A value on the way to Route53 and back. -/
def roundTripValue (rt : RecordType) (v : String) : String :=
  if rt = .txt then stripTxtQuotes (addTxtQuotes v) else v

/-- A time to live on the way to Route53 and back. -/
private theorem roundTrip_ttl (ttl : UInt32) :
    UInt32.ofNat (max (Int64.ofInt ttl.toNat).toInt 0).toNat = ttl := by
  have h := ttl.toNat_lt
  rw [Int64.toInt_ofInt_of_le (by omega) (by omega), max_eq_left (by omega), Int.toNat_natCast,
    UInt32.ofNat_toNat]

variable [UnicodeData]

/-- What `list_records` reports for the record set of a record. -/
theorem reported_recordSet (record : ProviderRecord) (zoneFqdn : String) :
    reported zoneFqdn (recordSet record zoneFqdn) = some
      { name := toRelativeName (toFqdn record.name zoneFqdn) zoneFqdn
        recordType := record.recordType
        ttl := record.ttl
        values := record.values.map (roundTripValue record.recordType) } := by
  simp only [reported, recordSet, rrTypeToRecordType_recordTypeToRrType, Option.isSome_none,
    Bool.false_eq_true, if_false, roundTrip_ttl, List.map_map, bind, Option.bind, pure]
  congr 2
  refine List.map_congr_left fun v _ => ?_
  simp only [Function.comp, roundTripValue]
  split <;> rfl

/-! ## The drift decision -/

/-- The name of a record that survives: the apex, or a name that lower-casing leaves alone
    inside its zone. -/
def StableName (name zoneFqdn : String) : Prop :=
  name = "@" ∨ toLowercase (name ++ "." ++ withoutDot zoneFqdn) =
    name ++ "." ++ toLowercase (withoutDot zoneFqdn)

omit [UnicodeData] in
/-- The quotes of a text are not trimmed. -/
private theorem trim_quoted (inner : String) :
    trim ("\"" ++ inner ++ "\"") = "\"" ++ inner ++ "\"" := by
  have hquote : String.singleton '"' = "\"" := by decide
  have hkept := @trim_between '"' '"' (by decide) (by decide) inner
  rwa [hquote] at hkept

omit [UnicodeData] in
/-- Trimming drops at least the quotes that a value was given. -/
private theorem length_trim_lt_quoted (inner : String) :
    (trim inner).toList.length < ("\"" ++ inner ++ "\"").toList.length := by
  have hquote : "\"".toList.length = 1 := by decide
  have htrim := length_trim_le inner
  rw [String.toList_append, String.toList_append, List.length_append, List.length_append, hquote]
  omega

omit [UnicodeData] in
/-- Values that carry quotes of their own come back shorter, so a record with such a value
    differs from what is reported for it. -/
private theorem not_isQuoted_of_perm {values : List String}
    (h : (values.map fun v => trim (stripTxtQuotes (addTxtQuotes v))).Perm (values.map trim)) :
    ∀ v ∈ values, isQuoted v = false := by
  have hle : ∀ v ∈ values, (trim (stripTxtQuotes (addTxtQuotes v))).toList.length ≤
      (trim v).toList.length := by
    intro v _
    cases hq : isQuoted v with
    | false => rw [stripTxtQuotes_addTxtQuotes hq]
    | true =>
      obtain ⟨inner, rfl⟩ := isQuoted_iff.mp hq
      rw [stripTxtQuotes_addTxtQuotes_quoted, trim_quoted]
      exact (length_trim_lt_quoted inner).le
  intro v hv
  by_contra hq
  obtain ⟨inner, rfl⟩ := isQuoted_iff.mp (Bool.of_not_eq_false hq)
  have hlt : (trim (stripTxtQuotes (addTxtQuotes ("\"" ++ inner ++ "\"")))).toList.length <
      (trim ("\"" ++ inner ++ "\"")).toList.length := by
    rw [stripTxtQuotes_addTxtQuotes_quoted, trim_quoted]
    exact length_trim_lt_quoted inner
  -- equal up to order, the two lists have the same total length, but one value got shorter
  have hsum := (h.map fun s => s.toList.length).sum_nat
  simp only [List.map_map, Function.comp_def] at hsum
  have hshorter := List.sum_lt_sum (fun v => (trim (stripTxtQuotes (addTxtQuotes v))).toList.length)
    (fun v => (trim v).toList.length) hle ⟨_, hv, hlt⟩
  exact hshorter.ne hsum

/-- A record does not differ from what is reported for it exactly when the name survives and
    no TXT value carries quotes of its own. -/
theorem diff_reported_iff {record actual : ProviderRecord} {zoneFqdn : String}
    (h : reported zoneFqdn (recordSet record zoneFqdn) = some actual) :
    actual.key = record.key ∧ diff actual record = false ↔
      StableName record.name zoneFqdn ∧
        (record.recordType = .txt → ∀ v ∈ record.values, isQuoted v = false) := by
  rw [reported_recordSet] at h
  obtain rfl := Option.some.inj h
  have hname := toRelativeName_toFqdn record.name zoneFqdn
  constructor
  · rintro ⟨hkey, hdiff⟩
    simp only [ProviderRecord.key, RecordKey.mk.injEq, and_true] at hkey
    refine ⟨hname.mp hkey, fun htxt => ?_⟩
    -- TXT values are only trimmed and sorted, so the two lists agree up to order
    have hvalues := (diff_eq_false.mp hdiff).2.2.2
    simp only [ProviderRecord.normalizeForComparison, htxt, List.map_map, Function.comp_def,
      roundTripValue, if_true] at hvalues
    have hactual := List.perm_insertionSort (· ≤ ·)
      (record.values.map fun v => trim (stripTxtQuotes (addTxtQuotes v)))
    rw [hvalues] at hactual
    exact not_isQuoted_of_perm (hactual.symm.trans (List.perm_insertionSort _ _))
  · rintro ⟨hstable, hunquoted⟩
    have hsame : record.values.map (roundTripValue record.recordType) = record.values := by
      refine (List.map_congr_left fun v hv => ?_).trans (List.map_id _)
      unfold roundTripValue
      split
      · next htxt => exact stripTxtQuotes_addTxtQuotes (hunquoted htxt v hv)
      · rfl
    simp only [ProviderRecord.key, hname.mpr hstable, hsame, true_and]
    exact diff_eq_false.mpr ⟨rfl, rfl, rfl, rfl⟩

/-! ## The observe pass -/

omit [UnicodeData] in
/-- Of two lists of records the later one is looked up first. -/
theorem actualMap_append (xs ys : List ProviderRecord) (key : RecordKey) :
    actualMap (xs ++ ys) key = (actualMap ys key).or (actualMap xs key) := by
  simp only [actualMap, List.reverse_append, List.find?_append]

omit [UnicodeData] in
theorem actualMap_singleton (r : ProviderRecord) (key : RecordKey) :
    actualMap [r] key = if r.key = key then some r else none := by
  by_cases h : r.key = key <;> simp [actualMap, h]

omit [UnicodeData] in
/-- What is found under a key has the key. -/
theorem key_of_actualMap {records : List ProviderRecord} {key : RecordKey} {r : ProviderRecord}
    (h : actualMap records key = some r) : r.key = key := by
  simpa using List.find?_some h

variable [Route53Order]

/-- The record sets that are listed after the one of the record. -/
def listedAfter (zone : HostedZone) (record : ProviderRecord) : List ResourceRecordSet :=
  zone.setsFrom (some (recordSet record zone.name).name) (some (recordSet record zone.name).rrType)

/-- A record set that is listed after the one of the record is reported under the same key as
    another record; if several are reported under the key, the last one counts. -/
def Shadowed (zone : HostedZone) (record : ProviderRecord) : Prop :=
  ∃ other, actualMap ((listedAfter zone record).filterMap (reported zone.name)) record.key =
      some other ∧ reported zone.name (recordSet record zone.name) ≠ some other

omit [UnicodeData] in
/-- A record set that is new in the zone is filed before those that are listed after it. -/
theorem sets_upsert {zone : HostedZone} {record : ProviderRecord}
    (hnew : ∀ o ∈ zone.sets, ¬ HostedZone.SameSet o (recordSet record zone.name)) :
    ∃ before, (zone.upsert (recordSet record zone.name)).sets =
      before ++ recordSet record zone.name :: listedAfter zone record := by
  -- no record set is replaced, so the new one is inserted before the later ones
  have hany : (zone.sets.any fun o => HostedZone.SameSet o (recordSet record zone.name)) = false :=
    List.any_eq_false.mpr fun o ho => by simpa using hnew o ho
  have hlater : zone.sets.dropWhile (fun o =>
      decide (Route53Order.le (recordSet record zone.name).key o.key = false)) =
      listedAfter zone record := by
    change _ = zone.sets.dropWhile fun o => !Route53Order.le (recordSet record zone.name).key o.key
    congr 1
    funext o
    cases Route53Order.le (recordSet record zone.name).key o.key <;> rfl
  simp only [HostedZone.upsert, hany, Bool.false_eq_true, if_false, HostedZone.insertSet,
    List.orderedInsert_eq_take_drop, Bool.not_eq_true, hlater]
  exact ⟨_, rfl⟩

/-- Where the record set of a record is listed, the record is found under its key as it is
    reported, exactly when that is its key and no later record set shadows it. -/
private theorem actualMap_listing {zone : HostedZone} {record actual : ProviderRecord}
    (hactual : reported zone.name (recordSet record zone.name) = some actual)
    (before : List ResourceRecordSet) :
    actualMap ((before ++ recordSet record zone.name :: listedAfter zone record).filterMap
        (reported zone.name)) record.key = some actual ↔
      actual.key = record.key ∧ ¬ Shadowed zone record := by
  rw [List.filterMap_append, List.filterMap_cons_some hactual, ← List.singleton_append,
    actualMap_append, actualMap_append, actualMap_singleton, Shadowed, hactual]
  cases hlater : actualMap ((listedAfter zone record).filterMap (reported zone.name))
      record.key with
  | none =>
    -- nothing later has the key: what is found is the record set itself or one before it
    constructor
    · intro h
      refine ⟨?_, fun ⟨_, hother, _⟩ => (nomatch hother)⟩
      by_cases hkey : actual.key = record.key
      · exact hkey
      · rw [if_neg hkey] at h
        exact key_of_actualMap h
    · rintro ⟨hkey, -⟩
      rw [if_pos hkey]
      rfl
  | some other =>
    -- a later record set has the key: it is harmless only if it is reported as the same record
    constructor
    · intro h
      obtain rfl : other = actual := Option.some.inj h
      exact ⟨key_of_actualMap hlater, fun ⟨_, hother, hne⟩ => hne hother⟩
    · rintro ⟨-, hsame⟩
      by_contra hne
      exact hsame ⟨other, rfl, fun heq => hne (congrArg some (Option.some.inj heq).symm)⟩

variable [CryptoLib] [SerdeJson] [Chrono] (worker : ReconcileWorker)

/-- The worker can fetch the records of a binding: it has the adapter and the credentials. -/
structure Fetches (binding : ProviderBinding) (creds : Credentials) : Prop where
  adapter : binding.providerType ∈ worker.adapters
  creds : worker.decryptCredentials binding.credentialsBlob binding.credentialsDek = .ok creds

/-- A listing is found in sync for a desired record: under its key is what Route53 was given
    for it, which does not differ, and an observe pass that gets the listing writes `in_sync`. -/
structure FoundInSync (zoneFqdn : String) (binding : ProviderBinding) (creds : Credentials)
    (desired : ProviderRecord) (records : List ProviderRecord) : Prop where
  found : actualMap records desired.key = reported zoneFqdn (recordSet desired zoneFqdn)
  same : ∀ actual ∈ actualMap records desired.key, diff actual desired = false
  written : ∀ (env : SyncEnv) (w : SyncWorld), env.Reliable → binding ∈ w.db.bindings →
    env.listings w.listings binding creds = .ok records →
    ∀ row ∈ w.db.desiredOf binding.id, parseDesiredRecord row = .ok desired →
      ∃ w' s, (worker.observeOneBinding binding).run (handleSync env) w = (.ok (), w') ∧
        w'.db.syncStates.find? (row.id, binding.id) = some s ∧ s.status = .inSync

omit [Route53Order] in
/-- An observe pass writes `in_sync` for a record that is found and does not differ. -/
private theorem observe_inSync (hjson : ∀ r, ∃ text, SerdeJson.recordToString r = .ok text)
    {binding : ProviderBinding} {creds : Credentials} (hfetch : Fetches worker binding creds)
    {desired actual : ProviderRecord} {records : List ProviderRecord}
    (hfound : actualMap records desired.key = some actual) (hsame : diff actual desired = false)
    {env : SyncEnv} {w : SyncWorld} (henv : env.Reliable) (hb : binding ∈ w.db.bindings)
    (hlist : env.listings w.listings binding creds = .ok records) {row : DesiredRecord}
    (hrow : row ∈ w.db.desiredOf binding.id) (hparse : parseDesiredRecord row = .ok desired) :
    ∃ w' s, (worker.observeOneBinding binding).run (handleSync env) w = (.ok (), w') ∧
      w'.db.syncStates.find? (row.id, binding.id) = some s ∧ s.status = .inSync := by
  -- the pass compares with what `list_records` returned
  have hfetched : worker.fetched env w.listings binding = .ok (actualMap records) := by
    unfold ReconcileWorker.fetched
    rw [if_neg (not_not_intro hfetch.adapter), hfetch.creds]
    change ((env.listings w.listings binding creds).mapError _).bind _ = _
    rw [hlist]
    rfl
  have hobs : observation (worker.fetched env w.listings binding) row =
      some ⟨(SerdeJson.recordToString actual).toOption, .inSync, none⟩ := by
    simp only [observation, hfetched, hparse, hfound, hsame, Bool.false_eq_true, if_false]
  obtain ⟨w', hrun, hleft⟩ := run_observeOneBinding worker hjson henv hb
  have hwritten := hleft.written row hrow
  rw [hobs] at hwritten
  exact ⟨w', _, hrun, hwritten, by simp [Observation.row]⟩

variable [AwsSdk]

/-- After an accepted `upsert_record` into a hosted zone that had no such record set, a listing
    of the zone ends and is found in sync exactly when the name of the record is stable, no
    TXT value carries quotes of its own, and no record set that is listed later shadows it. -/
theorem observed_inSync_iff (hjson : ∀ r, ∃ text, SerdeJson.recordToString r = .ok text)
    {binding : ProviderBinding} {creds : Credentials} (hfetch : Fetches worker binding creds)
    {env : Route53Env} {desired : ProviderRecord} {w w' : Route53World}
    (hupsert : (upsertRecord creds binding.providerZoneId desired).run (handleRoute53 env) w =
      (.ok (), w'))
    (hnew : ∀ o ∈ w.zone.sets, ¬ HostedZone.SameSet o (recordSet desired w.zone.name))
    (hok : ∀ n, env.failures n = none)
    (hpages : CleanPages env.pageSize (w'.requests + 1) [] w'.zone.sets) :
    (∃ fuel records w'', (listRecords fuel creds binding.providerZoneId).run
        (handleRoute53 env) w' = (.ok (some records), w'') ∧
        FoundInSync worker w.zone.name binding creds desired records) ↔
      StableName desired.name w.zone.name ∧
        (desired.recordType = .txt → ∀ v ∈ desired.values, isQuoted v = false) ∧
        ¬ Shadowed w.zone desired := by
  obtain ⟨hid, ⟨client, hclient⟩, hzone⟩ := run_upsertRecord_eq_ok hupsert
  have hname : w'.zone.name = w.zone.name := by
    rw [hzone, HostedZone.upsert]
    split <;> rfl
  have hid' : normalizeZoneId binding.providerZoneId = w'.zone.id := by
    rw [hid, hzone, HostedZone.upsert]
    split <;> rfl
  obtain ⟨before, hsets⟩ := sets_upsert hnew
  obtain ⟨actual, hactual⟩ : ∃ actual,
      reported w.zone.name (recordSet desired w.zone.name) = some actual :=
    ⟨_, reported_recordSet desired w.zone.name⟩
  have hfound := actualMap_listing hactual before
  have hlisting : ∀ fuel, ∃ w'', _ := run_listRecords hok hpages hclient hid'
  rw [hname, hzone, hsets] at hlisting
  rw [← and_assoc, ← diff_reported_iff hactual]
  constructor
  · rintro ⟨fuel, records, w'', hrun, hsync⟩
    obtain ⟨w₁, ⟨hnone, -⟩ | hsome⟩ := hlisting fuel
    · -- a listing that ran out of requests has no records
      exact nomatch congrArg Prod.fst (hnone.symm.trans hrun)
    · obtain rfl := Option.some.inj (Except.ok.inj (congrArg Prod.fst (hsome.symm.trans hrun)))
      have hkey := hsync.found.trans hactual
      obtain ⟨hsamekey, hclear⟩ := hfound.mp hkey
      exact ⟨⟨hsamekey, hsync.same actual hkey⟩, hclear⟩
  · rintro ⟨⟨hsamekey, hsame⟩, hclear⟩
    have hkey := hfound.mpr ⟨hsamekey, hclear⟩
    -- one request more than there are record sets is enough
    obtain ⟨w₁, ⟨-, hfuel⟩ | hsome⟩ :=
      hlisting ((before ++ recordSet desired w.zone.name :: listedAfter w.zone desired).length + 1)
    · omega
    · refine ⟨_, _, w₁, hsome, hkey.trans hactual.symm, fun r hr => ?_, ?_⟩
      · obtain rfl := Option.some.inj (hkey.symm.trans hr)
        exact hsame
      · intro senv sw henv hb hlist row hrow hparse
        exact observe_inSync worker hjson hfetch hkey hsame henv hb hlist hrow hparse

end Worker

section Sample

open Sample

/-- The credentials of the bindings. -/
private def creds : Credentials := ⟨[("access_key_id", "AKIA"), ("secret_access_key", "s3")]⟩

/-- The `A` record that is created under the given name. -/
private def named (name : String) : ProviderRecord :=
  { name, recordType := .a, ttl := 300, values := ["192.0.2.1"] }

/-- The database after the creation of the record. -/
private def namedCreated (name : String) : Except ApiError RecordView × Database :=
  createRecord twoBindings "z1" "r3" "2024-01-15T12:30:00+00:00"
    { name, recordType := .a, ttl := 300, values := ["192.0.2.1"] }

/-- The service after the record was written. -/
private def namedWritten (name : String) : Except ProviderError Unit × Route53World :=
  (upsertRecord creds "Z1" (named name)).run (handleRoute53 route53Env) { zone := hostedZone }

/-- What is listed then. -/
private def namedListed (name : String) : List ProviderRecord :=
  match ((listRecords 2 creds "Z1").run (handleRoute53 route53Env) (namedWritten name).2).1 with
  | .ok (some records) => records
  | _ => []

/-- A record `WWW` is accepted and written, but the listing reports it as `www`: the observe
    pass finds no record `WWW` and writes `drift`. -/
theorem observed_drift :
    (namedCreated "WWW").1.isOk = true ∧
      ((namedCreated "WWW").2.desiredRecords.find? "r3").map parseDesiredRecord =
        some (.ok (named "WWW")) ∧
      (namedWritten "WWW").1 = .ok () ∧
      ((listRecords 2 creds "Z1").run (handleRoute53 route53Env) (namedWritten "WWW").2).1 =
        .ok (some (namedListed "WWW")) ∧
      actualMap (namedListed "WWW") (named "WWW").key = none ∧
      ((worker.observeOneBinding (binding "b1" "Z1")).run
        (handleSync (syncEnv (namedListed "WWW"))) { db := (namedCreated "WWW").2 }).1 = .ok () ∧
      (((worker.observeOneBinding (binding "b1" "Z1")).run
        (handleSync (syncEnv (namedListed "WWW")))
          { db := (namedCreated "WWW").2 }).2.db.syncStates.find? ("r3", "b1")).map (·.status) =
        some .drift := by
  decide +kernel

/-- A record `blog` is found in sync. -/
theorem observed_inSync_iff_blog :
    ∃ fuel records w'', (listRecords fuel creds (binding "b1" "Z1").providerZoneId).run
      (handleRoute53 route53Env) (namedWritten "blog").2 = (.ok (some records), w'') ∧
      FoundInSync worker "example.com." (binding "b1" "Z1") creds (named "blog") records := by
  have hfetch : Fetches worker (binding "b1" "Z1") creds := ⟨by decide, by decide +kernel⟩
  have hupsert : namedWritten "blog" = (.ok (), (namedWritten "blog").2) :=
    Prod.ext (by decide +kernel) rfl
  refine (observed_inSync_iff worker (fun _ => ⟨_, rfl⟩) hfetch hupsert (by decide +kernel)
    (fun _ => rfl) (.last (by decide +kernel))).mpr ⟨.inr (by decide +kernel), ?_, ?_⟩
  · exact fun h => (nomatch h)
  · have hlater : listedAfter hostedZone (named "blog") = [] := by decide +kernel
    rintro ⟨other, hother, -⟩
    change actualMap ((listedAfter hostedZone (named "blog")).filterMap _) _ = some other at hother
    rw [hlater] at hother
    cases hother

end Sample

end DnsManager
