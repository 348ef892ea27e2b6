import DnsManager.Spec.Route53Listing
import DnsManager.Spec.Route53Names
import DnsManager.Spec.Sample

/-!
# Writing an observed record back

`list_records` strips the outer quotes of a TXT value and `upsert_record` puts them back, unless
what is left is quoted already. A value of several strings is left quoted when its first and
its last string are empty, or the last one ends with an escaped quote.

## Key results
- `addTxtQuotes_stripTxtQuotes_iff`: which TXT values come back.
- `writeBack_iff`: writing the reported records back changes nothing exactly in zones without such
  TXT values.
-/

namespace DnsManager.Route53

open RustStr

/-! ## The text of TXT records -/

/-- The text between the quotes of a character string: a quote or a backslash in it is escaped. -/
inductive CharString : List Char → Prop where
  | nil : CharString []
  | plain {c : Char} {cs : List Char} (hc : c ≠ '"' ∧ c ≠ '\\') (tail : CharString cs) :
      CharString (c :: cs)
  | escaped {c : Char} {cs : List Char} (tail : CharString cs) : CharString ('\\' :: c :: cs)

/-- The text of a TXT value: quoted character strings with spaces between them. -/
inductive TxtWire : (strings : List (List Char)) → (text : List Char) → Prop where
  | one {cs : List Char} (string : CharString cs) : TxtWire [cs] ('"' :: cs ++ ['"'])
  | cons {cs : List Char} {strings : List (List Char)} {text : List Char} (string : CharString cs)
      (spaces : Nat) (tail : TxtWire strings text) :
      TxtWire (cs :: strings) ('"' :: cs ++ '"' :: List.replicate (spaces + 1) ' ' ++ text)

/-- The strings of which the quotes inside are taken for the outer ones: the first is empty, and
    the last is empty or ends with an escaped quote. -/
def QuotedInside (strings : List (List Char)) : Prop :=
  2 ≤ strings.length ∧ strings.head? = some [] ∧
    ∃ last, strings.getLast? = some last ∧ (last = [] ∨ last.getLast? = some '"')

/-- No character string starts with a quote. -/
theorem CharString.head?_ne {cs : List Char} (h : CharString cs) : cs.head? ≠ some '"' := by
  cases h with
  | nil => simp
  | plain hc _ => simpa using hc.1
  | escaped _ => simp

/-- A TXT value ends with its last string. -/
theorem TxtWire.eq_append_last {strings : List (List Char)} {text : List Char}
    (h : TxtWire strings text) :
    ∃ pre last, strings.getLast? = some last ∧ text = pre ++ '"' :: last ++ ['"'] := by
  induction h with
  | one _ => exact ⟨[], _, rfl, rfl⟩
  | cons _ spaces tail ih =>
    next cs strings text _ =>
    obtain ⟨pre, last, hlast, rfl⟩ := ih
    refine ⟨'"' :: cs ++ '"' :: List.replicate (spaces + 1) ' ' ++ pre, last, ?_, by simp⟩
    rw [List.getLast?_cons, hlast]
    rfl

/-- A quoted text is the text between its quotes. -/
theorem quoted_iff {inner : List Char} :
    (∃ x, inner = '"' :: x ++ ['"']) ↔
      2 ≤ inner.length ∧ inner.head? = some '"' ∧ inner.getLast? = some '"' := by
  constructor
  · rintro ⟨x, rfl⟩
    exact ⟨by simp, rfl, List.getLast?_concat⟩
  · rintro ⟨hlength, hhead, hlast⟩
    obtain ⟨t, rfl⟩ := List.head?_eq_some_iff.mp hhead
    rcases List.eq_nil_or_concat' t with rfl | ⟨x, c, rfl⟩
    · exact absurd hlength (by decide)
    · rw [← List.cons_append, List.getLast?_concat] at hlast
      exact ⟨x, by rw [Option.some.inj hlast, List.cons_append]⟩

/-- What is left of a TXT value between its outer quotes is quoted exactly for the strings that
    are `QuotedInside`. -/
theorem TxtWire.inner_quoted_iff {strings : List (List Char)} {text : List Char}
    (h : TxtWire strings text) :
    ∃ inner, text = '"' :: inner ++ ['"'] ∧
      ((∃ x, inner = '"' :: x ++ ['"']) ↔ QuotedInside strings) := by
  cases h with
  | one string =>
    next cs =>
    refine ⟨cs, rfl, ⟨?_, fun h => absurd h.1 (by simp)⟩⟩
    rintro ⟨x, rfl⟩
    exact absurd rfl string.head?_ne
  | cons string spaces tail =>
    next cs strings text =>
    obtain ⟨pre, last, hlast, rfl⟩ := tail.eq_append_last
    refine ⟨cs ++ '"' :: List.replicate (spaces + 1) ' ' ++ pre ++ '"' :: last, by simp, ?_⟩
    -- the text between the outer quotes starts with one exactly when the first string is empty
    have hhead : (cs ++ '"' :: List.replicate (spaces + 1) ' ' ++ pre ++ '"' :: last).head? =
        some '"' ↔ cs = [] := by
      cases cs with
      | nil => simp
      | cons c cs => simpa using string.head?_ne
    have hend : (cs ++ '"' :: List.replicate (spaces + 1) ' ' ++ pre ++ '"' :: last).getLast? =
        some '"' ↔ last = [] ∨ last.getLast? = some '"' := by
      rw [List.getLast?_append, List.getLast?_cons]
      cases last using List.reverseRecOn <;> simp
    have hlength : 2 ≤ (cs :: strings).length := by
      cases strings with
      | nil => cases hlast
      | cons _ _ => simp
    have hlast' : (cs :: strings).getLast? = some last := by
      rw [List.getLast?_cons, hlast]
      rfl
    rw [quoted_iff, hhead, hend]
    constructor
    · rintro ⟨-, rfl, hquote⟩
      exact ⟨hlength, rfl, last, hlast', hquote⟩
    · rintro ⟨-, hnil, other, hother, hquote⟩
      obtain rfl := Option.some.inj (hlast'.symm.trans hother)
      refine ⟨?_, Option.some.inj hnil, hquote⟩
      simp only [List.length_append, List.length_cons]
      omega

/-- A TXT value comes back from the record that is reported for it exactly when its strings are
    not `QuotedInside`. -/
theorem addTxtQuotes_stripTxtQuotes_iff {v : String} {strings : List (List Char)}
    (h : TxtWire strings v.toList) :
    addTxtQuotes (stripTxtQuotes v) = v ↔ ¬ QuotedInside strings := by
  obtain ⟨inner, hv, hinner⟩ := h.inner_quoted_iff
  have hv' : v = "\"" ++ String.ofList inner ++ "\"" := by
    rw [← String.toList_inj, hv]
    simp [String.toList_append]
  have hstrip : stripTxtQuotes v = String.ofList inner := by
    rw [hv', stripTxtQuotes, String.append_assoc, stripPrefix_append, Option.bind_some,
      stripSuffix_append]
  have hquoted : isQuoted (String.ofList inner) = true ↔ QuotedInside strings := by
    rw [isQuoted_iff, ← hinner]
    constructor
    · rintro ⟨x, hx⟩
      exact ⟨x.toList, by simpa [String.toList_append] using congrArg String.toList hx⟩
    · rintro ⟨x, rfl⟩
      exact ⟨String.ofList x, by rw [← String.toList_inj]; simp [String.toList_append]⟩
  rw [hstrip, addTxtQuotes, ← hquoted]
  -- a text that still looks quoted is not quoted again
  by_cases hq : isQuoted (String.ofList inner) = true
  · rw [if_pos hq, hv']
    simp only [hq, not_true, iff_false]
    intro heq
    have := congrArg (fun s : String => s.toList.length) heq
    simp [String.toList_append] at this
    omega
  · rw [if_neg hq]
    exact ⟨fun _ => hq, fun _ => hv'.symm⟩

/-! ## Record sets -/

/-- A record set without the extensions of Route53: a name inside the zone in ASCII, without `@`,
    a time to live of 32 bits, and TXT values that are quoted character strings. -/
structure ResourceRecordSet.Plain (zoneFqdn : String) (rrs : ResourceRecordSet) : Prop where
  noAlias : rrs.aliasTarget = none
  noIdentifier : rrs.setIdentifier = none
  ttl : ∃ ttl, rrs.ttl = some ttl ∧ 0 ≤ ttl.toInt ∧ ttl.toInt ≤ 4294967295
  ascii : ∀ c ∈ rrs.name.toList, c.toNat < 128
  noAt : '@' ∉ rrs.name.toList
  inZone : InZone rrs.name zoneFqdn
  txt : rrs.rrType = .txt → ∀ v ∈ rrs.resourceRecords, ∃ strings, TxtWire strings v.toList

theorem ResourceRecordSet.Plain.zoneName {zoneFqdn : String} {rrs : ResourceRecordSet}
    (h : rrs.Plain zoneFqdn) : ZoneName zoneFqdn rrs.name :=
  ⟨h.ascii, h.inZone, not_atName h.noAt⟩

/-- Two record sets say the same: their names are equal to Route53, and their types, times to live
    and values are equal. -/
structure ResourceRecordSet.SaysSame (a b : ResourceRecordSet) : Prop where
  name : fqdnsEqual a.name b.name = true
  rrType : a.rrType = b.rrType
  ttl : a.ttl = b.ttl
  values : a.resourceRecords = b.resourceRecords

/-- A time to live of 32 bits survives the way through a record. -/
theorem ttl_roundtrip {ttl : Int64} (h0 : 0 ≤ ttl.toInt) (h32 : ttl.toInt ≤ 4294967295) :
    Int64.ofInt (UInt32.ofNat (max ttl.toInt 0).toNat).toNat = ttl := by
  rw [max_eq_left h0, UInt32.toNat_ofNat_of_lt' (by simp only [UInt32.size]; omega),
    Int.toNat_of_nonneg h0, Int64.ofInt_toInt]

section WriteBack

variable [UnicodeData]

/-- The record that is reported for a plain record set. -/
theorem reported_plain {zoneFqdn : String} {rrs : ResourceRecordSet} (hplain : rrs.Plain zoneFqdn)
    {r : ProviderRecord} (h : reported zoneFqdn rrs = some r) :
    (recordSet r zoneFqdn).name = toFqdn (toRelativeName rrs.name zoneFqdn) zoneFqdn ∧
      (recordSet r zoneFqdn).rrType = rrs.rrType ∧ (recordSet r zoneFqdn).ttl = rrs.ttl ∧
      (recordSet r zoneFqdn).resourceRecords =
        if rrs.rrType = .txt then rrs.resourceRecords.map fun v => addTxtQuotes (stripTxtQuotes v)
        else rrs.resourceRecords := by
  obtain ⟨ttl, httl, h0, h32⟩ := hplain.ttl
  unfold reported at h
  cases htype : rrTypeToRecordType rrs.rrType with
  | none =>
    rw [htype] at h
    cases h
  | some recordType =>
    rw [htype, hplain.noAlias, httl] at h
    cases h
    have hrrType := recordTypeToRrType_of_rrTypeToRecordType htype
    refine ⟨?_, ?_, ?_, ?_⟩
    · rw [recordSet]
    · rw [recordSet, ← hrrType]
    · rw [httl]
      exact congrArg some (ttl_roundtrip h0 h32)
    · rw [← hrrType]
      by_cases htxt : recordType = .txt
      · subst htxt
        simp [recordSet, recordTypeToRrType, Function.comp_def]
      · have hne : recordTypeToRrType recordType ≠ .txt := by
          cases recordType <;> simp [recordTypeToRrType] at htxt ⊢
        simp [recordSet, htxt, hne]

omit [UnicodeData] in
private theorem map_eq_self_iff {f : String → String} {l : List String} :
    l.map f = l ↔ ∀ v ∈ l, f v = v := by
  have h := List.map_inj_left (f := f) (g := id) (l := l)
  rwa [List.map_id] at h

/-- The record set that is written for the record of a plain record set says the same exactly when
    none of its TXT values is quoted inside. -/
theorem saysSame_recordSet_iff {zoneFqdn : String} {rrs : ResourceRecordSet}
    (hplain : rrs.Plain zoneFqdn) {r : ProviderRecord} (h : reported zoneFqdn rrs = some r) :
    (recordSet r zoneFqdn).SaysSame rrs ↔
      (rrs.rrType = .txt → ∀ v ∈ rrs.resourceRecords, ∀ strings, TxtWire strings v.toList →
        ¬ QuotedInside strings) := by
  obtain ⟨hname, htype, httl, hvalues⟩ := reported_plain hplain h
  -- the value reads as strings, and every way to read it decides the same
  have hvalue : ∀ v ∈ rrs.resourceRecords, rrs.rrType = .txt →
      (addTxtQuotes (stripTxtQuotes v) = v ↔
        ∀ strings, TxtWire strings v.toList → ¬ QuotedInside strings) := by
    intro v hv htxt
    obtain ⟨strings, hstrings⟩ := hplain.txt htxt v hv
    constructor
    · exact fun heq _ hother => (addTxtQuotes_stripTxtQuotes_iff hother).mp heq
    · exact fun hall => (addTxtQuotes_stripTxtQuotes_iff hstrings).mpr (hall strings hstrings)
  constructor
  · rintro hsame htxt v hv
    have hmap := hvalues.symm.trans hsame.values
    rw [if_pos htxt] at hmap
    exact (hvalue v hv htxt).mp (map_eq_self_iff.mp hmap v hv)
  · intro hall
    refine ⟨?_, htype, httl, ?_⟩
    · rw [hname]
      exact fqdnsEqual_toFqdn_toRelativeName hplain.zoneName
    · rw [hvalues]
      by_cases htxt : rrs.rrType = .txt
      · rw [if_pos htxt]
        exact map_eq_self_iff.mpr fun v hv => (hvalue v hv htxt).mpr (hall htxt v hv)
      · rw [if_neg htxt]

/-! ## The run -/

variable [Route53Order] [AwsSdk]

/-- `upsert_record` of the record answers `Ok` and replaces the record set by one that says the
    same, and nothing else. -/
def WrittenBack (creds : Credentials) (providerZoneId : String) (env : Route53Env)
    (w : Route53World) (rrs : ResourceRecordSet) (record : ProviderRecord) : Prop :=
  ∃ w' new, (upsertRecord creds providerZoneId record).run (handleRoute53 env) w = (.ok (), w') ∧
    w'.zone.sets = (w.zone.sets.map fun o => if HostedZone.SameSet o rrs then new else o) ∧
    new.SaysSame rrs

omit [UnicodeData] in
/-- When no request fails, `upsert_record` answers `Ok`. -/
theorem run_upsertRecord_ok {env : Route53Env} (hok : ∀ n, env.failures n = none)
    {w : Route53World} {creds : Credentials} {client : Client}
    (hclient : buildClient creds = .ok client) {providerZoneId : String}
    (hid : normalizeZoneId providerZoneId = w.zone.id) (record : ProviderRecord) :
    ∃ w', (upsertRecord creds providerZoneId record).run (handleRoute53 env) w = (.ok (), w') := by
  have hreply : handleRoute53 env (.changeResourceRecordSets client
      (normalizeZoneId providerZoneId) (.upsert (recordSet record w.zone.name)))
        ⟨w.zone, w.requests + 1⟩ =
        (.ok (), ⟨w.zone.upsert (recordSet record w.zone.name), w.requests + 1 + 1⟩) := by
    simp only [handleRoute53]
    exact Route53World.request_ok (w := ⟨w.zone, w.requests + 1⟩) (hok _) hid rfl
  refine ⟨⟨w.zone.upsert (recordSet record w.zone.name), w.requests + 1 + 1⟩, ?_⟩
  simp only [upsertRecord, hclient, hid, Prog.run_bind, Prog.run_liftExcept,
    run_zoneFqdn client (hok _), run_send, hreply, Except.mapError]

/-- `upsert_record` of the record of a plain record set replaces it, so it is written back exactly
    when the new record set says the same. -/
theorem writtenBack_iff {env : Route53Env} (hok : ∀ n, env.failures n = none)
    {w : Route53World} {creds : Credentials} {client : Client}
    (hclient : buildClient creds = .ok client) {providerZoneId : String}
    (hid : normalizeZoneId providerZoneId = w.zone.id) {rrs : ResourceRecordSet}
    (hmem : rrs ∈ w.zone.sets) (hplain : rrs.Plain w.zone.name) {r : ProviderRecord}
    (h : reported w.zone.name rrs = some r) :
    WrittenBack creds providerZoneId env w rrs r ↔ (recordSet r w.zone.name).SaysSame rrs := by
  obtain ⟨hname, htype, -, -⟩ := reported_plain hplain h
  have hequal : fqdnsEqual (recordSet r w.zone.name).name rrs.name = true := by
    rw [hname]
    exact fqdnsEqual_toFqdn_toRelativeName hplain.zoneName
  -- the record set written replaces exactly the one that was read
  have hsame : ∀ o, HostedZone.SameSet o (recordSet r w.zone.name) ↔ HostedZone.SameSet o rrs :=
    fun o => by
      unfold HostedZone.SameSet
      rw [fqdnsEqual_congr_right hequal, htype, hplain.noIdentifier]
      rfl
  have hself : HostedZone.SameSet rrs rrs := ⟨eqIgnoreAsciiCase_self _, rfl, rfl⟩
  have hupsert : (w.zone.upsert (recordSet r w.zone.name)).sets =
      w.zone.sets.map fun o => if HostedZone.SameSet o rrs then recordSet r w.zone.name else o := by
    have hany : (w.zone.sets.any fun o =>
        HostedZone.SameSet o (recordSet r w.zone.name)) = true :=
      List.any_eq_true.mpr ⟨rrs, hmem, decide_eq_true ((hsame rrs).mpr hself)⟩
    rw [HostedZone.upsert, if_pos hany]
    simp only [hsame]
  constructor
  · rintro ⟨w', new, hrun, hsets, hnew⟩
    rw [(run_upsertRecord_eq_ok hrun).2.2, hupsert] at hsets
    have hat := List.map_inj_left.mp hsets rrs hmem
    rw [if_pos hself, if_pos hself] at hat
    rwa [hat]
  · intro hnew
    obtain ⟨w', hrun⟩ := run_upsertRecord_ok hok hclient hid r
    refine ⟨w', _, hrun, ?_, hnew⟩
    rw [(run_upsertRecord_eq_ok hrun).2.2, hupsert]

/-- In a zone of plain record sets, writing any reported record back replaces its record set by one
    that says the same, and nothing else, exactly when no TXT value is quoted inside. -/
theorem writeBack_iff {w : Route53World} {creds : Credentials} {client : Client}
    (hclient : buildClient creds = .ok client) {providerZoneId : String}
    (hid : normalizeZoneId providerZoneId = w.zone.id)
    (hplain : ∀ rrs ∈ w.zone.sets, rrs.Plain w.zone.name) :
    (∀ env : Route53Env, (∀ n, env.failures n = none) → ∀ fuel records w',
      (listRecords fuel creds providerZoneId).run (handleRoute53 env) w =
        (.ok (some records), w') →
      ∀ r ∈ records, ∀ rrs ∈ w'.zone.sets, reported w'.zone.name rrs = some r →
        WrittenBack creds providerZoneId env w' rrs r) ↔
      ∀ rrs ∈ w.zone.sets, rrs.rrType = .txt → ∀ v ∈ rrs.resourceRecords,
        ∀ strings, TxtWire strings v.toList → ¬ QuotedInside strings := by
  constructor
  · intro hall rrs hmem htxt
    obtain ⟨ttl, httl, -⟩ := (hplain rrs hmem).ttl
    have hsome : (reported w.zone.name rrs).isSome = true :=
      reported_isSome_iff.mpr ⟨by rw [htxt]; rfl, (hplain rrs hmem).noAlias, by rw [httl]; rfl⟩
    obtain ⟨r, hr⟩ := Option.isSome_iff_exists.mp hsome
    -- a service with one page lists the record set
    obtain ⟨env, fuel, w', hok, hrun⟩ := exists_run_listRecords w hclient hid
    obtain ⟨hzone, -⟩ := run_listRecords_eq_ok hrun
    have hback := hall env hok fuel _ w' hrun r (List.mem_filterMap.mpr ⟨rrs, hmem, hr⟩) rrs
      (hzone ▸ hmem) (hzone ▸ hr)
    rw [writtenBack_iff hok hclient (hzone ▸ hid) (hzone ▸ hmem) (hzone ▸ hplain rrs hmem)
      (hzone ▸ hr), hzone, saysSame_recordSet_iff (hplain rrs hmem) hr] at hback
    exact hback htxt
  · intro hfree env hok fuel records w' hrun r _ rrs hmem hreported
    obtain ⟨hzone, -⟩ := run_listRecords_eq_ok hrun
    rw [hzone] at hmem hreported
    rw [← hzone] at hid
    rw [writtenBack_iff hok hclient hid (hzone ▸ hmem) (hzone ▸ hplain rrs hmem)
      (hzone ▸ hreported), hzone, saysSame_recordSet_iff (hplain rrs hmem) hreported]
    exact hfree rrs hmem

end WriteBack

section Sample

open DnsManager.Sample

/-- A record set of type `TXT` with one value. -/
def txtSet (value : String) : ResourceRecordSet :=
  ⟨"txt.example.com.", .txt, none, some 300, none, [value]⟩

/-- The hosted zone with that record set. -/
def txtWorld (value : String) : Route53World := { zone := hosted (hostedZone.sets ++ [txtSet value]) }

/-- The value `"ab" "cd"`. -/
def twoStrings : String := "\"ab\" \"cd\""

/-- The value `"" ""`. -/
def twoEmpty : String := "\"\" \"\""

theorem txtWire_twoStrings : TxtWire [['a', 'b'], ['c', 'd']] twoStrings.toList :=
  have ab : CharString ['a', 'b'] := .plain (by decide) (.plain (by decide) .nil)
  have cd : CharString ['c', 'd'] := .plain (by decide) (.plain (by decide) .nil)
  .cons ab 0 (.one cd)

theorem txtWire_twoEmpty : TxtWire [[], []] twoEmpty.toList := .cons .nil 0 (.one .nil)

theorem plain_txtWorld {value : String} {strings : List (List Char)}
    (hwire : TxtWire strings value.toList) :
    ∀ rrs ∈ (txtWorld value).zone.sets, rrs.Plain (txtWorld value).zone.name := by
  have happex : InZone "example.com." "example.com." := .inl (by decide)
  have hinside : InZone "txt.example.com." "example.com." :=
    .inr ⟨"txt", "example.com", by decide, by decide⟩
  have hascii : ∀ c ∈ "txt.example.com.".toList, c.toNat < 128 := ascii_of_all (by decide)
  have hat : '@' ∉ "txt.example.com.".toList := by decide
  intro rrs hrrs
  rcases List.mem_append.mp hrrs with h | h
  · obtain rfl := List.mem_singleton.mp h
    exact ⟨rfl, rfl, ⟨_, rfl, by decide, by decide⟩, ascii_of_all (by decide), by decide, happex,
      fun htxt => by cases htxt⟩
  · obtain rfl := List.mem_singleton.mp h
    refine ⟨rfl, rfl, ⟨_, rfl, by decide, by decide⟩, hascii, hat, hinside, fun _ v hv => ?_⟩
    obtain rfl := List.mem_singleton.mp hv
    exact ⟨strings, hwire⟩

/-- A listing of the zone that reports a record of the TXT record set. -/
def TxtReported (value : String) (w' : Route53World) (r : ProviderRecord) : Prop :=
  ∃ fuel records, (listRecords fuel credentials "Z1").run (handleRoute53 route53Env)
      (txtWorld value) = (.ok (some records), w') ∧
    r ∈ records ∧ txtSet value ∈ w'.zone.sets ∧ reported w'.zone.name (txtSet value) = some r

theorem exists_txtReported (value : String) : ∃ w' r, TxtReported value w' r := by
  have hok : ∀ n, route53Env.failures n = none := fun _ => rfl
  have hlength : (txtWorld value).zone.sets.length = 2 := rfl
  have hpages : CleanPages route53Env.pageSize 1 [] (txtWorld value).zone.sets :=
    .last (by rw [hlength]; decide)
  have hid : normalizeZoneId "Z1" = (txtWorld value).zone.id := rfl
  have hmem : txtSet value ∈ (txtWorld value).zone.sets :=
    List.mem_append_right _ (List.mem_singleton_self _)
  have hsome : (reported (txtWorld value).zone.name (txtSet value)).isSome = true :=
    reported_isSome_iff.mpr ⟨rfl, rfl, rfl⟩
  obtain ⟨r, hr⟩ := Option.isSome_iff_exists.mp hsome
  obtain ⟨w', ⟨-, hfuel⟩ | hrun⟩ := run_listRecords hok hpages buildClient_credentials hid 3
  · omega
  · obtain ⟨hzone, -⟩ := run_listRecords_eq_ok hrun
    exact ⟨w', r, 3, _, hrun, List.mem_filterMap.mpr ⟨_, hmem, hr⟩, hzone ▸ hmem, hzone ▸ hr⟩

/-- The value `"ab" "cd"` comes back. -/
theorem writeBack_twoStrings :
    ∃ w' r, TxtReported twoStrings w' r ∧
      WrittenBack credentials "Z1" route53Env w' (txtSet twoStrings) r := by
  obtain ⟨w', r, fuel, records, hrun, hr, hmem, hset⟩ := exists_txtReported twoStrings
  refine ⟨w', r, ⟨fuel, records, hrun, hr, hmem, hset⟩, (writeBack_iff buildClient_credentials (by decide)
    (plain_txtWorld txtWire_twoStrings)).mpr (fun rrs hrrs htxt v hv strings hwire => ?_)
    route53Env (fun _ => rfl) fuel records w' hrun r hr (txtSet twoStrings) hmem hset⟩
  rcases List.mem_append.mp hrrs with h | h
  · obtain rfl := List.mem_singleton.mp h
    cases htxt
  · obtain rfl := List.mem_singleton.mp h
    obtain rfl := List.mem_singleton.mp hv
    exact (addTxtQuotes_stripTxtQuotes_iff hwire).mp (by decide)

/-- The value `"" ""` is reported as `" "`, which is written as it is: one string with a space. -/
theorem writeBack_twoEmpty :
    (∀ rrs ∈ (txtWorld twoEmpty).zone.sets, rrs.Plain (txtWorld twoEmpty).zone.name) ∧
      ∃ w' r, TxtReported twoEmpty w' r ∧
        ¬ WrittenBack credentials "Z1" route53Env w' (txtSet twoEmpty) r := by
  have hplain := plain_txtWorld txtWire_twoEmpty
  obtain ⟨w', r, fuel, records, hrun, hr, hmem, hset⟩ := exists_txtReported twoEmpty
  refine ⟨hplain, w', r, ⟨fuel, records, hrun, hr, hmem, hset⟩, fun hback => ?_⟩
  obtain ⟨hzone, -⟩ := run_listRecords_eq_ok hrun
  rw [hzone] at hmem hset
  have hset' := hzone ▸ hset
  rw [writtenBack_iff (fun _ => rfl) buildClient_credentials (hzone ▸ rfl) (hzone ▸ hmem)
    (hzone ▸ hplain _ hmem) hset', hzone, saysSame_recordSet_iff (hplain _ hmem) hset] at hback
  exact hback rfl twoEmpty (List.mem_singleton_self _) [[], []] txtWire_twoEmpty
    ⟨by decide, rfl, [], rfl, .inl rfl⟩

end Sample

end DnsManager.Route53
