import DnsManager.Adapters.Route53.Hosted
import DnsManager.Spec.ObservedInSync
import DnsManager.Spec.Route53Delete
import DnsManager.Spec.Route53Map

/-!
# Hosted zones as maps

A hosted zone with simple routing, whose names are spelled as Route53 spells them, is a map from
record keys to records: `UPSERT` of the record set of a record gives the key of the record that
record, and deleting what is found for a key removes the key.

## Key results
- `Simple.shown_eq_some_iff`: what such a zone shows under a key.
- `Simple.upsert`, `Simple.erase`: the changes keep such zones.
- `Simple.shown_upsert`, `Simple.shown_erase`: what the changes make of the map.
-/

namespace DnsManager.Route53

open RustStr

/-! ## Canonical records -/

/-- The characters that Route53 stores and lists as they are. -/
def plainChar (c : Char) : Bool := c.isLower || c.isDigit || c == '-' || c == '_' || c == '.'

/-- A relative name in the spelling in which it comes back from Route53. -/
def CanonicalName (name : String) : Prop := name = "@" ∨ name.toList.all plainChar = true

instance : DecidablePred CanonicalName := fun _ => inferInstanceAs (Decidable (_ ∨ _))

private theorem plainChar_facts {c : Char} (h : plainChar c = true) :
    c.toNat < 128 ∧ c.toLower = c := by
  have hnat : 97 ≤ c.toNat ∧ c.toNat ≤ 122 ∨ 48 ≤ c.toNat ∧ c.toNat ≤ 57 ∨ c.toNat = 45 ∨
      c.toNat = 95 ∨ c.toNat = 46 := by
    simp only [plainChar, Bool.or_eq_true, beq_iff_eq] at h
    rcases h with (((h | h) | rfl) | rfl) | rfl
    · have hrange : (decide ('a'.val ≤ c.val) && decide (c.val ≤ 'z'.val)) = true := h
      exact .inl (by simpa [UInt32.le_iff_toNat_le] using hrange)
    · have hrange : (decide ('0'.val ≤ c.val) && decide (c.val ≤ '9'.val)) = true := h
      exact .inr (.inl (by simpa [UInt32.le_iff_toNat_le] using hrange))
    · exact .inr (.inr (.inl (by decide)))
    · exact .inr (.inr (.inr (.inl (by decide))))
    · exact .inr (.inr (.inr (.inr (by decide))))
  rcases toLower_cases c with ⟨-, hlower⟩ | ⟨hlow, hhigh, -⟩
  · exact ⟨by omega, hlower⟩
  · omega

namespace CanonicalName

private theorem facts {name : String} (h : CanonicalName name) :
    ∀ c ∈ name.toList, c.toNat < 128 ∧ c.toLower = c := by
  rcases h with rfl | h
  · intro c hc
    obtain rfl : c = '@' := by simpa using hc
    exact ⟨by decide, by decide⟩
  · exact fun c hc => plainChar_facts (List.all_eq_true.mp h c hc)

theorem map_toLower {name : String} (h : CanonicalName name) :
    name.toList.map Char.toLower = name.toList :=
  (List.map_congr_left fun c hc => (h.facts c hc).2).trans (List.map_id _)

/-- A canonical name survives the way to Route53 and back. -/
theorem toRelativeName_toFqdn [UnicodeData] {name zoneFqdn : String} (h : CanonicalName name)
    (hzone : ∀ c ∈ zoneFqdn.toList, c.toNat < 128) :
    toRelativeName (toFqdn name zoneFqdn) zoneFqdn = name := by
  rw [toRelativeName_toFqdn_ascii (fun c hc => (h.facts c hc).1) hzone, h.map_toLower,
    String.ofList_toList]
  split
  · next hat => exact hat.symm
  · rfl

/-- Canonical names are the same to Route53 only when they are the same. -/
theorem fqdnsEqual_iff {a b zoneFqdn : String} (ha : CanonicalName a) (hb : CanonicalName b) :
    fqdnsEqual (toFqdn a zoneFqdn) (toFqdn b zoneFqdn) = true ↔ a = b := by
  rw [fqdnsEqual_toFqdn, eqIgnoreAsciiCase, ha.map_toLower, hb.map_toLower, beq_iff_eq,
    String.toList_inj]

end CanonicalName

/-- A record that comes back from Route53 as it was written. -/
structure CanonicalRecord (record : ProviderRecord) : Prop where
  name : CanonicalName record.name
  /-- The quotes of a TXT value are taken for those of Route53. -/
  unquoted : record.recordType = .txt → ∀ v ∈ record.values, isQuoted v = false

instance : DecidablePred CanonicalRecord := fun record =>
  decidable_of_iff (CanonicalName record.name ∧
      (record.recordType = .txt → ∀ v ∈ record.values, isQuoted v = false))
    ⟨fun h => ⟨h.1, h.2⟩, fun h => ⟨h.name, h.unquoted⟩⟩

/-- A canonical record is reported for its record set. -/
theorem reported_canonical [UnicodeData] {record : ProviderRecord} {zoneFqdn : String}
    (h : CanonicalRecord record) (hzone : ∀ c ∈ zoneFqdn.toList, c.toNat < 128) :
    reported zoneFqdn (recordSet record zoneFqdn) = some record := by
  have hvalues : record.values.map (roundTripValue record.recordType) = record.values := by
    refine (List.map_congr_left fun v hv => ?_).trans (List.map_id _)
    unfold roundTripValue
    split
    · next htxt => exact stripTxtQuotes_addTxtQuotes (h.unquoted htxt v hv)
    · rfl
  rw [reported_recordSet, h.name.toRelativeName_toFqdn hzone, hvalues]

/-! ## Simple zones -/

/-- Where the record set of a key stands in the order of the service. -/
def setKey (zoneFqdn : String) (key : RecordKey) : SetKey :=
  (toFqdn key.name zoneFqdn, recordTypeToRrType key.recordType)

theorem setKey_inj [UnicodeData] {zoneFqdn : String} {a b : RecordKey}
    (hzone : ∀ c ∈ zoneFqdn.toList, c.toNat < 128) (ha : CanonicalName a.name)
    (hb : CanonicalName b.name) (h : setKey zoneFqdn a = setKey zoneFqdn b) : a = b := by
  obtain ⟨hname, htype⟩ := Prod.mk.inj h
  have hnames := congrArg (toRelativeName · zoneFqdn) hname
  have htypes := congrArg rrTypeToRecordType htype
  simp only [ha.toRelativeName_toFqdn hzone, hb.toRelativeName_toFqdn hzone] at hnames
  simp only [rrTypeToRecordType_recordTypeToRrType, Option.some.injEq] at htypes
  obtain ⟨an, at'⟩ := a
  obtain ⟨bn, bt⟩ := b
  exact congrArg₂ RecordKey.mk hnames htypes

variable [Route53Order]

/-- A hosted zone with simple routing: no two record sets have one name and type. Its names are
    spelled as Route53 spells them, and its record sets are listed in the order of the service. -/
structure HostedZone.Simple (zone : HostedZone) : Prop where
  ascii : ∀ c ∈ zone.name.toList, c.toNat < 128
  names : ∀ rrs ∈ zone.sets, ∃ name, CanonicalName name ∧ rrs.name = toFqdn name zone.name
  routing : ∀ rrs ∈ zone.sets, rrs.setIdentifier = none
  sorted : (zone.sets.map (·.key)).Pairwise fun a b => Route53Order.le b a = false

/-- The service tells any two names or types apart when it lists record sets. -/
class StrictRoute53Order : Prop where
  antisymm : ∀ a b : SetKey, Route53Order.le a b = true → Route53Order.le b a = true →
    fqdnsEqual a.1 b.1 = true ∧ a.2 = b.2

namespace HostedZone.Simple

variable {zone : HostedZone}

theorem nodup_keys (h : zone.Simple) : (zone.sets.map (·.key)).Nodup :=
  h.sorted.imp fun {a b} hlt heq => by
    rw [heq, le_refl] at hlt
    cases hlt

theorem eq_of_key_eq (h : zone.Simple) {a b : ResourceRecordSet} (ha : a ∈ zone.sets)
    (hb : b ∈ zone.sets) (hkey : a.key = b.key) : a = b :=
  List.inj_on_of_nodup_map h.nodup_keys ha hb hkey

/-- A record set that is new to the zone by its name and type is another one to the service. -/
theorem sameSet_iff (h : zone.Simple) {o : ResourceRecordSet} (ho : o ∈ zone.sets)
    {record : ProviderRecord} (hname : CanonicalName record.name) :
    HostedZone.SameSet o (recordSet record zone.name) ↔
      o.key = (recordSet record zone.name).key := by
  obtain ⟨name, hcanonical, hspelled⟩ := h.names o ho
  have hfqdn : fqdnsEqual o.name (recordSet record zone.name).name = true ↔
      o.name = (recordSet record zone.name).name := by
    rw [hspelled]
    change fqdnsEqual _ (toFqdn record.name zone.name) = true ↔ _ = toFqdn record.name zone.name
    rw [hcanonical.fqdnsEqual_iff hname]
    constructor
    · rintro rfl
      rfl
    · intro heq
      rw [← hcanonical.fqdnsEqual_iff hname, heq]
      exact eqIgnoreAsciiCase_self _
  unfold HostedZone.SameSet
  rw [hfqdn, h.routing o ho, ResourceRecordSet.key, ResourceRecordSet.key, Prod.mk.injEq]
  constructor
  · rintro ⟨hname, htype, -⟩
    exact ⟨hname, htype⟩
  · rintro ⟨hname, htype⟩
    exact ⟨hname, htype, rfl⟩

/-! ## The changes of a zone -/

/-- The record sets after an `UPSERT`: the new one, and those of another name or type. -/
theorem mem_upsert (h : zone.Simple) {record : ProviderRecord} (hname : CanonicalName record.name)
    {o : ResourceRecordSet} : o ∈ (zone.upsert (recordSet record zone.name)).sets ↔
      o = recordSet record zone.name ∨
        o ∈ zone.sets ∧ o.key ≠ (recordSet record zone.name).key := by
  unfold HostedZone.upsert
  split
  · next hany =>
    obtain ⟨old, hold, hsame⟩ := List.any_eq_true.mp hany
    have hsame := of_decide_eq_true hsame
    simp only [List.mem_map]
    constructor
    · rintro ⟨o, ho, rfl⟩
      split
      · exact .inl rfl
      · next hne => exact .inr ⟨ho, fun hkey => hne ((h.sameSet_iff ho hname).mpr hkey)⟩
    · rintro (rfl | ⟨ho, hne⟩)
      · exact ⟨old, hold, if_pos hsame⟩
      · exact ⟨o, ho, if_neg fun hsame => hne ((h.sameSet_iff ho hname).mp hsame)⟩
  · next hany =>
    simp only [HostedZone.insertSet, List.mem_orderedInsert]
    refine or_congr_right ⟨fun ho => ⟨ho, fun hkey => hany ?_⟩, fun ho => ho.1⟩
    exact List.any_eq_true.mpr ⟨o, ho, decide_eq_true ((h.sameSet_iff ho hname).mpr hkey)⟩

/-- A record set that is filed in order. -/
private theorem sorted_insertSet {rrs : ResourceRecordSet} {sets : List ResourceRecordSet}
    (hsorted : (sets.map (·.key)).Pairwise fun a b => Route53Order.le b a = false)
    (hnew : ∀ o ∈ sets, Route53Order.le rrs.key o.key = true →
      Route53Order.le o.key rrs.key = false) :
    ((HostedZone.insertSet rrs sets).map (·.key)).Pairwise
      fun a b => Route53Order.le b a = false := by
  induction sets with
  | nil => exact List.pairwise_singleton _ _
  | cons o sets ih =>
    obtain ⟨hfirst, hrest⟩ := List.pairwise_cons.mp hsorted
    obtain ⟨hnew, hnews⟩ := List.forall_mem_cons.mp hnew
    have hlater : ∀ x ∈ sets, Route53Order.le x.key o.key = false :=
      fun x hx => hfirst x.key (List.mem_map_of_mem hx)
    unfold HostedZone.insertSet at *
    rw [List.orderedInsert_cons]
    split
    · next hle =>
      refine List.pairwise_cons.mpr ⟨List.forall_mem_map.mpr ?_, hsorted⟩
      refine List.forall_mem_cons.mpr ⟨hnew hle, fun x hx => ?_⟩
      -- what comes after `o` comes after the new record set
      by_contra hnot
      have hback := Route53Order.le_trans _ _ _ (Bool.of_not_eq_false hnot) hle
      rw [hlater x hx] at hback
      cases hback
    · next hnle =>
      refine List.pairwise_cons.mpr ⟨List.forall_mem_map.mpr fun x hx => ?_, ih hrest hnews⟩
      rcases (List.mem_orderedInsert _).mp hx with rfl | hx
      · exact Bool.of_not_eq_true hnle
      · exact hlater x hx

/-- An `UPSERT` keeps the zone simple. -/
theorem upsert [StrictRoute53Order] (h : zone.Simple) {record : ProviderRecord}
    (hname : CanonicalName record.name) : (zone.upsert (recordSet record zone.name)).Simple := by
  have hzone : (zone.upsert (recordSet record zone.name)).name = zone.name := by
    unfold HostedZone.upsert
    split <;> rfl
  constructor
  · rw [hzone]
    exact h.ascii
  · intro o ho
    rw [hzone]
    rcases (h.mem_upsert hname).mp ho with rfl | ⟨ho, -⟩
    · exact ⟨record.name, hname, rfl⟩
    · exact h.names o ho
  · intro o ho
    rcases (h.mem_upsert hname).mp ho with rfl | ⟨ho, -⟩
    · rfl
    · exact h.routing o ho
  · unfold HostedZone.upsert
    split
    · -- the record set takes the place of one with its name and type
      have hkeys : (zone.sets.map fun o =>
          if HostedZone.SameSet o (recordSet record zone.name) then recordSet record zone.name
          else o).map (·.key) = zone.sets.map (·.key) := by
        rw [List.map_map]
        refine List.map_congr_left fun o ho => ?_
        simp only [Function.comp]
        split
        · next hsame => exact ((h.sameSet_iff ho hname).mp hsame).symm
        · rfl
      rw [hkeys]
      exact h.sorted
    · next hany =>
      refine sorted_insertSet h.sorted fun o ho hle => ?_
      by_contra hnot
      -- record sets that the service does not tell apart have one name and type
      obtain ⟨hfqdn, htype⟩ := StrictRoute53Order.antisymm _ _ (Bool.of_not_eq_false hnot) hle
      exact hany (List.any_eq_true.mpr ⟨o, ho, decide_eq_true ⟨hfqdn, htype, h.routing o ho⟩⟩)

/-- What a delete finds for a key: the record set with its name and type. -/
theorem found_eq_some_iff (h : zone.Simple) {key : RecordKey} (hname : CanonicalName key.name)
    {rrs : ResourceRecordSet} :
    zone.found key = some rrs ↔ rrs ∈ zone.sets ∧ rrs.key = setKey zone.name key := by
  constructor
  · intro hfound
    -- the name is only compared up to case, but names of the zone are canonical
    have hmem := HostedZone.mem_of_found hfound
    refine ⟨hmem, ?_⟩
    obtain ⟨-, hboth⟩ := Option.filter_eq_some_iff.mp hfound
    simp only [Bool.and_eq_true, beq_iff_eq] at hboth
    obtain ⟨name, hcanonical, hspelled⟩ := h.names rrs hmem
    rw [hspelled, hcanonical.fqdnsEqual_iff hname] at hboth
    obtain ⟨rfl, htype⟩ := hboth
    exact Prod.ext hspelled htype
  · rintro ⟨hmem, hkey⟩
    obtain ⟨before, rest, hsets⟩ := List.append_of_mem hmem
    have hsorted := h.sorted
    rw [hsets, List.map_append, List.map_cons] at hsorted
    -- the listing starts at the key, so the first of its page is the record set
    have hbefore : ∀ o ∈ before, (!Route53Order.le (setKey zone.name key) o.key) = true := by
      intro o ho
      have hlt := (List.pairwise_append.mp hsorted).2.2 o.key (List.mem_map_of_mem ho) rrs.key
        List.mem_cons_self
      rw [← hkey, hlt]
      rfl
    have hfrom : zone.setsFrom (some (toFqdn key.name zone.name))
        (some (recordTypeToRrType key.recordType)) = rrs :: rest := by
      change zone.sets.dropWhile (fun o => !Route53Order.le (setKey zone.name key) o.key) = _
      rw [hsets, List.dropWhile_append_of_pos hbefore]
      refine List.dropWhile_cons_of_neg ?_
      rw [hkey, le_refl]
      exact Bool.false_ne_true
    obtain ⟨hspelled, htype⟩ := Prod.mk.inj hkey
    unfold HostedZone.found
    dsimp only
    rw [hfrom]
    refine Option.filter_eq_some_iff.mpr ⟨rfl, ?_⟩
    rw [Bool.and_eq_true, beq_iff_eq, hspelled]
    exact ⟨eqIgnoreAsciiCase_self _, htype⟩

/-- Without one record set the zone stays simple. -/
theorem erase (h : zone.Simple) (rrs : ResourceRecordSet) :
    ({ zone with sets := zone.sets.erase rrs } : HostedZone).Simple where
  ascii := h.ascii
  names o ho := h.names o (List.mem_of_mem_erase ho)
  routing o ho := h.routing o (List.mem_of_mem_erase ho)
  sorted := h.sorted.sublist (List.erase_sublist.map _)

/-! ## The map of a zone -/

variable [UnicodeData]

/-- The names and types of a record set, from the key of what is reported for it. -/
theorem key_of_reported (h : zone.Simple) {rrs : ResourceRecordSet} (hrrs : rrs ∈ zone.sets)
    {r : ProviderRecord} (hr : reported zone.name rrs = some r) :
    CanonicalName r.key.name ∧ rrs.key = setKey zone.name r.key := by
  obtain ⟨hname, htype⟩ := reported_key hr
  obtain ⟨name, hcanonical, hspelled⟩ := h.names rrs hrrs
  rw [hspelled, hcanonical.toRelativeName_toFqdn h.ascii] at hname
  rw [hname]
  refine ⟨hcanonical, Prod.ext ?_ htype.symm⟩
  rw [setKey, hname]
  exact hspelled

/-- What the zone shows under a key: the record that is reported for some record set. -/
theorem shown_eq_some_iff (h : zone.Simple) {key : RecordKey} {r : ProviderRecord} :
    zone.shown key = some r ↔
      ∃ rrs ∈ zone.sets, reported zone.name rrs = some r ∧ r.key = key := by
  unfold HostedZone.shown
  constructor
  · intro hfound
    have hmem := List.mem_reverse.mp (List.mem_of_find?_eq_some hfound)
    obtain ⟨rrs, hrrs, hr⟩ := List.mem_filterMap.mp hmem
    exact ⟨rrs, hrrs, hr, key_of_actualMap hfound⟩
  · rintro ⟨rrs, hrrs, hr, rfl⟩
    refine actualMap_eq_some (List.mem_filterMap.mpr ⟨rrs, hrrs, hr⟩) fun r' hr' hkey => ?_
    obtain ⟨rrs', hrrs', hreported⟩ := List.mem_filterMap.mp hr'
    -- two record sets with one reported key have one name and type
    have hsame : rrs' = rrs := h.eq_of_key_eq hrrs' hrrs (by
      rw [(h.key_of_reported hrrs' hreported).2, (h.key_of_reported hrrs hr).2, hkey])
    rw [hsame] at hreported
    exact Option.some.inj (hreported.symm.trans hr)

variable [AwsSdk]

/-- Every listing that ends shows the map of the zone. -/
theorem actualMap_of_listRecords {w w' : Route53World} (h : w.zone.Simple) {env : Route53Env}
    {fuel : Nat} {creds : Credentials} {providerZoneId : String} {records : List ProviderRecord}
    (hrun : (listRecords fuel creds providerZoneId).run (handleRoute53 env) w =
      (.ok (some records), w')) : actualMap records = w.zone.shown := by
  obtain ⟨-, honly⟩ := run_listRecords_eq_ok hrun
  funext key
  refine Option.ext fun r => ?_
  rw [h.shown_eq_some_iff]
  constructor
  · intro hfound
    obtain ⟨rrs, hrrs, hr⟩ := honly r (List.mem_reverse.mp (List.mem_of_find?_eq_some hfound))
    exact ⟨rrs, hrrs, hr, key_of_actualMap hfound⟩
  · rintro ⟨rrs, hrrs, hr, rfl⟩
    refine actualMap_eq_some (run_listRecords_reports hrun hrrs hr) fun r' hr' hkey => ?_
    obtain ⟨rrs', hrrs', hreported⟩ := honly r' hr'
    have hshown := h.shown_eq_some_iff.mpr ⟨rrs, hrrs, hr, rfl⟩
    exact Option.some.inj ((h.shown_eq_some_iff.mpr ⟨rrs', hrrs', hreported, hkey⟩).symm.trans
      hshown)

omit [AwsSdk] in
/-- After the `UPSERT` of a record the zone shows that record under its key, and the same as
    before under every other key. -/
theorem shown_upsert [StrictRoute53Order] (h : zone.Simple) {record : ProviderRecord}
    (hrecord : CanonicalRecord record) (key : RecordKey) :
    (zone.upsert (recordSet record zone.name)).shown key =
      if record.key = key then some record else zone.shown key := by
  have hsimple := h.upsert hrecord.name
  have hzone : (zone.upsert (recordSet record zone.name)).name = zone.name := by
    unfold HostedZone.upsert
    split <;> rfl
  have hreported := reported_canonical hrecord h.ascii
  split
  · next hkey =>
    refine hsimple.shown_eq_some_iff.mpr ⟨_, (h.mem_upsert hrecord.name).mpr (.inl rfl), ?_, hkey⟩
    rw [hzone]
    exact hreported
  · next hne =>
    refine Option.ext fun r => ?_
    rw [hsimple.shown_eq_some_iff, h.shown_eq_some_iff, hzone]
    constructor
    · rintro ⟨rrs, hrrs, hr, hkey⟩
      rcases (h.mem_upsert hrecord.name).mp hrrs with rfl | ⟨hrrs, -⟩
      · rw [hreported] at hr
        cases hr
        exact absurd hkey hne
      · exact ⟨rrs, hrrs, hr, hkey⟩
    · rintro ⟨rrs, hrrs, hr, rfl⟩
      refine ⟨rrs, (h.mem_upsert hrecord.name).mpr (.inr ⟨hrrs, fun heq => hne ?_⟩), hr, rfl⟩
      obtain ⟨hcanonical, hkey⟩ := h.key_of_reported hrrs hr
      exact setKey_inj h.ascii hrecord.name hcanonical (heq.symm.trans hkey)

omit [AwsSdk] in
/-- Without the record set that is found for a key the zone shows nothing under the key, and the
    same as before under every other key. -/
theorem shown_erase (h : zone.Simple) {key : RecordKey} (hname : CanonicalName key.name)
    {rrs : ResourceRecordSet} (hfound : zone.found key = some rrs) (key' : RecordKey) :
    ({ zone with sets := zone.sets.erase rrs } : HostedZone).shown key' =
      if key = key' then none else zone.shown key' := by
  have hsimple := h.erase rrs
  obtain ⟨hmem, hsetKey⟩ := (h.found_eq_some_iff hname).mp hfound
  have hmem_erase : ∀ o, o ∈ zone.sets.erase rrs ↔ o ≠ rrs ∧ o ∈ zone.sets := fun o =>
    h.nodup_keys.of_map.mem_erase_iff
  refine Option.ext fun r => ?_
  rw [hsimple.shown_eq_some_iff]
  split
  · next hkey =>
    subst hkey
    refine iff_of_false ?_ (Option.some_ne_none r).symm
    rintro ⟨o, ho, hr, rfl⟩
    obtain ⟨hne, ho⟩ := (hmem_erase o).mp ho
    exact hne (h.eq_of_key_eq ho hmem ((h.key_of_reported ho hr).2.trans hsetKey.symm))
  · next hne =>
    rw [h.shown_eq_some_iff]
    constructor
    · rintro ⟨o, ho, hr, hkey⟩
      exact ⟨o, ((hmem_erase o).mp ho).2, hr, hkey⟩
    · rintro ⟨o, ho, hr, rfl⟩
      refine ⟨o, (hmem_erase o).mpr ⟨fun heq => hne ?_, ho⟩, hr, rfl⟩
      subst heq
      obtain ⟨hcanonical, hkey⟩ := h.key_of_reported ho hr
      exact setKey_inj h.ascii hname hcanonical (hsetKey.symm.trans hkey)

omit [AwsSdk] in
/-- Where nothing is found for a key, nothing is shown under it. -/
theorem shown_of_found_eq_none (h : zone.Simple) {key : RecordKey} (hname : CanonicalName key.name)
    (hfound : zone.found key = none) : zone.shown key = none := by
  refine Option.eq_none_iff_forall_ne_some.mpr fun r hr => ?_
  obtain ⟨rrs, hrrs, hreported, rfl⟩ := h.shown_eq_some_iff.mp hr
  have hsome := (h.found_eq_some_iff hname).mpr ⟨hrrs, (h.key_of_reported hrrs hreported).2⟩
  rw [hfound] at hsome
  cases hsome

end HostedZone.Simple

end DnsManager.Route53
