import DnsManager.Adapters.Route53.Convert

/-!
# Names on the way to Route53 and back

Route53 has absolute names, the program names relative to the zone. Both ways lose no more than
the case of ASCII letters, except that an absolute name `@.zone` cannot be told from the apex.

## Key results
- `toRelativeName_toFqdn_ascii`: a relative name comes back in lower case.
- `fqdnsEqual_toFqdn_toRelativeName`: an absolute name comes back up to case.
- `fqdnsEqual_of_toRelativeName_eq`: names that are told apart by Route53 have different relative
  names.
-/

namespace DnsManager.Route53

open RustStr

/-- The name is the name of the zone or ends with it, up to ASCII case. -/
def InZone (fqdn zoneFqdn : String) : Prop :=
  eqIgnoreAsciiCase (withoutDot fqdn) (withoutDot zoneFqdn) = true ∨
    ∃ relative zone, withoutDot fqdn = relative ++ "." ++ zone ∧
      eqIgnoreAsciiCase zone (withoutDot zoneFqdn) = true

theorem mem_of_mem_withoutDot {s : String} {c : Char} (h : c ∈ (withoutDot s).toList) :
    c ∈ s.toList := by
  unfold withoutDot at h
  cases hstrip : stripSuffix s "." with
  | none => rwa [hstrip] at h
  | some t =>
    rw [hstrip] at h
    rw [stripSuffix_eq_some.mp hstrip, String.toList_append]
    exact List.mem_append_left _ h

theorem ascii_of_all {s : String} (h : (s.toList.all fun c => c.toNat < 128) = true) :
    ∀ c ∈ s.toList, c.toNat < 128 :=
  fun c hc => of_decide_eq_true (List.all_eq_true.mp h c hc)

/-- ASCII text that is equal up to case has ASCII text on the other side. -/
theorem ascii_of_eqIgnoreAsciiCase {a b : String} (h : eqIgnoreAsciiCase a b = true)
    (ha : ∀ c ∈ a.toList, c.toNat < 128) : ∀ c ∈ b.toList, c.toNat < 128 := by
  intro c hc
  have hlower : c.toLower ∈ a.toList.map Char.toLower := by
    rw [beq_iff_eq.mp h]
    exact List.mem_map_of_mem hc
  obtain ⟨d, hd, hdc⟩ := List.mem_map.mp hlower
  rw [← toNat_toLower_lt_iff, ← hdc, toNat_toLower_lt_iff]
  exact ha d hd

/-- A relative name in ASCII comes back from Route53 in lower case. -/
theorem toRelativeName_toFqdn_ascii [UnicodeData] {r zoneFqdn : String}
    (hr : ∀ c ∈ r.toList, c.toNat < 128) (hzone : ∀ c ∈ zoneFqdn.toList, c.toNat < 128) :
    toRelativeName (toFqdn r zoneFqdn) zoneFqdn =
      if r = "@" then "@" else String.ofList (r.toList.map Char.toLower) := by
  by_cases hat : r = "@"
  · rw [if_pos hat, hat]
    exact (toRelativeName_toFqdn "@" zoneFqdn).mpr (.inl rfl)
  · have hzone' : ∀ c ∈ (withoutDot zoneFqdn).toList, c.toNat < 128 := fun c hc =>
      hzone c (mem_of_mem_withoutDot hc)
    have hwhole : ∀ c ∈ (r ++ "." ++ withoutDot zoneFqdn).toList, c.toNat < 128 := by
      intro c hc
      simp only [String.toList_append, List.mem_append] at hc
      rcases hc with (hc | hc) | hc
      · exact hr c hc
      · obtain rfl := List.mem_singleton.mp hc
        decide
      · exact hzone' c hc
    -- lower case is taken before the zone is cut off
    have hlower : toLowercase (r ++ "." ++ withoutDot zoneFqdn) =
        String.ofList (r.toList.map Char.toLower) ++ ("." ++ toLowercase (withoutDot zoneFqdn)) := by
      rw [toLowercase_ascii hwhole, toLowercase_ascii hzone', ← String.toList_inj]
      simp [String.toList_append]
    simp only [toRelativeName, toFqdn, if_neg hat, withoutDot_append_dot, eqIgnoreAsciiCase_append,
      Bool.false_eq_true, if_false, hlower, stripSuffix_append]

/-- A name in ASCII that Route53 can have in the zone, and not the `@` of the zone. -/
structure ZoneName (zoneFqdn fqdn : String) : Prop where
  ascii : ∀ c ∈ fqdn.toList, c.toNat < 128
  inZone : InZone fqdn zoneFqdn
  notAt : eqIgnoreAsciiCase (withoutDot fqdn) ("@." ++ withoutDot zoneFqdn) = false

/-- Only a name with an `@` can be the `@` of a zone. -/
theorem not_atName {fqdn zoneFqdn : String} (h : '@' ∉ fqdn.toList) :
    eqIgnoreAsciiCase (withoutDot fqdn) ("@." ++ withoutDot zoneFqdn) = false := by
  apply Bool.eq_false_iff.mpr
  intro heq
  have hmap := beq_iff_eq.mp heq
  have hmem : '@' ∈ (withoutDot fqdn).toList.map Char.toLower := by
    rw [hmap, String.toList_append, List.map_append]
    exact List.mem_append_left _ (by decide)
  obtain ⟨c, hc, hlower⟩ := List.mem_map.mp hmem
  rw [toLower_eq_at hlower] at hc
  exact h (mem_of_mem_withoutDot hc)

/-- The relative name of a name in the zone translates back to it, up to case. -/
theorem fqdnsEqual_toFqdn_toRelativeName [UnicodeData] {fqdn zoneFqdn : String}
    (h : ZoneName zoneFqdn fqdn) :
    fqdnsEqual (toFqdn (toRelativeName fqdn zoneFqdn) zoneFqdn) fqdn = true := by
  unfold fqdnsEqual
  by_cases hapex : eqIgnoreAsciiCase (withoutDot fqdn) (withoutDot zoneFqdn) = true
  · rw [toRelativeName, if_pos hapex, toFqdn, if_pos rfl, withoutDot_append_dot,
      eqIgnoreAsciiCase_comm]
    exact hapex
  · obtain ⟨relative, zone, hname, hsuffix⟩ := h.inZone.resolve_left hapex
    have hname_ascii : ∀ c ∈ (withoutDot fqdn).toList, c.toNat < 128 := fun c hc =>
      h.ascii c (mem_of_mem_withoutDot hc)
    have hzone_ascii : ∀ c ∈ zone.toList, c.toNat < 128 := fun c hc =>
      hname_ascii c (by rw [hname, String.toList_append]; exact List.mem_append_right _ hc)
    -- lower case is taken before the suffix is cut off, and case is ignored in the end
    have hlower : toLowercase (withoutDot fqdn) =
        String.ofList (relative.toList.map Char.toLower) ++
          ("." ++ toLowercase (withoutDot zoneFqdn)) := by
      rw [toLowercase_ascii hname_ascii,
        toLowercase_ascii (ascii_of_eqIgnoreAsciiCase hsuffix hzone_ascii), hname,
        ← beq_iff_eq.mp hsuffix, ← String.toList_inj]
      simp [String.toList_append]
    -- the relative name is not `@`: the whole name would be the `@` of the zone
    have hrel : String.ofList (relative.toList.map Char.toLower) ≠ "@" := by
      intro heq
      have hmap := congrArg String.toList heq
      rw [String.toList_ofList] at hmap
      have hat : eqIgnoreAsciiCase (withoutDot fqdn) ("@." ++ withoutDot zoneFqdn) = true := by
        rw [eqIgnoreAsciiCase, beq_iff_eq, hname, String.append_assoc, String.toList_append,
          List.map_append, hmap, String.toList_append, List.map_append, beq_iff_eq.mp hsuffix]
        simp [String.toList_append]
      rw [h.notAt] at hat
      cases hat
    rw [toRelativeName, if_neg hapex, hlower, stripSuffix_append, toFqdn, if_neg hrel,
      withoutDot_append_dot, hname, eqIgnoreAsciiCase, beq_iff_eq]
    simp [String.toList_append, beq_iff_eq.mp hsuffix, Function.comp_def]

/-- Two names in the zone with one relative name are equal to Route53. -/
theorem fqdnsEqual_of_toRelativeName_eq [UnicodeData] {a b zoneFqdn : String}
    (ha : ZoneName zoneFqdn a) (hb : ZoneName zoneFqdn b)
    (h : toRelativeName a zoneFqdn = toRelativeName b zoneFqdn) : fqdnsEqual a b = true := by
  have hfrom := fqdnsEqual_toFqdn_toRelativeName ha
  have hto := fqdnsEqual_toFqdn_toRelativeName hb
  rw [h] at hfrom
  unfold fqdnsEqual eqIgnoreAsciiCase at *
  rw [beq_iff_eq] at *
  exact hfrom.symm.trans hto

end DnsManager.Route53
