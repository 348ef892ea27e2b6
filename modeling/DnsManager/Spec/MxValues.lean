import DnsManager.Adapters.Route53.Validate
import DnsManager.Spec.Sample

/-!
# The MX validator and the MX comparison

`validate_record` cuts an MX value at its first space and asks for a priority in front of it
and for some text behind it. `normalize_for_comparison` trims the value first. The two agree
unless the text behind the space is white space only: the trimmed value then has no space
left, and it is compared as an opaque text.

## Key results
- `parseMx_trim_eq_some`, `parseMx_trim_eq_none`: what the comparison reads of a value the
  validator accepts.
- `validated_mx_parsed_iff`: the values on which the two agree.
-/

namespace DnsManager.Route53

open RustStr

/-- An MX value the validator accepts, cut at its first space. -/
structure MxParts (v before after : String) (priority : UInt16) : Prop where
  split : splitOnce v ' ' = some (before, after)
  priority_eq : parseU16 before = some priority
  after_ne : after ≠ ""

theorem mxPriority_of_split {v before after : String} (h : splitOnce v ' ' = some (before, after)) :
    mxPriority v = parseU16 before := by
  unfold mxPriority
  simp only [splitn, h]
  rfl

/-- The validator accepts the values that have these parts. -/
theorem mxOk_iff {v : String} :
    mxOk v = true ↔ ∃ before after priority, MxParts v before after priority := by
  cases hs : splitOnce v ' ' with
  | none =>
    -- without a space there is no second part
    have hok : mxOk v = false := by simp [mxOk, splitn, hs]
    simp only [hok, Bool.false_eq_true, false_iff]
    rintro ⟨before, after, priority, h⟩
    rw [h.split] at hs
    cases hs
  | some parts =>
    obtain ⟨before, after⟩ := parts
    have hok : mxOk v = ((parseU16 before).isSome && !after.isEmpty) := by
      unfold mxOk
      rw [mxPriority_of_split hs]
      simp only [splitn, hs]
      rfl
    rw [hok, Bool.and_eq_true, Option.isSome_iff_exists]
    constructor
    · rintro ⟨⟨priority, hp⟩, hafter⟩
      exact ⟨before, after, priority, hs, hp, by simpa using hafter⟩
    · rintro ⟨before', after', priority, h⟩
      rw [h.split] at hs
      cases hs
      exact ⟨⟨priority, h.priority_eq⟩, by simpa using h.after_ne⟩

/-- The text behind the first space of `v` is not white space only. -/
def HasHostname (v : String) : Prop :=
  ∃ before after, splitOnce v ' ' = some (before, after) ∧
    ∃ c ∈ after.toList, isWhitespace c = false

section Parts

variable {v before after : String} {priority : UInt16} (h : MxParts v before after priority)

include h

/-- A priority has characters, and no white space to trim. -/
private theorem before_chars :
    before.toList ≠ [] ∧ ∀ c ∈ before.toList, isWhitespace c = false := by
  obtain ⟨n, hn, -⟩ := Option.map_eq_some_iff.mp h.priority_eq
  exact parseUnsigned_chars hn

/-- Only the end of the value is trimmed. -/
private theorem trim_parts :
    trim v = before ++ String.ofList ((' ' :: after.toList).rdropWhile isWhitespace) := by
  obtain ⟨hne, hws⟩ := before_chars h
  obtain ⟨-, hv⟩ := splitOnce_eq_some.mp h.split
  rw [hv, String.append_assoc, trim_append hne hws]
  simp [String.toList_append]

variable [UnicodeData]

/-- With a host name behind the space, the comparison reads the validator's priority. -/
theorem parseMx_trim_eq_some (hhost : ∃ c ∈ after.toList, isWhitespace c = false) :
    ∃ exchange, parseMx (trim v) = some (priority, exchange) := by
  obtain ⟨hne, hws⟩ := before_chars h
  obtain ⟨hspace, -⟩ := splitOnce_eq_some.mp h.split
  -- the space is kept, since what is behind it is not trimmed away
  have hkeep : (' ' :: after.toList).rdropWhile isWhitespace =
      ' ' :: after.toList.rdropWhile isWhitespace := by
    have hne' : after.toList.reverse.dropWhile isWhitespace ≠ [] := by
      intro hnil
      obtain ⟨c, hc, hcws⟩ := hhost
      rw [List.dropWhile_eq_nil_iff] at hnil
      rw [hnil c (List.mem_reverse.mpr hc)] at hcws
      cases hcws
    rw [List.rdropWhile, List.reverse_cons, List.dropWhile_append, if_neg (by simpa using hne'),
      List.reverse_append]
    rfl
  have htrim : trim v = before ++ String.singleton ' ' ++
      String.ofList (after.toList.rdropWhile isWhitespace) := by
    rw [trim_parts h, hkeep, ← String.toList_inj]
    simp [String.toList_append]
  refine ⟨normalizeRdata (trim (String.ofList (after.toList.rdropWhile isWhitespace))), ?_⟩
  rw [htrim]
  simp only [parseMx, splitOnce_append hspace, Option.bind_eq_bind, Option.bind_some,
    trim_eq_self hws, h.priority_eq]
  rfl

/-- With white space only behind the space, the comparison finds no MX value. -/
theorem parseMx_trim_eq_none (hblank : ∀ c ∈ after.toList, isWhitespace c = true) :
    parseMx (trim v) = none := by
  obtain ⟨hspace, -⟩ := splitOnce_eq_some.mp h.split
  have hnil : (' ' :: after.toList).rdropWhile isWhitespace = [] := by
    rw [List.rdropWhile_eq_nil_iff]
    exact List.forall_mem_cons.mpr ⟨by decide, hblank⟩
  have htrim : trim v = before := by
    rw [trim_parts h, hnil]
    exact String.append_empty
  have hnone : splitOnce before ' ' = none := splitOnce_eq_none.mpr hspace
  simp only [parseMx, htrim, hnone]
  rfl

/-- A value that the comparison parses has a host name. -/
theorem hasHostname_of_parseMx (hparse : (parseMx (trim v)).isSome = true) : HasHostname v := by
  refine ⟨before, after, h.split, ?_⟩
  by_contra hblank
  have hnone : parseMx (trim v) = none := by
    apply parseMx_trim_eq_none h
    intro c hc
    by_contra hcws
    exact hblank ⟨c, hc, Bool.eq_false_iff.mpr hcws⟩
  rw [hnone] at hparse
  cases hparse

end Parts

section Agreement

variable [UnicodeData]

/-- The comparison reads `v` as an MX value with the validator's priority. -/
def ComparedAsMx (v : String) : Prop :=
  ∃ priority exchange, parseMx (trim v) = some (priority, exchange) ∧ mxPriority v = some priority

theorem comparedAsMx_iff {v : String} (hok : mxOk v = true) : ComparedAsMx v ↔ HasHostname v := by
  obtain ⟨before, after, priority, h⟩ := mxOk_iff.mp hok
  constructor
  · rintro ⟨priority', exchange, hparse, -⟩
    exact hasHostname_of_parseMx h (Option.isSome_iff_exists.mpr ⟨_, hparse⟩)
  · rintro ⟨before', after', hsplit, hhost⟩
    rw [h.split] at hsplit
    cases hsplit
    obtain ⟨exchange, hexchange⟩ := parseMx_trim_eq_some h hhost
    exact ⟨priority, exchange, hexchange, (mxPriority_of_split h.split).trans h.priority_eq⟩

/-- The texts that are compared as they are belong to values that do not parse. -/
theorem separateMx_opaque_eq_nil {values : List String} :
    (separateMx values).2 = [] ↔ ∀ v ∈ values, (parseMx (trim v)).isSome = true := by
  induction values with
  | nil => simp [separateMx]
  | cons v vs ih =>
    rw [List.forall_mem_cons, ← ih]
    simp only [separateMx]
    cases parseMx (trim v) <;> simp

/-- The validator and the comparison agree on the values of a valid MX record that have a host
    name behind the first space, and on no others; the record has no value that is compared as
    an opaque text exactly when all of them have one. -/
theorem validated_mx_parsed_iff {record : ProviderRecord} (hmx : record.recordType = .mx)
    (hvalid : (validateRecord record).valid = true) :
    (∀ v ∈ record.values, ComparedAsMx v ↔ HasHostname v) ∧
      ((separateMx record.values).2 = [] ↔ ∀ v ∈ record.values, HasHostname v) := by
  obtain ⟨-, -, -, -, -, hvalues, -⟩ := validateRecord_valid_iff.mp hvalid
  have hagree : ∀ v ∈ record.values, ComparedAsMx v ↔ HasHostname v := fun v hv =>
    comparedAsMx_iff (hvalues hmx v hv)
  refine ⟨hagree, ?_⟩
  rw [separateMx_opaque_eq_nil]
  constructor
  · intro hall v hv
    obtain ⟨before, after, priority, h⟩ := mxOk_iff.mp (hvalues hmx v hv)
    exact hasHostname_of_parseMx h (hall v hv)
  · intro hall v hv
    obtain ⟨priority, exchange, hparse, -⟩ := (hagree v hv).mpr (hall v hv)
    rw [hparse]
    rfl

end Agreement

section Sample

attribute [local instance] Sample.unicodeData

/-- A mail exchange at the apex. -/
def mxRecord (v : String) : ProviderRecord := ⟨"@", .mx, 300, [v]⟩

/-- The two agree on a plain value with a blank at its end. -/
theorem validated_mx_parsed_iff_mail : ComparedAsMx "10 Mail.example.com. " := by
  have hvalid : (validateRecord (mxRecord "10 Mail.example.com. ")).valid = true := by decide
  have hagree := (validated_mx_parsed_iff rfl hvalid).1 _ (List.mem_singleton.mpr rfl)
  exact hagree.mpr ⟨"10", "Mail.example.com. ", by decide, 'M', by decide, by decide⟩

/-- A priority and two blanks are valid; the comparison keeps the text `10`. -/
theorem validated_mx_opaque :
    ¬ ∀ (record : ProviderRecord) (v : String), record.recordType = .mx →
      (validateRecord record).valid = true → v ∈ record.values → ComparedAsMx v := by
  intro h
  obtain ⟨priority, exchange, hparse, -⟩ :=
    h (mxRecord "10  ") "10  " rfl (by decide) (List.mem_singleton.mpr rfl)
  have hnone : parseMx (trim "10  ") = none := by decide
  rw [hnone] at hparse
  cases hparse

end Sample

end DnsManager.Route53
