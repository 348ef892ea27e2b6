import DnsManager.Core.Record

/-!
# The drift decision is multiset equality of canonical values

`normalizeForComparison` flattens structured MX entries to text, sorts two groups by
different orders and concatenates them. Nothing is lost by that: `diff` is false exactly
when name, type and TTL agree and the values have the same canonical values with the
same multiplicities.

## Key results

- `recoverValue_render`: the text of a canonical value determines it, so a rendered MX
  entry and a value kept as it is never coincide
- `normalizeForComparison_perm`: the result holds the rendered canonical values, each as
  often as it occurs
- `normalizeForComparison_eq_of_perm`: the result does not depend on the order of the values
- `diff_iff_canonical_perm`: the drift decision
-/

namespace DnsManager

open RustStr

variable [UnicodeData]

/-! ## Canonical values -/

/-- What a record value stands for, up to case, surrounding white space and one
    trailing dot. -/
inductive CanonicalValue where
  | parsed (priority : UInt16) (exchange : String)
  | verbatim (text : String)
deriving DecidableEq, Repr

/-- Lower case, without one trailing dot. -/
def canonicalName (s : String) : String :=
  (stripSuffix (toLowercase s) ".").getD (toLowercase s)

/-- The canonical value of an MX value: structured when the trimmed text before the first
    space of the trimmed value is a `u16`, the trimmed value otherwise. -/
def canonicalMx (v : String) : CanonicalValue :=
  match splitOnce (trim v) ' ' with
  | none => .verbatim (trim v)
  | some (before, after) =>
    match parseU16 (trim before) with
    | none => .verbatim (trim v)
    | some priority => .parsed priority (canonicalName (trim after))

/-- The canonical value of a value of a record of type `rt`. -/
def canonicalValue : RecordType → String → CanonicalValue
  | .mx, v => canonicalMx v
  | .txt, v => .verbatim (trim v)
  | _, v => .verbatim (canonicalName (trim v))

/-- The text of a canonical value. -/
def CanonicalValue.render : CanonicalValue → String
  | .parsed priority exchange => formatMx (priority, exchange)
  | .verbatim text => text

/-- The entry of a structured value. -/
def CanonicalValue.entry? : CanonicalValue → Option (UInt16 × String)
  | .parsed priority exchange => some (priority, exchange)
  | .verbatim _ => none

/-- The text of a value that is kept as it is. -/
def CanonicalValue.text? : CanonicalValue → Option String
  | .parsed _ _ => none
  | .verbatim text => some text

/-- Read a canonical value of a record of type `rt` back from its text. -/
def recoverValue : RecordType → String → CanonicalValue
  | .mx, s =>
    match splitOnce s ' ' with
    | none => .verbatim s
    | some (before, after) =>
      match parseU16 (trim before) with
      | none => .verbatim s
      | some priority => .parsed priority after
  | _, s => .verbatim s

theorem normalizeRdata_eq (s : String) : normalizeRdata s = canonicalName s := by
  simp only [normalizeRdata, canonicalName]
  cases stripSuffix (toLowercase s) "." <;> simp

/-- An MX value is structured exactly when `parse_mx` accepts it. -/
theorem canonicalMx_eq (v : String) :
    canonicalMx v =
      match parseMx (trim v) with
      | some (priority, exchange) => .parsed priority exchange
      | none => .verbatim (trim v) := by
  unfold canonicalMx parseMx
  cases splitOnce (trim v) ' ' with
  | none => rfl
  | some p =>
    obtain ⟨before, after⟩ := p
    cases hp : parseU16 (trim before) with
    | none => simp [hp]
    | some priority => simp [hp, normalizeRdata_eq]

omit [UnicodeData] in
/-- The first space of a rendered MX entry ends its priority. -/
theorem splitOnce_formatMx (priority : UInt16) (exchange : String) :
    splitOnce (formatMx (priority, exchange)) ' ' =
      some (toString priority.toNat, exchange) :=
  splitOnce_append fun hmem => (isDigit_facts (isDigit_of_mem_repr hmem)).2.2 rfl

omit [UnicodeData] in
theorem recoverValue_formatMx (priority : UInt16) (exchange : String) :
    recoverValue .mx (formatMx (priority, exchange)) = .parsed priority exchange := by
  have htrim : trim (toString priority.toNat) = toString priority.toNat :=
    trim_eq_self fun c hc => (isDigit_facts (isDigit_of_mem_repr hc)).1
  simp only [recoverValue, splitOnce_formatMx, htrim, parseU16_toString]

/-- The text of a canonical value determines it: rendering is injective on canonical
    values, and the two kinds of MX values never share a text. -/
theorem recoverValue_render (rt : RecordType) (v : String) :
    recoverValue rt (canonicalValue rt v).render = canonicalValue rt v := by
  cases rt with
  | mx =>
    -- a priority that parses is rendered without spaces, so the text splits where it was joined
    show recoverValue .mx (canonicalMx v).render = canonicalMx v
    cases hs : splitOnce (trim v) ' ' with
    | none =>
      have hc : canonicalMx v = .verbatim (trim v) := by simp only [canonicalMx, hs]
      simp only [hc, CanonicalValue.render, recoverValue, hs]
    | some p =>
      obtain ⟨before, after⟩ := p
      cases hp : parseU16 (trim before) with
      | none =>
        have hc : canonicalMx v = .verbatim (trim v) := by simp only [canonicalMx, hs, hp]
        simp only [hc, CanonicalValue.render, recoverValue, hs, hp]
      | some priority =>
        have hc : canonicalMx v = .parsed priority (canonicalName (trim after)) := by
          simp only [canonicalMx, hs, hp]
        rw [hc, CanonicalValue.render, recoverValue_formatMx]
  | _ => simp only [canonicalValue, CanonicalValue.render, recoverValue]

/-! ## The normalised list -/

/-- Separating the MX values keeps every one of them. -/
theorem separateMx_perm (vs : List String) :
    ((separateMx vs).1.map formatMx ++ (separateMx vs).2).Perm
      (vs.map fun v => (canonicalMx v).render) := by
  induction vs with
  | nil => exact .nil
  | cons v vs ih =>
    simp only [separateMx, List.map_cons, canonicalMx_eq v]
    cases parseMx (trim v) with
    | some entry => exact ih.cons _
    | none => exact (List.perm_middle).trans (ih.cons _)

/-- The normalised list holds the rendered canonical values, as often as they occur. -/
theorem normalizeForComparison_perm (r : ProviderRecord) :
    r.normalizeForComparison.Perm
      (r.values.map fun v => (canonicalValue r.recordType v).render) := by
  unfold ProviderRecord.normalizeForComparison
  cases r.recordType with
  | mx =>
    refine List.Perm.trans ?_ (separateMx_perm r.values)
    exact ((List.perm_insertionSort _ _).map _).append (List.perm_insertionSort _ _)
  | txt => exact List.perm_insertionSort _ _
  | _ =>
    refine (List.perm_insertionSort _ _).trans (List.Perm.of_eq ?_)
    exact List.map_congr_left fun v _ => normalizeRdata_eq (trim v)

omit [UnicodeData] in
theorem mxLe_iff {x y : UInt16 × String} :
    mxLe x y ↔ x.1.toNat < y.1.toNat ∨ x.1.toNat = y.1.toNat ∧ x.2 ≤ y.2 := by
  rw [mxLe, UInt16.lt_iff_toNat_lt, UInt16.toNat_inj]

omit [UnicodeData] in
theorem mxLe_total (x y : UInt16 × String) : mxLe x y ∨ mxLe y x := by
  simp only [mxLe_iff]
  rcases lt_trichotomy x.1.toNat y.1.toNat with h | h | h
  · exact .inl (.inl h)
  · exact (le_total x.2 y.2).imp (fun h₂ => .inr ⟨h, h₂⟩) (fun h₂ => .inr ⟨h.symm, h₂⟩)
  · exact .inr (.inl h)

omit [UnicodeData] in
theorem mxLe_trans {x y z : UInt16 × String} (hxy : mxLe x y) (hyz : mxLe y z) : mxLe x z := by
  rw [mxLe_iff] at *
  rcases hxy with h | ⟨h, h₂⟩ <;> rcases hyz with h' | ⟨h', h₂'⟩
  · exact .inl (h.trans h')
  · exact .inl (h' ▸ h)
  · exact .inl (h ▸ h')
  · exact .inr ⟨h.trans h', h₂.trans h₂'⟩

omit [UnicodeData] in
theorem mxLe_antisymm {x y : UInt16 × String} (hxy : mxLe x y) (hyx : mxLe y x) : x = y := by
  rw [mxLe_iff] at *
  rcases hxy with h | ⟨h, h₂⟩ <;> rcases hyx with h' | ⟨h', h₂'⟩
  · omega
  · omega
  · omega
  · exact Prod.ext (UInt16.toNat_inj.mp h) (h₂.antisymm h₂')

instance : Std.Total mxLe := ⟨mxLe_total⟩
instance : IsTrans (UInt16 × String) mxLe := ⟨fun _ _ _ => mxLe_trans⟩
instance : Std.Antisymm mxLe := ⟨fun _ _ => mxLe_antisymm⟩

omit [UnicodeData] in
/-- Sorting by a total order forgets the order of the input. -/
theorem insertionSort_eq_of_perm {α : Type} (r : α → α → Prop) [DecidableRel r] [Std.Total r]
    [IsTrans α r] [Std.Antisymm r] {xs ys : List α} (h : xs.Perm ys) :
    xs.insertionSort r = ys.insertionSort r :=
  (((List.perm_insertionSort r xs).trans h).trans
    (List.perm_insertionSort r ys).symm).eq_of_pairwise'
    (List.pairwise_insertionSort r xs) (List.pairwise_insertionSort r ys)

/-- Both groups of MX values are determined by the canonical values. -/
theorem separateMx_of_canonical (vs : List String) :
    separateMx vs =
      ((vs.map canonicalMx).filterMap CanonicalValue.entry?,
        (vs.map canonicalMx).filterMap CanonicalValue.text?) := by
  induction vs with
  | nil => rfl
  | cons v vs ih =>
    simp only [separateMx, ih, List.map_cons, canonicalMx_eq v]
    cases parseMx (trim v) <;>
      simp only [List.filterMap_cons, CanonicalValue.entry?, CanonicalValue.text?]

/-- Records of one type with the same canonical values normalise to the same list,
    whatever the order of their values. -/
theorem normalizeForComparison_eq_of_perm {a d : ProviderRecord}
    (ht : a.recordType = d.recordType)
    (h : (a.values.map (canonicalValue a.recordType)).Perm
      (d.values.map (canonicalValue d.recordType))) :
    a.normalizeForComparison = d.normalizeForComparison := by
  -- the types other than MX keep every value as a text
  have texts : ∀ f : String → String, (∀ v, canonicalValue d.recordType v = .verbatim (f v)) →
      (a.values.map f).insertionSort (· ≤ ·) = (d.values.map f).insertionSort (· ≤ ·) := by
    intro f hf
    have hr := h.map CanonicalValue.render
    simp only [ht, List.map_map, Function.comp_def, hf, CanonicalValue.render] at hr
    exact insertionSort_eq_of_perm _ hr
  unfold ProviderRecord.normalizeForComparison
  rw [ht] at h ⊢
  cases hd : d.recordType with
  | mx =>
    simp only [hd] at h
    simp only [separateMx_of_canonical]
    congr 1
    · exact congrArg _ (insertionSort_eq_of_perm mxLe (h.filterMap _))
    · exact insertionSort_eq_of_perm _ (h.filterMap _)
  | txt => exact texts trim fun v => by rw [hd]; rfl
  | _ =>
    refine texts (fun v => normalizeRdata (trim v)) fun v => ?_
    rw [hd, normalizeRdata_eq]; rfl

/-! ## The drift decision -/

/-- `diff` is false exactly for records with equal name, type and TTL whose values are,
    up to order, the same canonical values. A rendered MX entry never equals a value kept
    as it is, no value is lost or merged, and the order of the values does not matter. -/
theorem diff_iff_canonical_perm :
    (∀ a d : ProviderRecord, diff a d = false ↔
      a.name = d.name ∧ a.recordType = d.recordType ∧ a.ttl = d.ttl ∧
        (a.values.map (canonicalValue a.recordType)).Perm
          (d.values.map (canonicalValue d.recordType))) ∧
    (∀ (v w : String) (p : UInt16) (e t : String), canonicalMx v = .parsed p e →
      canonicalMx w = .verbatim t → formatMx (p, e) ≠ t) ∧
    (∀ r : ProviderRecord, r.normalizeForComparison.length = r.values.length) ∧
    (∀ (r : ProviderRecord) (values : List String), values.Perm r.values →
      ({ r with values } : ProviderRecord).normalizeForComparison = r.normalizeForComparison) := by
  refine ⟨fun a d => ?_, fun v w p e t hv hw heq => ?_, fun r => ?_, fun r values h => ?_⟩
  · rw [diff_eq_false]
    constructor
    · rintro ⟨hn, ht, httl, hnorm⟩
      refine ⟨hn, ht, httl, ?_⟩
      -- equal lists render the same texts, and the texts determine the canonical values
      have hp := (normalizeForComparison_perm a).symm.trans
        (hnorm ▸ normalizeForComparison_perm d)
      have hr := hp.map (recoverValue d.recordType)
      simpa only [ht, List.map_map, Function.comp_def, recoverValue_render] using hr
    · rintro ⟨hn, ht, httl, hp⟩
      exact ⟨hn, ht, httl, normalizeForComparison_eq_of_perm ht hp⟩
  · have hw' := recoverValue_render .mx w
    rw [show canonicalValue .mx w = _ from hw, CanonicalValue.render, ← heq,
      recoverValue_formatMx] at hw'
    cases hw'
  · simpa using (normalizeForComparison_perm r).length_eq
  · exact normalizeForComparison_eq_of_perm rfl (h.map _)

end DnsManager
