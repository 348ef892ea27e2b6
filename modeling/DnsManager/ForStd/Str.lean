import Mathlib.Data.List.DropRight
import Mathlib.Data.List.Infix
import Mathlib.Data.List.TakeWhile
import Mathlib.Data.String.Basic

/-!
# Rust string functions

The `str` methods of the Rust standard library that work on Unicode scalar values,
defined over the character list of a `String`. Each comes with the lemma that says
which splits it accepts (`stripSuffix_eq_some`, `splitOnce_append`, …), so that
no proof has to look at positions.

The tables behind `str::to_lowercase` change with the Unicode version of the compiler.
They are the fields of the class `UnicodeData`; what is proved holds for each of them.
-/

/-- The character tables of the Unicode version in use. -/
class UnicodeData where
  /-- `Lowercase_Mapping` of a single character (`char::to_lowercase`). -/
  toLower : Char → List Char
  /-- The derived property `Cased`. -/
  cased : Char → Bool
  /-- The derived property `Case_Ignorable`. -/
  caseIgnorable : Char → Bool
  /-- ASCII characters have their ASCII lower case in every version. -/
  toLower_ascii : ∀ c : Char, c.toNat < 128 → toLower c = [c.toLower]

namespace RustStr

/-! ## Prefixes and suffixes -/

/-- `str::strip_prefix` -/
def stripPrefix (s pre : String) : Option String :=
  if pre.toList <+: s.toList then some (String.ofList (s.toList.drop pre.toList.length)) else none

/-- `str::strip_suffix` -/
def stripSuffix (s suf : String) : Option String :=
  if suf.toList <:+ s.toList then
    some (String.ofList (s.toList.take (s.toList.length - suf.toList.length)))
  else none

/-- `str::starts_with` -/
def startsWith (s pre : String) : Bool := pre.toList.isPrefixOf s.toList

/-- `str::ends_with` -/
def endsWith (s suf : String) : Bool := suf.toList.isSuffixOf s.toList

/-- `str::contains` with a string pattern -/
def contains (s pat : String) : Bool := decide (pat.toList <:+: s.toList)

theorem stripPrefix_eq_some {s pre t : String} : stripPrefix s pre = some t ↔ s = pre ++ t := by
  unfold stripPrefix
  constructor
  · intro h
    split at h
    · next hp =>
      obtain ⟨r, hr⟩ := hp
      cases h
      rw [← String.toList_inj, String.toList_append, String.toList_ofList, ← hr,
        List.drop_left]
    · cases h
  · rintro rfl
    rw [String.toList_append, if_pos (List.prefix_append _ _), List.drop_left,
      String.ofList_toList]

theorem stripSuffix_eq_some {s suf t : String} : stripSuffix s suf = some t ↔ s = t ++ suf := by
  unfold stripSuffix
  constructor
  · intro h
    split at h
    · next hs =>
      obtain ⟨r, hr⟩ := hs
      cases h
      rw [← String.toList_inj, String.toList_append, String.toList_ofList, ← hr,
        List.length_append, Nat.add_sub_cancel, List.take_left]
    · cases h
  · rintro rfl
    rw [String.toList_append, if_pos (List.suffix_append _ _), List.length_append,
      Nat.add_sub_cancel, List.take_left, String.ofList_toList]

@[simp] theorem stripPrefix_append (pre t : String) : stripPrefix (pre ++ t) pre = some t :=
  stripPrefix_eq_some.mpr rfl

@[simp] theorem stripSuffix_append (t suf : String) : stripSuffix (t ++ suf) suf = some t :=
  stripSuffix_eq_some.mpr rfl

theorem startsWith_iff {s pre : String} : startsWith s pre = true ↔ ∃ t, s = pre ++ t := by
  simp only [startsWith, List.isPrefixOf_iff_prefix]
  constructor
  · rintro ⟨r, hr⟩
    exact ⟨String.ofList r, by
      rw [← String.toList_inj, String.toList_append, String.toList_ofList, hr]⟩
  · rintro ⟨t, rfl⟩
    rw [String.toList_append]; exact List.prefix_append _ _

theorem endsWith_iff {s suf : String} : endsWith s suf = true ↔ ∃ t, s = t ++ suf := by
  simp only [endsWith, List.isSuffixOf_iff_suffix]
  constructor
  · rintro ⟨r, hr⟩
    exact ⟨String.ofList r, by
      rw [← String.toList_inj, String.toList_append, String.toList_ofList, hr]⟩
  · rintro ⟨t, rfl⟩
    rw [String.toList_append]; exact List.suffix_append _ _

/-- `str::split_once` with a character pattern: cut at its first occurrence. -/
def splitOnce (s : String) (c : Char) : Option (String × String) :=
  match s.toList.dropWhile (· != c) with
  | [] => none
  | _ :: rest => some (String.ofList (s.toList.takeWhile (· != c)), String.ofList rest)

theorem splitOnce_append {a b : String} {c : Char} (h : c ∉ a.toList) :
    splitOnce (a ++ String.singleton c ++ b) c = some (a, b) := by
  have ha : ∀ x ∈ a.toList, (x != c) = true := fun x hx => by
    simp only [bne_iff_ne]; rintro rfl; exact h hx
  have hl : (a ++ String.singleton c ++ b).toList = a.toList ++ c :: b.toList := by
    simp [String.toList_append]
  simp only [splitOnce, hl, List.dropWhile_append_of_pos ha, List.takeWhile_append_of_pos ha]
  simp [String.ofList_toList]

theorem splitOnce_eq_none {s : String} {c : Char} : splitOnce s c = none ↔ c ∉ s.toList := by
  unfold splitOnce
  split
  · next hnil =>
    simp only [List.dropWhile_eq_nil_iff, bne_iff_ne] at hnil
    simp only [true_iff]
    intro hmem
    exact hnil c hmem rfl
  · next hcons =>
    simp only [reduceCtorEq, false_iff, not_not]
    by_contra hmem
    -- without the character, everything is dropped
    have hall : s.toList.dropWhile (· != c) = [] := by
      simp only [List.dropWhile_eq_nil_iff, bne_iff_ne]
      rintro x hx rfl
      exact hmem hx
    rw [hall] at hcons
    cases hcons

theorem splitOnce_eq_some {s a b : String} {c : Char} :
    splitOnce s c = some (a, b) ↔ c ∉ a.toList ∧ s = a ++ String.singleton c ++ b := by
  constructor
  · intro h
    unfold splitOnce at h
    split at h
    · cases h
    · next d rest hdrop =>
      cases h
      have hd : d = c := by
        have := List.head?_dropWhile_not (· != c) s.toList
        simpa [hdrop] using this
      constructor
      · rw [String.toList_ofList]
        intro hmem
        simpa using List.mem_takeWhile_imp hmem
      · rw [← String.toList_inj]
        simp only [String.toList_append, String.toList_ofList, String.toList_singleton,
          List.append_assoc, List.singleton_append]
        rw [← hd, ← hdrop, hd, List.takeWhile_append_dropWhile]
  · rintro ⟨hmem, rfl⟩
    exact splitOnce_append hmem

/-- `str::splitn` with a character pattern: at most `n` parts, the last of them not cut. -/
def splitn : (n : Nat) → String → Char → List String
  | 0, _, _ => []
  | 1, s, _ => [s]
  | n + 2, s, c =>
    match splitOnce s c with
    | none => [s]
    | some (a, b) => a :: splitn (n + 1) b c

/-- `s.split(c).next()`: what stands before the first occurrence of a character. -/
def beforeFirst (s : String) (c : Char) : String := String.ofList (s.toList.takeWhile (· != c))

theorem beforeFirst_append {a t : String} {c : Char} (ha : c ∉ a.toList)
    (ht : t = "" ∨ ∃ t', t = String.singleton c ++ t') : beforeFirst (a ++ t) c = a := by
  have hkeep : ∀ x ∈ a.toList, (x != c) = true := fun x hx => by
    rw [bne_iff_ne]
    rintro rfl
    exact ha hx
  have hstop : t.toList.takeWhile (· != c) = [] := by
    rcases ht with rfl | ⟨t', rfl⟩
    · rfl
    · simp [String.toList_append]
  rw [beforeFirst, String.toList_append, List.takeWhile_append_of_pos hkeep, hstop,
    List.append_nil, String.ofList_toList]

/-- Cut a text at the first occurrence of another. -/
def splitAtFirst (pat : List Char) : List Char → Option (List Char × List Char)
  | [] => if pat = [] then some ([], []) else none
  | c :: cs =>
    if pat <+: c :: cs then some ([], (c :: cs).drop pat.length)
    else (splitAtFirst pat cs).map fun parts => (c :: parts.1, parts.2)

/-- `str::find` with a string pattern, as the texts before and behind its first occurrence. -/
def findText (s pat : String) : Option (String × String) :=
  (splitAtFirst pat.toList s.toList).map fun parts =>
    (String.ofList parts.1, String.ofList parts.2)

/-- A pattern that does not overlap with itself is found where it was put. -/
theorem splitAtFirst_append {pat s : List Char}
    (hpat : ∀ k < pat.length, k ≠ 0 → pat.take k ≠ pat.drop (pat.length - k))
    (hs : ¬ pat <:+: s) (b : List Char) : splitAtFirst pat (s ++ pat ++ b) = some (s, b) := by
  induction s with
  | nil =>
    cases pat with
    | nil => exact absurd (List.infix_refl _) hs
    | cons p ps =>
      rw [List.nil_append, List.cons_append, splitAtFirst, if_pos ⟨b, rfl⟩, ← List.cons_append,
        List.drop_left]
  | cons c s ih =>
    have hcut : ¬ pat <+: c :: s ++ (pat ++ b) := by
      intro hfound
      rcases List.prefix_or_prefix_of_prefix hfound (List.prefix_append (c :: s) (pat ++ b)) with
        hin | ⟨q, hq⟩
      · exact hs hin.isInfix
      -- an occurrence that ends inside the pattern is an overlap of the length of `q`
      have hlen : pat.length = (c :: s).length + q.length := by rw [← hq, List.length_append]
      have hqpre : q <+: pat ++ b := by
        rw [← hq, List.append_assoc, List.prefix_append_right_inj] at hfound
        rwa [← List.append_assoc, hq] at hfound
      have htake : pat.take q.length = q := by
        have hq' := List.prefix_iff_eq_take.mp hqpre
        rw [List.take_append_of_le_length (by omega)] at hq'
        exact hq'.symm
      have hdrop : pat.drop (pat.length - q.length) = q := by
        rw [hlen, Nat.add_sub_cancel, ← hq, List.drop_left]
      refine hpat q.length (by rw [hlen, List.length_cons]; omega) ?_ (htake.trans hdrop.symm)
      intro hzero
      rw [List.length_eq_zero_iff.mp hzero, List.append_nil] at hq
      exact hs (hq ▸ List.infix_refl _)
    have hs' : ¬ pat <:+: s := fun hin => hs (hin.trans (List.suffix_cons c s).isInfix)
    rw [List.cons_append] at hcut
    rw [List.append_assoc, List.cons_append, splitAtFirst, if_neg hcut, ← List.append_assoc, ih hs']
    rfl

/-! ## White space -/

/-- `char::is_whitespace`: the Unicode property `White_Space`. -/
def isWhitespace (c : Char) : Bool :=
  let n := c.toNat
  (9 ≤ n && n ≤ 13) || n == 0x20 || n == 0x85 || n == 0xA0 || n == 0x1680 ||
    (0x2000 ≤ n && n ≤ 0x200A) || n == 0x2028 || n == 0x2029 || n == 0x202F ||
    n == 0x205F || n == 0x3000

/-- `str::trim` -/
def trim (s : String) : String :=
  String.ofList ((s.toList.dropWhile isWhitespace).reverse.dropWhile isWhitespace).reverse

/-- A string without white space is its own trimmed form. -/
theorem trim_eq_self {s : String} (h : ∀ c ∈ s.toList, isWhitespace c = false) : trim s = s := by
  have drop : ∀ l : List Char, (∀ c ∈ l, isWhitespace c = false) →
      l.dropWhile isWhitespace = l := by
    intro l hl
    cases l with
    | nil => rfl
    | cons c l => rw [List.dropWhile_cons_of_neg (by simp [hl c List.mem_cons_self])]
  rw [trim, drop _ h, drop _ (fun c hc => h c (List.mem_reverse.mp hc)), List.reverse_reverse,
    String.ofList_toList]

/-- Trimming does not make a string longer. -/
theorem length_trim_le (s : String) : (trim s).toList.length ≤ s.toList.length := by
  rw [trim, String.toList_ofList, List.length_reverse]
  refine (List.dropWhile_sublist _).length_le.trans ?_
  rw [List.length_reverse]
  exact (List.dropWhile_sublist _).length_le

/-- Nothing is trimmed between two characters that are not white space. -/
theorem trim_between {a b : Char} (ha : isWhitespace a = false) (hb : isWhitespace b = false)
    (s : String) :
    trim (String.singleton a ++ s ++ String.singleton b) =
      String.singleton a ++ s ++ String.singleton b := by
  rw [← String.toList_inj, trim, String.toList_ofList]
  simp [String.toList_append, ha, hb]

/-- What stands behind a text without white space is trimmed at its end only. -/
theorem trim_append {p : String} (hne : p.toList ≠ [])
    (hp : ∀ c ∈ p.toList, isWhitespace c = false) (s : String) :
    trim (p ++ s) = p ++ String.ofList (s.toList.rdropWhile isWhitespace) := by
  have hhead : (p ++ s).toList.dropWhile isWhitespace = p.toList ++ s.toList := by
    obtain ⟨c, cs, hc⟩ := List.exists_cons_of_ne_nil hne
    have hws : ¬ isWhitespace c = true := by simp [hp c (by rw [hc]; exact List.mem_cons_self)]
    rw [String.toList_append, hc, List.cons_append, List.dropWhile_cons_of_neg hws]
  rw [← String.toList_inj, trim, hhead, String.toList_ofList, List.reverse_append,
    List.dropWhile_append, String.toList_append, String.toList_ofList]
  split
  · next hempty =>
    -- everything behind is white space, and nothing before it is
    have hkeep : p.toList.reverse.dropWhile isWhitespace = p.toList.reverse := by
      rw [List.dropWhile_eq_self_iff]
      intro hl
      have hlast := hp _ (List.mem_reverse.mp (List.getElem_mem hl))
      simpa using hlast
    have hnil : s.toList.rdropWhile isWhitespace = [] := by
      rw [List.rdropWhile, List.isEmpty_iff.mp hempty, List.reverse_nil]
    rw [hkeep, List.reverse_reverse, hnil, List.append_nil]
  · rw [List.reverse_append, List.reverse_reverse]
    rfl

/-! ## Case -/

/-- Only the capital letters are not their own lower case. -/
theorem toLower_cases (c : Char) :
    (c.toNat < 65 ∨ 90 < c.toNat) ∧ c.toLower = c ∨
      65 ≤ c.toNat ∧ c.toNat ≤ 90 ∧ c.toLower.toNat = c.toNat + 32 := by
  have hrange : (c.val ≥ 'A'.val ∧ c.val ≤ 'Z'.val) ↔ 65 ≤ c.toNat ∧ c.toNat ≤ 90 := by
    simp [UInt32.le_iff_toNat_le]
  by_cases h : 65 ≤ c.toNat ∧ c.toNat ≤ 90
  · refine .inr ⟨h.1, h.2, ?_⟩
    have hlower : c.toLower = _ := dif_pos (hrange.mpr h)
    have hval : c.toLower.val = c.val + ('a'.val - 'A'.val) := congrArg Char.val hlower
    have hnat := congrArg UInt32.toNat hval
    simp only [UInt32.toNat_add] at hnat
    simp at hnat
    omega
  · exact .inl ⟨by omega, dif_neg (mt hrange.mp h)⟩

/-- A lower case is its own lower case. -/
@[simp] theorem toLower_toLower (c : Char) : c.toLower.toLower = c.toLower := by
  rcases toLower_cases c with ⟨-, h⟩ | ⟨hlow, -, h⟩
  · rw [h, h]
  · rcases toLower_cases c.toLower with ⟨-, h'⟩ | ⟨-, h', -⟩
    · exact h'
    · omega

/-- The lower case of an ASCII character is one, and no other character's is. -/
theorem toNat_toLower_lt_iff (c : Char) : c.toLower.toNat < 128 ↔ c.toNat < 128 := by
  rcases toLower_cases c with ⟨-, h⟩ | ⟨-, hhigh, h⟩
  · rw [h]
  · omega

/-- `str::eq_ignore_ascii_case` -/
def eqIgnoreAsciiCase (a b : String) : Bool :=
  a.toList.map Char.toLower == b.toList.map Char.toLower

theorem eqIgnoreAsciiCase_comm (a b : String) :
    eqIgnoreAsciiCase a b = eqIgnoreAsciiCase b a := by
  unfold eqIgnoreAsciiCase
  exact Bool.beq_comm

@[simp] theorem eqIgnoreAsciiCase_self (a : String) : eqIgnoreAsciiCase a a = true := by
  simp [eqIgnoreAsciiCase]

/-- A common ending does not matter. -/
theorem eqIgnoreAsciiCase_append_right (a b c : String) :
    eqIgnoreAsciiCase (a ++ c) (b ++ c) = eqIgnoreAsciiCase a b := by
  unfold eqIgnoreAsciiCase
  rw [Bool.eq_iff_iff, beq_iff_eq, beq_iff_eq, String.toList_append, String.toList_append,
    List.map_append, List.map_append, List.append_left_inj]

section Lowercase

variable [UnicodeData]

/-- The first character that is not case-ignorable exists and is cased. -/
def caseIgnorableThenCased (cs : List Char) : Bool :=
  match cs.dropWhile UnicodeData.caseIgnorable with
  | c :: _ => UnicodeData.cased c
  | [] => false

/-- Lower-case the characters after `before` (kept in reverse). A capital sigma becomes
    the final sigma at the end of a word, by the Unicode condition `Final_Sigma`. -/
def toLowercaseGo (before : List Char) : List Char → List Char
  | [] => []
  | 'Σ' :: rest =>
    (if caseIgnorableThenCased before && !caseIgnorableThenCased rest then 'ς' else 'σ') ::
      toLowercaseGo ('Σ' :: before) rest
  | c :: rest => UnicodeData.toLower c ++ toLowercaseGo (c :: before) rest

/-- `str::to_lowercase` -/
def toLowercase (s : String) : String := String.ofList (toLowercaseGo [] s.toList)

private theorem toLowercaseGo_ascii (before : List Char) {cs : List Char}
    (h : ∀ c ∈ cs, c.toNat < 128) : toLowercaseGo before cs = cs.map Char.toLower := by
  induction cs generalizing before with
  | nil => rfl
  | cons c cs ih =>
    obtain ⟨hc, hcs⟩ := List.forall_mem_cons.mp h
    have hsigma : c ≠ 'Σ' := by
      rintro rfl
      exact absurd hc (by decide)
    rw [toLowercaseGo.eq_3 _ _ _ hsigma, UnicodeData.toLower_ascii c hc, ih (c :: before) hcs]
    rfl

/-- ASCII text is lower-cased character by character. -/
theorem toLowercase_ascii {s : String} (h : ∀ c ∈ s.toList, c.toNat < 128) :
    toLowercase s = String.ofList (s.toList.map Char.toLower) := by
  rw [toLowercase, toLowercaseGo_ascii [] h]

end Lowercase

/-! ## Decimal numbers -/

/-- `from_str` of an unsigned integer type below `bound`: an optional `+`, then at least
    one decimal digit, with a value that fits. -/
def parseUnsigned (bound : Nat) (s : String) : Option Nat :=
  let digits := match s.toList with
    | '+' :: ds => ds
    | ds => ds
  if digits ≠ [] ∧ digits.all Char.isDigit ∧ Nat.ofDigitChars 10 digits 0 < bound then
    some (Nat.ofDigitChars 10 digits 0)
  else none

/-- `str::parse::<u16>` -/
def parseU16 (s : String) : Option UInt16 := (parseUnsigned (2 ^ 16) s).map UInt16.ofNat

/-- `str::parse::<u8>` -/
def parseU8 (s : String) : Option UInt8 := (parseUnsigned (2 ^ 8) s).map UInt8.ofNat

/-- No decimal digit is white space, a sign or a blank. -/
theorem isDigit_facts {c : Char} (h : c.isDigit = true) :
    isWhitespace c = false ∧ c ≠ '+' ∧ c ≠ ' ' := by
  have hr : 48 ≤ c.toNat ∧ c.toNat ≤ 57 := by
    simpa [Char.isDigit, UInt32.le_iff_toNat_le] using h
  refine ⟨?_, ?_, ?_⟩
  · simp only [isWhitespace, Bool.or_eq_false_iff, Bool.and_eq_false_iff, decide_eq_false_iff_not,
      beq_eq_false_iff_ne]
    omega
  · rintro rfl; revert hr; decide
  · rintro rfl; revert hr; decide

/-- What reads as a number has a character, and none of it is white space. -/
theorem parseUnsigned_chars {bound n : Nat} {s : String} (h : parseUnsigned bound s = some n) :
    s.toList ≠ [] ∧ ∀ c ∈ s.toList, isWhitespace c = false := by
  have hdigits : ∀ ds : List Char, ds.all Char.isDigit = true →
      ∀ c ∈ ds, isWhitespace c = false := fun ds hall c hc =>
    (isDigit_facts (List.all_eq_true.mp hall c hc)).1
  unfold parseUnsigned at h
  generalize s.toList = l at h
  dsimp only at h
  split at h
  · next ds =>
    split at h
    · next hparse =>
      exact ⟨List.cons_ne_nil _ _, List.forall_mem_cons.mpr ⟨by decide, hdigits ds hparse.2.1⟩⟩
    · cases h
  · split at h
    · next hparse => exact ⟨hparse.1, hdigits l hparse.2.1⟩
    · cases h

theorem isDigit_of_mem_repr {n : Nat} {c : Char} (h : c ∈ (toString n).toList) :
    c.isDigit = true := by
  rw [Nat.toString_eq_repr, Nat.repr_eq_ofList_toDigits, String.toList_ofList] at h
  exact Nat.isDigit_of_mem_toDigits (by decide) (by decide) h

/-- The decimal rendering of a `u16` parses back to it. -/
theorem parseU16_toString (n : UInt16) : parseU16 (toString n.toNat) = some n := by
  have hl : (toString n.toNat).toList = Nat.toDigits 10 n.toNat := by
    rw [Nat.toString_eq_repr, Nat.repr_eq_ofList_toDigits, String.toList_ofList]
  have hd : ∀ c ∈ Nat.toDigits 10 n.toNat, c.isDigit = true := fun c hc =>
    Nat.isDigit_of_mem_toDigits (by decide) (by decide) hc
  -- no digit is a sign, so none is cut off
  have hdigits : (match Nat.toDigits 10 n.toNat with | '+' :: ds => ds | ds => ds) =
      Nat.toDigits 10 n.toNat := by
    split
    · next ds heq =>
      have := hd '+' (by rw [heq]; exact List.mem_cons_self)
      exact absurd this (by decide)
    · rfl
  simp only [parseU16, parseUnsigned, hl, hdigits, Nat.ofDigitChars_ten_toDigits]
  rw [if_pos ⟨Nat.toDigits_ne_nil, List.all_eq_true.mpr hd, n.toNat_lt⟩]
  simp

end RustStr
