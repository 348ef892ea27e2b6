import DnsManager.ForStd.Str

/-!
# Delimited and length-prefixed text

Two ways to put texts behind each other. A field is closed by a separator that it may not
contain (`field_cut`). A netstring is announced by its length in bytes, so that it may contain
any character; a list of netstrings can be read in one way only (`netstrings_inj`). Where the
separator is found inside a list of netstrings, it is inside one of the values or closes one
(`netstrings_cut`).
-/

namespace Netstring

open RustStr

/-! ## Fields -/

theorem singleton_append_inj {c d : Char} {s t : String}
    (h : String.singleton c ++ s = String.singleton d ++ t) : c = d ∧ s = t := by
  have hl := congrArg String.toList h
  simp only [String.toList_append, String.toList_singleton, List.singleton_append] at hl
  obtain ⟨hc, hs⟩ := List.cons.inj hl
  exact ⟨hc, String.toList_inj.mp hs⟩

/-- A character that is not in front is found behind. -/
theorem append_cut {a s w y : String} {c : Char} (hc : c ∉ a.toList)
    (h : a ++ s = w ++ String.singleton c ++ y) :
    ∃ p, w = a ++ p ∧ s = p ++ String.singleton c ++ y := by
  have hl : a.toList ++ s.toList = w.toList ++ c :: y.toList := by
    simpa [String.toList_append] using congrArg String.toList h
  rcases List.append_eq_append_iff.mp hl with ⟨p, hw, hs⟩ | ⟨p, ha, hcy⟩
  · refine ⟨String.ofList p, ?_, ?_⟩
    · rw [← String.toList_inj, String.toList_append, String.toList_ofList, hw]
    · rw [← String.toList_inj, hs]
      simp [String.toList_append]
  · -- otherwise the character stands in `a`, or right behind it
    cases p with
    | nil =>
      rw [List.append_nil] at ha
      refine ⟨"", ?_, ?_⟩
      · rw [← String.toList_inj, String.toList_append, ha]
        simp
      · rw [← String.toList_inj]
        simpa [String.toList_append] using hcy.symm
    | cons d p =>
      rw [List.cons_append] at hcy
      obtain ⟨rfl, -⟩ := List.cons.inj hcy
      exact absurd (ha ▸ List.mem_append_right _ List.mem_cons_self) hc

/-- Two separators in one text are the same, or one stands behind the other. -/
theorem separator_cases {a s w y : String} {c : Char}
    (h : a ++ String.singleton c ++ s = w ++ String.singleton c ++ y) :
    (w = a ∧ s = y) ∨
      (∃ w', w = a ++ String.singleton c ++ w' ∧ s = w' ++ String.singleton c ++ y) ∨
      ∃ q, a = w ++ String.singleton c ++ q ∧ y = q ++ String.singleton c ++ s := by
  have hl : a.toList ++ c :: s.toList = w.toList ++ c :: y.toList := by
    simpa [String.toList_append] using congrArg String.toList h
  -- the longer of the two beginnings is the other one with something behind it
  have hlonger : ∀ {a s w y : String} {r : List Char}, w.toList = a.toList ++ r →
      c :: s.toList = r ++ c :: y.toList →
      (w = a ∧ s = y) ∨
        ∃ w', w = a ++ String.singleton c ++ w' ∧ s = w' ++ String.singleton c ++ y := by
    intro a s w y r hw hs
    cases r with
    | nil =>
      rw [List.append_nil] at hw
      exact .inl ⟨String.toList_inj.mp hw, String.toList_inj.mp (List.cons.inj hs).2⟩
    | cons d r =>
      obtain ⟨rfl, htail⟩ := List.cons.inj hs
      refine .inr ⟨String.ofList r, ?_, ?_⟩
      · rw [← String.toList_inj, hw]
        simp [String.toList_append]
      · rw [← String.toList_inj, htail]
        simp [String.toList_append]
  rcases List.append_eq_append_iff.mp hl with ⟨r, hw, hs⟩ | ⟨r, ha, hy⟩
  · rcases hlonger hw hs with heq | hbehind
    · exact .inl heq
    · exact .inr (.inl hbehind)
  · rcases hlonger ha hy with ⟨rfl, rfl⟩ | hbehind
    · exact .inl ⟨rfl, rfl⟩
    · exact .inr (.inr hbehind)

/-- The first separator closes the first field. -/
theorem field_cut {a s w y : String} {c : Char} (hc : c ∉ a.toList)
    (h : a ++ String.singleton c ++ s = w ++ String.singleton c ++ y) :
    w = a ∧ s = y ∨
      ∃ w', w = a ++ String.singleton c ++ w' ∧ s = w' ++ String.singleton c ++ y := by
  rcases separator_cases h with heq | hbehind | ⟨q, rfl, -⟩
  · exact .inl heq
  · exact .inr hbehind
  · exact absurd (by simp [String.toList_append]) hc

/-- A field that cannot contain its separator is read in one way. -/
theorem field_inj {a b s t : String} {c : Char} (ha : c ∉ a.toList) (hb : c ∉ b.toList)
    (h : a ++ String.singleton c ++ s = b ++ String.singleton c ++ t) : a = b ∧ s = t := by
  have hsplit := splitOnce_append (b := s) ha
  rw [h, splitOnce_append hb] at hsplit
  cases hsplit
  exact ⟨rfl, rfl⟩

/-! ## Netstrings -/

/-- Two beginnings of one text that have the same size are the same. -/
theorem append_inj_of_utf8ByteSize {a b s t : String} (hsize : a.utf8ByteSize = b.utf8ByteSize)
    (h : a ++ s = b ++ t) : a = b ∧ s = t := by
  have hl : a.toList ++ s.toList = b.toList ++ t.toList := by
    simpa [String.toList_append] using congrArg String.toList h
  -- what one has more than the other has no bytes
  have hempty : ∀ {x y : String} {r : List Char}, x.toList = y.toList ++ r →
      x.utf8ByteSize = y.utf8ByteSize → r = [] := by
    intro x y r hx hxy
    have hr : x = y ++ String.ofList r := by
      rw [← String.toList_inj, String.toList_append, String.toList_ofList, hx]
    rw [hr, String.utf8ByteSize_append] at hxy
    have hzero : (String.ofList r).utf8ByteSize = 0 := by omega
    rw [String.utf8ByteSize_eq_zero_iff] at hzero
    simpa using congrArg String.toList hzero
  rcases List.append_eq_append_iff.mp hl with ⟨r, hb, hs⟩ | ⟨r, ha, ht⟩
  · obtain rfl := hempty hb hsize.symm
    rw [List.append_nil] at hb
    exact ⟨String.toList_inj.mp hb.symm, String.toList_inj.mp hs⟩
  · obtain rfl := hempty ha hsize
    rw [List.append_nil] at ha
    exact ⟨String.toList_inj.mp ha, String.toList_inj.mp ht.symm⟩

/-- A text behind its length in bytes, closed by a character. -/
def netstring (close : Char) (v : String) : String :=
  toString v.utf8ByteSize ++ String.singleton ':' ++ v ++ String.singleton close

/-- The netstrings of a list, one behind the other. -/
def netstrings (close : Char) : List String → String
  | [] => ""
  | v :: vs => netstring close v ++ netstrings close vs

variable {close : Char}

theorem netstrings_append (vs ws : List String) :
    netstrings close (vs ++ ws) = netstrings close vs ++ netstrings close ws := by
  induction vs with
  | nil => rw [List.nil_append, netstrings, String.empty_append]
  | cons v vs ih => rw [List.cons_append, netstrings, netstrings, ih, String.append_assoc]

/-- A number has digits only. -/
theorem not_mem_toString {c : Char} (hc : c.isDigit = false) (n : Nat) :
    c ∉ (toString n).toList := by
  intro hmem
  rw [isDigit_of_mem_repr hmem] at hc
  cases hc

theorem toString_nat_inj {n m : Nat} (h : toString n = toString m) : n = m := by
  have hn := congrArg (fun s : String => Nat.ofDigitChars 10 s.toList 0) h
  simpa [Nat.toString_eq_repr, Nat.repr_eq_ofList_toDigits, Nat.ofDigitChars_ten_toDigits] using hn

/-- The length says where the value ends. -/
theorem netstring_append_inj {v w s t : String}
    (h : netstring close v ++ s = netstring close w ++ t) : v = w ∧ s = t := by
  have hcolon : ∀ n : Nat, ':' ∉ (toString n).toList := not_mem_toString (by decide)
  have hfields : toString v.utf8ByteSize ++ String.singleton ':' ++ (v ++ String.singleton close ++ s) =
      toString w.utf8ByteSize ++ String.singleton ':' ++ (w ++ String.singleton close ++ t) := by
    simpa only [netstring, String.append_assoc] using h
  obtain ⟨hlen, hrest⟩ := field_inj (hcolon _) (hcolon _) hfields
  rw [String.append_assoc, String.append_assoc] at hrest
  obtain ⟨hv, hclose⟩ := append_inj_of_utf8ByteSize (toString_nat_inj hlen) hrest
  exact ⟨hv, (String.append_right_inj _).mp hclose⟩

variable (close) in
/-- A netstring starts with a digit. -/
theorem netstring_eq_digit (v : String) :
    ∃ d rest, d.isDigit = true ∧ netstring close v = String.singleton d ++ rest := by
  obtain ⟨d, ds, hd⟩ : ∃ d ds, (toString v.utf8ByteSize).toList = d :: ds := by
    apply List.exists_cons_of_ne_nil
    rw [Nat.toString_eq_repr, Nat.repr_eq_ofList_toDigits, String.toList_ofList]
    exact Nat.toDigits_ne_nil
  refine ⟨d, String.ofList ds ++ String.singleton ':' ++ v ++ String.singleton close,
    isDigit_of_mem_repr (hd ▸ List.mem_cons_self), ?_⟩
  rw [← String.toList_inj, netstring]
  simp only [String.toList_append, hd, String.toList_singleton, String.toList_ofList,
    List.cons_append, List.nil_append]

/-- A list of netstrings is read in one way. -/
theorem netstrings_inj {vs ws : List String} (h : netstrings close vs = netstrings close ws) :
    vs = ws := by
  have hne : ∀ v vs, netstrings close (v :: vs) ≠ "" := fun v vs hempty => by
    obtain ⟨d, rest, -, hd⟩ := netstring_eq_digit close v
    rw [netstrings, hd] at hempty
    simpa [String.toList_append] using congrArg String.toList hempty
  induction vs generalizing ws with
  | nil =>
    cases ws with
    | nil => rfl
    | cons w ws => exact absurd h.symm (hne w ws)
  | cons v vs ih =>
    cases ws with
    | nil => exact absurd h (hne v vs)
    | cons w ws =>
      obtain ⟨rfl, hrest⟩ := netstring_append_inj h
      rw [ih hrest]

/-- A list of netstrings starts with a digit, or is empty. -/
theorem netstrings_ne_of_not_isDigit {d : Char} (hd : d.isDigit = false) (vs : List String)
    (y : String) : netstrings close vs ≠ String.singleton d ++ y := by
  intro heq
  cases vs with
  | nil => simpa [netstrings, String.toList_append] using congrArg String.toList heq
  | cons v vs =>
    obtain ⟨d', rest, hdigit, hd'⟩ := netstring_eq_digit close v
    rw [netstrings, hd', String.append_assoc] at heq
    rw [(singleton_append_inj heq).1, hd] at hdigit
    cases hdigit

/-- The closing character does not stand in the head of a netstring. -/
private theorem not_mem_head (hclose : close.isDigit = false ∧ close ≠ ':') (n : Nat) :
    close ∉ (toString n ++ String.singleton ':').toList := by
  rw [String.toList_append, List.mem_append, String.toList_singleton, List.mem_singleton, not_or]
  exact ⟨not_mem_toString hclose.1 n, hclose.2⟩

/-- A field without a colon is not the beginning of a list of netstrings. -/
theorem netstrings_ne_field (hclose : close.isDigit = false ∧ close ≠ ':') {a : String}
    (ha : ':' ∉ a.toList) (vs : List String) (s : String) :
    netstrings close vs ≠ a ++ String.singleton close ++ s := by
  intro heq
  cases vs with
  | nil => simpa [netstrings, String.toList_append] using congrArg String.toList heq
  | cons v vs =>
    have hcut : toString v.utf8ByteSize ++ String.singleton ':' ++
        (v ++ String.singleton close ++ netstrings close vs) =
        a ++ String.singleton close ++ s := by
      simpa only [netstrings, netstring, String.append_assoc] using heq
    obtain ⟨p, rfl, -⟩ := append_cut (not_mem_head hclose _) hcut
    exact ha (by simp [String.toList_append])

/-- A closing character in a list of netstrings, with something that is no netstring behind it,
    stands inside a value. -/
theorem netstrings_cut {vs : List String} {w y : String} {d : Char}
    (hclose : close.isDigit = false ∧ close ≠ ':') (hd : d.isDigit = false)
    (h : netstrings close vs = w ++ String.singleton close ++ (String.singleton d ++ y)) :
    ∃ front p q back, vs = front ++ (p ++ String.singleton close ++ q) :: back ∧
      w = netstrings close front ++ toString (p ++ String.singleton close ++ q).utf8ByteSize ++
        String.singleton ':' ++ p ∧
      String.singleton d ++ y = q ++ String.singleton close ++ netstrings close back := by
  induction vs generalizing w with
  | nil =>
    have := congrArg String.toList h
    simp [netstrings, String.toList_append] at this
  | cons v vs ih =>
    have hcut : toString v.utf8ByteSize ++ String.singleton ':' ++
        (v ++ String.singleton close ++ netstrings close vs) =
        w ++ String.singleton close ++ (String.singleton d ++ y) := by
      simpa only [netstrings, netstring, String.append_assoc] using h
    -- behind the head, the character closes `v`, stands behind `v`, or inside it
    obtain ⟨p, rfl, hrest⟩ := append_cut (not_mem_head hclose _) hcut
    rcases separator_cases hrest with ⟨rfl, heq⟩ | ⟨w', rfl, heq⟩ | ⟨q, rfl, hy⟩
    · exact absurd heq (netstrings_ne_of_not_isDigit hd vs y)
    · obtain ⟨front, p, q, back, rfl, rfl, hy⟩ := ih heq
      refine ⟨v :: front, p, q, back, rfl, ?_, hy⟩
      simp only [netstrings, netstring, String.append_assoc]
    · exact ⟨[], p, q, vs, rfl, by simp only [netstrings, String.empty_append], hy⟩

end Netstring
