import DnsManager.ForStd.Netstring
import DnsManager.Spec.RecordCorrect
import DnsManager.Spec.Sample

/-!
# What the desired hash identifies

`compute_desired_hash` closes the name, the type and the time to live with `|` and puts the
sorted values behind them with their lengths. The type and the time to live cannot contain
`|`, a name can: a longer name may take in the type, the time to live and the first values of
another record.

## Key results
- `hashText_eq_iff`: two records with one hash input have the same content, or one has
  swallowed the beginning of the other.
- `desiredHash_identifies_iff`: the pairs of records the hash tells apart as it should.
-/

namespace DnsManager

open Netstring

/-! ## The hash input as a text -/

theorem asBytes_append (s t : String) : asBytes (s ++ t) = asBytes s ++ asBytes t := by
  unfold asBytes
  simp [String.toByteArray_append]

theorem asBytes_inj {s t : String} : asBytes s = asBytes t ↔ s = t := by
  unfold asBytes
  constructor
  · intro h
    exact String.toByteArray_inj.mp (ByteArray.ext (Array.toList_inj.mp h))
  · rintro rfl
    rfl

namespace CreateRecordRequest

variable (r : CreateRecordRequest)

/-- The values in the order of the hash input. -/
def sorted : List String := r.values.insertionSort (· ≤ ·)

/-- The text of the type. -/
def typeText : String := recordTypeStr r.recordType

/-- The text of the time to live. -/
def ttlText : String := toString r.ttl.toInt

/-- What follows the name and its `|`. -/
def hashTail : String :=
  r.typeText ++ "|" ++ (r.ttlText ++ "|" ++ netstrings '|' r.sorted)

/-- The text of the hash input. -/
def hashText : String := r.name ++ "|" ++ r.hashTail

/-- The hash input `create_record` computes. -/
def hashInput : List UInt8 := desiredHashInput r.name (recordTypeStr r.recordType) r.ttl r.values

/-- The hash `create_record` stores. -/
def desiredHash [Sha256] : String :=
  computeDesiredHash r.name (recordTypeStr r.recordType) r.ttl r.values

theorem hashInput_eq : r.hashInput = asBytes r.hashText := by
  have hvalues : ∀ vs : List String, asBytes (netstrings '|' vs) =
      vs.flatMap fun value =>
        asBytes (toString value.utf8ByteSize) ++ asBytes ":" ++ asBytes value ++ asBytes "|" := by
    intro vs
    induction vs with
    | nil => rfl
    | cons v vs ih =>
      rw [netstrings, netstring, asBytes_append, ih, List.flatMap_cons]
      simp only [asBytes_append]
      rfl
  unfold hashInput hashText hashTail desiredHashInput
  simp only [asBytes_append, hvalues, List.append_assoc]
  rfl

/-- The text of a type starts with a letter. -/
theorem typeText_head :
    ∃ d rest, r.typeText = String.singleton d ++ rest ∧ d.isDigit = false ∧ d ≠ '-' := by
  unfold typeText
  cases r.recordType
  · exact ⟨'A', "", by decide, by decide, by decide⟩
  · exact ⟨'A', "AAA", by decide, by decide, by decide⟩
  · exact ⟨'C', "NAME", by decide, by decide, by decide⟩
  · exact ⟨'M', "X", by decide, by decide, by decide⟩
  · exact ⟨'T', "XT", by decide, by decide, by decide⟩
  · exact ⟨'N', "S", by decide, by decide, by decide⟩
  · exact ⟨'S', "RV", by decide, by decide, by decide⟩
  · exact ⟨'C', "AA", by decide, by decide, by decide⟩

theorem bar_not_mem_typeText : '|' ∉ r.typeText.toList := by
  unfold typeText
  cases r.recordType <;> decide

/-- A number has digits and a sign. -/
theorem not_mem_ttlText {c : Char} (hc : c.isDigit = false) (hsign : c ≠ '-') :
    c ∉ r.ttlText.toList := by
  unfold ttlText
  cases r.ttl.toInt with
  | ofNat n => exact not_mem_toString hc n
  | negSucc n =>
    show c ∉ (String.singleton '-' ++ toString (n + 1)).toList
    rw [String.toList_append, List.mem_append, String.toList_singleton, List.mem_singleton, not_or]
    exact ⟨hsign, not_mem_toString hc _⟩

theorem bar_not_mem_ttlText : '|' ∉ r.ttlText.toList := r.not_mem_ttlText (by decide) (by decide)

theorem typeText_ne_ttlText (r' : CreateRecordRequest) : r.typeText ≠ r'.ttlText := by
  intro h
  obtain ⟨d, rest, htype, hdigit, hsign⟩ := r.typeText_head
  apply not_mem_ttlText r' hdigit hsign
  rw [← h, htype]
  simp [String.toList_append]

theorem ttlText_inj {r r' : CreateRecordRequest} (h : r.ttlText = r'.ttlText) : r.ttl = r'.ttl := by
  apply Int64.toInt_inj.mp
  have hsign : ∀ n m : Nat, toString n ≠ String.singleton '-' ++ toString (m + 1) := by
    intro n m heq
    exact not_mem_toString (by decide) n (heq ▸ by simp [String.toList_append] : '-' ∈ _)
  unfold ttlText at h
  generalize r.ttl.toInt = a at h
  generalize r'.ttl.toInt = b at h
  cases a with
  | ofNat n =>
    cases b with
    | ofNat m => exact congrArg Int.ofNat (toString_nat_inj h)
    | negSucc m => exact absurd h (hsign n m)
  | negSucc n =>
    cases b with
    | ofNat m => exact absurd h.symm (hsign m n)
    | negSucc m =>
      have hsucc : toString (n + 1) = toString (m + 1) :=
        (@singleton_append_inj '-' '-' _ _ h).2
      have := toString_nat_inj hsucc
      rw [Nat.succ.inj this]

theorem typeText_inj {r r' : CreateRecordRequest} (h : r.typeText = r'.typeText) :
    r.recordType = r'.recordType := by
  unfold typeText at h
  revert h
  cases r.recordType <;> cases r'.recordType <;> decide

/-! ## Two records with one hash input -/

/-- Two requests ask for the same name, type, time to live and values, in any order. -/
def SameContent (r r' : CreateRecordRequest) : Prop :=
  r.name = r'.name ∧ r.recordType = r'.recordType ∧ r.ttl = r'.ttl ∧ r.values.Perm r'.values

/-- The name of `r'` goes on, behind that of `r`, with the type, the time to live, some values of
    `r` and the beginning `p` of the next value. The rest of that value reads as the type and the
    time to live of `r'`, and what is behind them as its values. -/
def Swallows (r r' : CreateRecordRequest) : Prop :=
  ∃ (front back : List String) (p q : String),
    r.sorted = front ++ (p ++ "|" ++ q) :: back ∧
    r'.name = r.name ++ "|" ++ (r.typeText ++ "|" ++ (r.ttlText ++ "|" ++
      (netstrings '|' front ++ toString (p ++ "|" ++ q).utf8ByteSize ++ ":" ++ p))) ∧
    (q = r'.typeText ++ "|" ++ r'.ttlText ∧ back = r'.sorted ∨
      ∃ q', q = r'.typeText ++ "|" ++ (r'.ttlText ++ "|" ++ q') ∧
        netstrings '|' r'.sorted = q' ++ "|" ++ netstrings '|' back)

theorem sorted_eq_iff {r r' : CreateRecordRequest} :
    r.sorted = r'.sorted ↔ r.values.Perm r'.values := by
  constructor
  · intro h
    have hperm := List.perm_insertionSort (· ≤ ·) r.values
    have hperm' := List.perm_insertionSort (· ≤ ·) r'.values
    exact hperm.symm.trans ((List.Perm.of_eq h).trans hperm')
  · exact insertionSort_eq_of_perm _

/-- Behind the name, the input is read in one way. -/
theorem hashTail_inj {r r' : CreateRecordRequest} (h : r.hashTail = r'.hashTail) :
    r.recordType = r'.recordType ∧ r.ttl = r'.ttl ∧ r.values.Perm r'.values := by
  obtain ⟨htype, hrest⟩ := field_inj r.bar_not_mem_typeText r'.bar_not_mem_typeText h
  obtain ⟨httl, hvalues⟩ := field_inj r.bar_not_mem_ttlText r'.bar_not_mem_ttlText hrest
  exact ⟨typeText_inj htype, ttlText_inj httl, sorted_eq_iff.mp (netstrings_inj hvalues)⟩

/-- Where the input of `r'` behind its name begins inside what follows the name of `r`, that is
    inside a value. -/
theorem hashTail_cut {r r' : CreateRecordRequest} {w : String}
    (h : r.hashTail = w ++ "|" ++ r'.hashTail) :
    ∃ front p q back, r.sorted = front ++ (p ++ "|" ++ q) :: back ∧
      w = r.typeText ++ "|" ++ (r.ttlText ++ "|" ++
        (netstrings '|' front ++ toString (p ++ "|" ++ q).utf8ByteSize ++ ":" ++ p)) ∧
      r'.hashTail = q ++ "|" ++ netstrings '|' back := by
  obtain ⟨d, rest, hhead, hdigit, -⟩ := r'.typeText_head
  have htail : r'.hashTail =
      String.singleton d ++ (rest ++ "|" ++ (r'.ttlText ++ "|" ++ netstrings '|' r'.sorted)) := by
    unfold hashTail
    rw [hhead]
    simp only [String.append_assoc]
  -- the type of `r` ends before it, since no time to live is a type
  rcases field_cut r.bar_not_mem_typeText h with ⟨rfl, hrest⟩ | ⟨w, rfl, hrest⟩
  · have hfields := field_inj r.bar_not_mem_ttlText r'.bar_not_mem_typeText hrest
    exact absurd hfields.1.symm (r'.typeText_ne_ttlText r)
  -- the time to live of `r` ends before it, since no netstring starts with a letter
  rcases field_cut r.bar_not_mem_ttlText hrest with ⟨rfl, hvalues⟩ |
    ⟨w, rfl, hvalues⟩
  · rw [htail] at hvalues
    exact absurd hvalues (netstrings_ne_of_not_isDigit hdigit _ _)
  · rw [htail] at hvalues
    obtain ⟨front, p, q, back, hsorted, rfl, hy⟩ := netstrings_cut (by decide) hdigit hvalues
    exact ⟨front, p, q, back, hsorted, by simp only [String.append_assoc]; rfl, htail.trans hy⟩

/-- Inside a value, the type and the time to live of `r'` end before the value does. -/
theorem hashTail_eq_value {r' : CreateRecordRequest} {q : String} {back : List String}
    (h : r'.hashTail = q ++ "|" ++ netstrings '|' back) :
    q = r'.typeText ++ "|" ++ r'.ttlText ∧ back = r'.sorted ∨
      ∃ q', q = r'.typeText ++ "|" ++ (r'.ttlText ++ "|" ++ q') ∧
        netstrings '|' r'.sorted = q' ++ "|" ++ netstrings '|' back := by
  have hcolon : ':' ∉ r'.ttlText.toList := r'.not_mem_ttlText (by decide) (by decide)
  rcases field_cut r'.bar_not_mem_typeText h with ⟨rfl, hrest⟩ | ⟨q, rfl, hrest⟩
  · exact absurd hrest.symm (netstrings_ne_field (by decide) hcolon _ _)
  rcases field_cut r'.bar_not_mem_ttlText hrest with ⟨rfl, hvalues⟩ |
    ⟨q, rfl, hvalues⟩
  · exact .inl ⟨rfl, (netstrings_inj hvalues).symm⟩
  · exact .inr ⟨q, rfl, hvalues⟩

/-- Two inputs are the same text when the records have the same content or one swallows the
    other. -/
theorem hashText_eq_iff {r r' : CreateRecordRequest} :
    r.hashText = r'.hashText ↔ r.SameContent r' ∨ r.Swallows r' ∨ r'.Swallows r := by
  -- a record that swallows another has its input
  have hswallows : ∀ {r r' : CreateRecordRequest}, r.Swallows r' → r.hashText = r'.hashText := by
    rintro r r' ⟨front, back, p, q, hsorted, hname, hrest⟩
    have htail : r'.hashTail = q ++ "|" ++ netstrings '|' back := by
      rcases hrest with ⟨rfl, rfl⟩ | ⟨q', rfl, hvalues⟩
      · simp only [hashTail, String.append_assoc]
      · simp only [hashTail, hvalues, String.append_assoc]
    unfold hashText
    rw [hname, htail, hashTail, hsorted, netstrings_append, netstrings, netstring]
    simp only [String.append_assoc]
    rfl
  -- and a longer name is there only when it swallows
  have hcut : ∀ {r r' : CreateRecordRequest} {w : String}, r'.name = r.name ++ "|" ++ w →
      r.hashTail = w ++ "|" ++ r'.hashTail → r.Swallows r' := by
    intro r r' w hname htail
    obtain ⟨front, p, q, back, hsorted, rfl, hvalue⟩ := hashTail_cut htail
    exact ⟨front, back, p, q, hsorted, hname, hashTail_eq_value hvalue⟩
  constructor
  · intro h
    rcases @separator_cases _ _ _ _ '|' h with ⟨hname, htail⟩ | ⟨w, hname, htail⟩ | ⟨w, hname, htail⟩
    · exact .inl ⟨hname.symm, hashTail_inj htail⟩
    · exact .inr (.inl (hcut hname htail))
    · exact .inr (.inr (hcut hname htail))
  · rintro (⟨hname, htype, httl, hvalues⟩ | hs | hs)
    · unfold hashText hashTail typeText ttlText
      rw [hname, htype, httl, sorted_eq_iff.mpr hvalues]
    · exact hswallows hs
    · exact (hswallows hs).symm

/-- Names without `|` swallow nothing. -/
theorem not_swallows {r r' : CreateRecordRequest} (h : '|' ∉ r'.name.toList) : ¬ r.Swallows r' := by
  rintro ⟨front, back, p, q, -, hname, -⟩
  rw [hname] at h
  exact h (by simp [String.toList_append])

/-- The name of a swallowed record is another one. -/
theorem Swallows.not_sameContent {r r' : CreateRecordRequest} (h : r.Swallows r') :
    ¬ r.SameContent r' := by
  obtain ⟨front, back, p, q, -, hname, -⟩ := h
  rintro ⟨hsame, -⟩
  rw [← hsame] at hname
  have := congrArg (fun s => s.toList.length) hname
  simp [String.toList_append] at this

/-! ## The hash -/

/-- Digests with the same hexadecimal text are the same. -/
theorem hex_inj {xs ys : List UInt8}
    (h : String.join (xs.map hexByte) = String.join (ys.map hexByte)) : xs = ys := by
  have hdigit : ∀ n < 16, ∀ m < 16, Nat.digitChar n = Nat.digitChar m → n = m := by decide
  induction xs generalizing ys with
  | nil =>
    cases ys with
    | nil => rfl
    | cons y ys => simpa [hexByte, String.toList_append] using congrArg String.toList h
  | cons x xs ih =>
    cases ys with
    | nil => simpa [hexByte, String.toList_append] using congrArg String.toList h
    | cons y ys =>
      have hl := congrArg String.toList h
      simp only [List.map_cons, String.join_cons, hexByte, String.toList_append,
        String.toList_ofList, List.cons_append, List.nil_append] at hl
      obtain ⟨hhigh, hl⟩ := List.cons.inj hl
      obtain ⟨hlow, hl⟩ := List.cons.inj hl
      have hx := x.toNat_lt
      have hy := y.toNat_lt
      have hdiv := hdigit (x.toNat / 16) (by omega) (y.toNat / 16) (by omega) hhigh
      have hmod := hdigit (x.toNat % 16) (by omega) (y.toNat % 16) (by omega) hlow
      rw [UInt8.toNat_inj.mp (by omega : x.toNat = y.toNat), ih (String.toList_inj.mp hl)]

theorem desiredHash_eq_iff [Sha256] {r r' : CreateRecordRequest}
    (hcollision : Sha256.digest r.hashInput = Sha256.digest r'.hashInput →
      r.hashInput = r'.hashInput) :
    r.desiredHash = r'.desiredHash ↔ r.hashInput = r'.hashInput := by
  constructor
  · intro h
    exact hcollision (hex_inj h)
  · intro h
    exact congrArg (fun input => String.join ((Sha256.digest input).map hexByte)) h

/-- The hash input, and where SHA-256 does not collide the hash, is that of the same content
    exactly when neither record swallows the other. -/
theorem desiredHash_identifies_iff [Sha256] (r r' : CreateRecordRequest) :
    ((r.hashInput = r'.hashInput ↔ r.SameContent r') ↔ ¬ r.Swallows r' ∧ ¬ r'.Swallows r) ∧
    ((Sha256.digest r.hashInput = Sha256.digest r'.hashInput → r.hashInput = r'.hashInput) →
      ((r.desiredHash = r'.desiredHash ↔ r.SameContent r') ↔
        ¬ r.Swallows r' ∧ ¬ r'.Swallows r)) := by
  have hinput : (r.hashInput = r'.hashInput ↔ r.SameContent r') ↔
      ¬ r.Swallows r' ∧ ¬ r'.Swallows r := by
    rw [hashInput_eq, hashInput_eq, asBytes_inj, hashText_eq_iff]
    constructor
    · intro h
      constructor
      · intro hs
        exact hs.not_sameContent (h.mp (.inr (.inl hs)))
      · intro hs
        obtain ⟨hname, htype, httl, hvalues⟩ := h.mp (.inr (.inr hs))
        exact hs.not_sameContent ⟨hname.symm, htype.symm, httl.symm, hvalues.symm⟩
    · rintro ⟨hleft, hright⟩
      constructor
      · rintro (hsame | hs | hs)
        · exact hsame
        · exact absurd hs hleft
        · exact absurd hs hright
      · exact .inl
  refine ⟨hinput, fun hcollision => ?_⟩
  rw [desiredHash_eq_iff hcollision]
  exact hinput

section Sample

attribute [local instance] Sample.sha256

/-- `www` with two addresses. -/
def wwwRequest (values : List String) : CreateRecordRequest := ⟨"www", .a, 300, values⟩

/-- Without `|` in the names, the order of the values does not matter and the values do. -/
theorem desiredHash_identifies_iff_www :
    (wwwRequest ["192.0.2.1", "192.0.2.2"]).hashInput =
        (wwwRequest ["192.0.2.2", "192.0.2.1"]).hashInput ∧
      (wwwRequest ["192.0.2.1"]).hashInput ≠ (wwwRequest ["192.0.2.2"]).hashInput := by
  have hno : ∀ values, '|' ∉ (wwwRequest values).name.toList := by
    intro values
    show '|' ∉ "www".toList
    decide
  have hiff := fun values values' => (desiredHash_identifies_iff (wwwRequest values)
    (wwwRequest values')).1.mpr ⟨not_swallows (hno _), not_swallows (hno _)⟩
  constructor
  · exact (hiff _ _).mpr ⟨rfl, rfl, rfl, .swap _ _ _⟩
  · intro h
    exact absurd ((hiff _ _).mp h).2.2.2 (by decide)

/-- A TXT record of the name `x` whose value looks like the end of a hash input. -/
def shortName : CreateRecordRequest := ⟨"x", .txt, 300, ["y|TXT|300|1:a"]⟩

/-- The record whose name takes in what stands before the `y` above. -/
def longName : CreateRecordRequest := ⟨"x|TXT|300|13:y", .txt, 300, ["a"]⟩

/-- Two accepted records with different names have one hash input. -/
theorem desiredHash_collides :
    validateRecordRequest shortName = .ok () ∧ validateRecordRequest longName = .ok () ∧
      shortName.hashInput = longName.hashInput ∧ ¬ shortName.SameContent longName := by
  have hvalid : validateRecordRequest shortName = .ok () ∧ validateRecordRequest longName = .ok () := by
    decide
  have htext : shortName.hashText = longName.hashText := by decide
  refine ⟨hvalid.1, hvalid.2, ?_, fun hsame => ?_⟩
  · rw [hashInput_eq, hashInput_eq, htext]
  · exact absurd hsame.1 (by decide)

end Sample

end CreateRecordRequest

end DnsManager
