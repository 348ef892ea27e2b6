import DnsManager.Core.Record

/-!
# Conversions between records and Route53 (`adapters/route53/src/convert.rs`)

Route53 names a record by its absolute name and quotes the text of TXT records; the program
uses names relative to the zone and raw text.
-/

namespace DnsManager.Route53

open RustStr

/-- `RrType`; the types the program does not support are known by their name. -/
inductive RrType where
  | a | aaaa | cname | mx | txt | ns | srv | caa
  | other (name : String)
deriving DecidableEq, Repr

/-- `normalize_zone_id` -/
def normalizeZoneId (raw : String) : String := (stripPrefix raw "/hostedzone/").getD raw

/-- `record_type_to_rr_type` -/
def recordTypeToRrType : RecordType → RrType
  | .a => .a
  | .aaaa => .aaaa
  | .cname => .cname
  | .mx => .mx
  | .txt => .txt
  | .ns => .ns
  | .srv => .srv
  | .caa => .caa

/-- `rr_type_to_record_type` -/
def rrTypeToRecordType : RrType → Option RecordType
  | .a => some .a
  | .aaaa => some .aaaa
  | .cname => some .cname
  | .mx => some .mx
  | .txt => some .txt
  | .ns => some .ns
  | .srv => some .srv
  | .caa => some .caa
  | .other _ => none

@[simp] theorem rrTypeToRecordType_recordTypeToRrType (rt : RecordType) :
    rrTypeToRecordType (recordTypeToRrType rt) = some rt := by
  cases rt <;> rfl

theorem recordTypeToRrType_of_rrTypeToRecordType {rrType : RrType} {recordType : RecordType}
    (h : rrTypeToRecordType rrType = some recordType) : recordTypeToRrType recordType = rrType := by
  cases rrType <;> cases h <;> rfl

/-! ## Names -/

/-- `s.strip_suffix('.').unwrap_or(s)` -/
def withoutDot (s : String) : String := (stripSuffix s ".").getD s

@[simp] theorem withoutDot_append_dot (s : String) : withoutDot (s ++ ".") = s := by
  simp [withoutDot]

/-- `to_relative_name` -/
def toRelativeName [UnicodeData] (fqdn zoneFqdn : String) : String :=
  let name := withoutDot fqdn
  let zone := withoutDot zoneFqdn
  if eqIgnoreAsciiCase name zone then "@"
  else
    match stripSuffix (toLowercase name) ("." ++ toLowercase zone) with
    | some relative => relative
    | none => name

/-- `to_fqdn` -/
def toFqdn (relative zoneFqdn : String) : String :=
  let zone := withoutDot zoneFqdn
  if relative = "@" then zone ++ "." else relative ++ "." ++ zone ++ "."

/-- `fqdns_equal` (`lib.rs`) -/
def fqdnsEqual (a b : String) : Bool := eqIgnoreAsciiCase (withoutDot a) (withoutDot b)

/-- Names that are equal to Route53 are equal to the same names. -/
theorem fqdnsEqual_congr_right {b c : String} (h : fqdnsEqual b c = true) (a : String) :
    fqdnsEqual a b = fqdnsEqual a c := by
  unfold fqdnsEqual eqIgnoreAsciiCase at *
  rw [beq_iff_eq.mp h]

/-- A name longer than the zone is not the zone. -/
theorem eqIgnoreAsciiCase_append (r zone : String) :
    eqIgnoreAsciiCase (r ++ "." ++ zone) zone = false := by
  unfold eqIgnoreAsciiCase
  rw [beq_eq_false_iff_ne]
  intro h
  have := congrArg List.length h
  simp [String.toList_append] at this
  omega

/-- No other character becomes `@` in lower case. -/
theorem toLower_eq_at {c : Char} (h : c.toLower = '@') : c = '@' := by
  rcases toLower_cases c with ⟨-, hlower⟩ | ⟨hlow, hhigh, hnat⟩
  · exact hlower.symm.trans h
  · -- the lower case of a capital letter is a letter
    rw [h] at hnat
    have : '@'.toNat = 64 := by decide
    omega

/-- Only `@` is `@`. -/
theorem eqIgnoreAsciiCase_at {r : String} (h : r ≠ "@") :
    eqIgnoreAsciiCase r "@" = false := by
  unfold eqIgnoreAsciiCase
  rw [beq_eq_false_iff_ne]
  rw [show "@".toList.map Char.toLower = ['@'] by decide]
  intro heq
  obtain ⟨c, hr, hc⟩ := List.map_eq_singleton_iff.mp heq
  exact h (String.toList_inj.mp (hr.trans (by rw [toLower_eq_at hc]; rfl)))

/-- Two relative names denote the same name in Route53 exactly when they differ in ASCII case at
    most. -/
theorem fqdnsEqual_toFqdn (a b zoneFqdn : String) :
    fqdnsEqual (toFqdn a zoneFqdn) (toFqdn b zoneFqdn) = eqIgnoreAsciiCase a b := by
  unfold fqdnsEqual toFqdn
  by_cases ha : a = "@" <;> by_cases hb : b = "@"
  · subst ha hb
    simp only [if_true, eqIgnoreAsciiCase_self]
  · subst ha
    rw [if_pos rfl, if_neg hb, withoutDot_append_dot, withoutDot_append_dot,
      eqIgnoreAsciiCase_comm, eqIgnoreAsciiCase_append, eqIgnoreAsciiCase_comm,
      eqIgnoreAsciiCase_at hb]
  · subst hb
    rw [if_pos rfl, if_neg ha, withoutDot_append_dot, withoutDot_append_dot,
      eqIgnoreAsciiCase_append, eqIgnoreAsciiCase_at ha]
  · rw [if_neg ha, if_neg hb, withoutDot_append_dot, withoutDot_append_dot,
      eqIgnoreAsciiCase_append_right, eqIgnoreAsciiCase_append_right]

/-- A relative name survives the way to Route53 and back exactly when it is the apex or
    lower-casing its absolute name does not change it. -/
theorem toRelativeName_toFqdn [UnicodeData] (r zoneFqdn : String) :
    toRelativeName (toFqdn r zoneFqdn) zoneFqdn = r ↔
      r = "@" ∨ toLowercase (r ++ "." ++ withoutDot zoneFqdn) =
        r ++ "." ++ toLowercase (withoutDot zoneFqdn) := by
  by_cases hr : r = "@"
  · subst hr
    simp [toRelativeName, toFqdn, eqIgnoreAsciiCase]
  · simp only [hr, false_or]
    simp only [toRelativeName, toFqdn, hr, if_false, withoutDot_append_dot,
      eqIgnoreAsciiCase_append, Bool.false_eq_true]
    have hassoc : r ++ "." ++ toLowercase (withoutDot zoneFqdn) =
        r ++ ("." ++ toLowercase (withoutDot zoneFqdn)) := String.append_assoc
    rw [hassoc, ← stripSuffix_eq_some]
    cases hs : stripSuffix (toLowercase (r ++ "." ++ withoutDot zoneFqdn))
        ("." ++ toLowercase (withoutDot zoneFqdn)) with
    | some relative => simp
    | none =>
      -- the absolute name itself is longer than the relative one
      simp only [reduceCtorEq, iff_false]
      intro h
      have := congrArg (fun s => s.toList.length) h
      simp [String.toList_append] at this

/-! ## The text of TXT records -/

/-- `strip_txt_quotes` -/
def stripTxtQuotes (s : String) : String :=
  match (stripPrefix s "\"").bind fun s => stripSuffix s "\"" with
  | some inner => inner
  | none => s

/-- `s.starts_with('"') && s.ends_with('"') && s.len() >= 2` -/
def isQuoted (s : String) : Bool := startsWith s "\"" && endsWith s "\"" && s.utf8ByteSize ≥ 2

/-- `add_txt_quotes` -/
def addTxtQuotes (s : String) : String := if isQuoted s then s else "\"" ++ s ++ "\""

/-- A text that is not quoted survives the way to Route53 and back. -/
theorem stripTxtQuotes_addTxtQuotes {s : String} (h : isQuoted s = false) :
    stripTxtQuotes (addTxtQuotes s) = s := by
  simp only [addTxtQuotes, h, Bool.false_eq_true, if_false, stripTxtQuotes, String.append_assoc,
    stripPrefix_append, Option.bind_some, stripSuffix_append]

/-- A quoted text has something, or nothing, between its two quotes. -/
theorem isQuoted_iff {s : String} : isQuoted s = true ↔ ∃ inner, s = "\"" ++ inner ++ "\"" := by
  simp only [isQuoted, Bool.and_eq_true, startsWith_iff, endsWith_iff, decide_eq_true_eq]
  constructor
  · rintro ⟨⟨⟨t, rfl⟩, u, hu⟩, hlen⟩
    rcases List.eq_nil_or_concat t.toList with hnil | ⟨inner, c, hconcat⟩
    · rw [String.toList_eq_nil_iff.mp hnil] at hlen
      exact absurd hlen (by decide)
    · have hl := congrArg String.toList hu
      rw [String.toList_append, String.toList_append, hconcat] at hl
      -- the last character of the whole is that of what follows the first quote
      have hc : c = '"' := by
        rw [List.concat_eq_append, ← List.append_assoc] at hl
        simpa using List.append_inj_right' hl rfl
      refine ⟨String.ofList inner, ?_⟩
      rw [← String.toList_inj, String.toList_append, String.toList_append, String.toList_append,
        hconcat, hc]
      simp
  · rintro ⟨inner, rfl⟩
    refine ⟨⟨⟨inner ++ "\"", String.append_assoc ..⟩, "\"" ++ inner, rfl⟩, ?_⟩
    have hone : ("\"" : String).utf8ByteSize = 1 := by decide
    simp only [String.utf8ByteSize_append, hone]
    omega

/-- The quotes of a quoted text are taken for those of Route53 and lost. -/
theorem stripTxtQuotes_addTxtQuotes_quoted (inner : String) :
    stripTxtQuotes (addTxtQuotes ("\"" ++ inner ++ "\"")) = inner := by
  rw [addTxtQuotes, if_pos (isQuoted_iff.mpr ⟨inner, rfl⟩), stripTxtQuotes, String.append_assoc,
    stripPrefix_append, Option.bind_some, stripSuffix_append]

end DnsManager.Route53
