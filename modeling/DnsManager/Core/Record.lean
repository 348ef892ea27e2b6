import DnsManager.ForStd.Str
import Mathlib.Data.List.Sort

/-!
# DNS records (`core/src/record.rs`)

The record type shared by the API, the worker and the provider adapters, and the
comparison the observe phase makes between an observed and a desired record.

`String`'s `≤` is the lexicographic order on scalar values, which is the byte order of
UTF-8 that Rust sorts by. `sort` and `sort_by` are stable sorts; they are modelled by
Mathlib's insertion sort.
-/

namespace DnsManager

open RustStr

/-- `RecordType` -/
inductive RecordType where
  | a | aaaa | cname | mx | txt | ns | srv | caa
deriving DecidableEq, Repr

/-- The identifier of the variant in the Rust source. -/
def RecordType.variantName : RecordType → String
  | .a => "A"
  | .aaaa => "Aaaa"
  | .cname => "Cname"
  | .mx => "Mx"
  | .txt => "Txt"
  | .ns => "Ns"
  | .srv => "Srv"
  | .caa => "Caa"

/-- serde's rule `SCREAMING_SNAKE_CASE` for a variant name: an underscore before every
    upper-case letter but the first, and everything in ASCII upper case. -/
def screamingSnakeCase (variant : String) : String :=
  match variant.toList with
  | [] => ""
  | c :: cs => String.ofList
      (c.toUpper :: cs.flatMap fun c => if c.isUpper then ['_', c] else [c.toUpper])

/-- The name serde gives the variant: `#[serde(rename_all = "SCREAMING_SNAKE_CASE")]`. -/
def RecordType.serdeName (rt : RecordType) : String := screamingSnakeCase rt.variantName

/-- `ProviderRecord` -/
structure ProviderRecord where
  name : String
  recordType : RecordType
  ttl : UInt32
  values : List String
deriving DecidableEq, Repr

/-- `RecordKey`: what identifies a record inside a zone. -/
structure RecordKey where
  name : String
  recordType : RecordType
deriving DecidableEq, Repr

/-- `RecordKey::from` -/
def ProviderRecord.key (r : ProviderRecord) : RecordKey := ⟨r.name, r.recordType⟩

/-! ## Normalisation -/

section Normalisation

variable [UnicodeData]

/-- `normalize_rdata` -/
def normalizeRdata (s : String) : String :=
  let lower := toLowercase s
  match stripSuffix lower "." with
  | some stripped => stripped
  | none => lower

/-- `parse_mx` -/
def parseMx (s : String) : Option (UInt16 × String) := do
  let (prioStr, exchange) ← splitOnce s ' '
  let priority ← parseU16 (trim prioStr)
  return (priority, normalizeRdata (trim exchange))

/-- The loop of `normalize_for_comparison` that separates the MX values that parse from
    those that are kept as they are. -/
def separateMx : List String → List (UInt16 × String) × List String
  | [] => ([], [])
  | v :: vs =>
    let (parsed, unparsed) := separateMx vs
    match parseMx (trim v) with
    | some entry => (entry :: parsed, unparsed)
    | none => (parsed, trim v :: unparsed)

/-- The order of `parsed.sort_by`: by priority, then by exchange. -/
def mxLe (x y : UInt16 × String) : Prop := x.1 < y.1 ∨ x.1 = y.1 ∧ x.2 ≤ y.2

instance : DecidableRel mxLe := fun _ _ => inferInstanceAs (Decidable (_ ∨ _))

/-- `format!("{priority} {exchange}")` -/
def formatMx (entry : UInt16 × String) : String :=
  toString entry.1.toNat ++ " " ++ entry.2

/-- `ProviderRecord::normalize_for_comparison` -/
def ProviderRecord.normalizeForComparison (r : ProviderRecord) : List String :=
  match r.recordType with
  | .mx =>
    let (parsed, unparsed) := separateMx r.values
    (parsed.insertionSort mxLe).map formatMx ++ unparsed.insertionSort (· ≤ ·)
  | .txt => (r.values.map trim).insertionSort (· ≤ ·)
  | _ => (r.values.map fun v => normalizeRdata (trim v)).insertionSort (· ≤ ·)

/-- `diff`: the two records differ. -/
def diff (actual desired : ProviderRecord) : Bool :=
  actual.name != desired.name
    || actual.recordType != desired.recordType
    || actual.ttl != desired.ttl
    || actual.normalizeForComparison != desired.normalizeForComparison

/-- A record does not differ from another with the same values after normalisation. -/
theorem diff_eq_false {actual desired : ProviderRecord} :
    diff actual desired = false ↔
      actual.name = desired.name ∧ actual.recordType = desired.recordType ∧
        actual.ttl = desired.ttl ∧
        actual.normalizeForComparison = desired.normalizeForComparison := by
  simp only [diff, Bool.or_eq_false_iff, bne_eq_false_iff_eq, and_assoc]

end Normalisation

end DnsManager
