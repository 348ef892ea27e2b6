import DnsManager.Core.Provider

/-!
# Validation of a record for Route53 (`adapters/route53/src/lib.rs`)

`validateRecord` collects an error for each rule a record breaks.
-/

namespace DnsManager.Route53

open RustStr (parseU16 parseU8 splitn)

/-- `MIN_TTL` -/
def minTtl : UInt32 := 60

/-- `MAX_TTL` -/
def maxTtl : UInt32 := 2147483647

/-- `NAME_MAX_LEN` -/
def nameMaxLen : Nat := 255

/-- The priority read of an MX value, `parts.next().and_then(|p| p.parse::<u16>().ok())`. -/
def mxPriority (v : String) : Option UInt16 := (splitn 2 v ' ')[0]?.bind parseU16

/-- `priority_ok && exchange_ok` -/
def mxOk (v : String) : Bool :=
  let priorityOk := (mxPriority v).isSome
  let exchangeOk := ((splitn 2 v ' ')[1]?.map fun s => !s.isEmpty).getD false
  priorityOk && exchangeOk

/-- `flags_ok && tag_ok && val_ok` -/
def caaOk (v : String) : Bool :=
  let parts := splitn 3 v ' '
  let flagsOk := (parts[0]?.bind parseU8).isSome
  let tagOk := (parts[1]?.map fun t => !t.isEmpty).getD false
  let valOk := (parts[2]?.map fun v => !v.isEmpty).getD false
  flagsOk && tagOk && valOk

/-- The error for an MX value. -/
def mxError (v : String) : String :=
  s!"invalid MX value '{v}': expected \"<priority> <hostname>\" (e.g. \"10 mail.example.com.\")"

/-- The error for a CAA value. -/
def caaError (v : String) : String :=
  s!"invalid CAA value '{v}': expected \"<flags> <tag> <value>\" " ++
    "(e.g. \"0 issue \\\"letsencrypt.org\\\"\")"

/-- The errors `validate_record` collects, in its order. -/
def validationErrors (record : ProviderRecord) : List String :=
  (if record.ttl < minTtl then
    [s!"TTL {record.ttl} is below the Route53 minimum of {minTtl} seconds"] else []) ++
  (if record.ttl > maxTtl then
    [s!"TTL {record.ttl} exceeds the Route53 maximum of {maxTtl}"] else []) ++
  (if record.name.utf8ByteSize > nameMaxLen then
    [s!"record name length {record.name.utf8ByteSize} exceeds DNS maximum of {nameMaxLen} characters"]
    else []) ++
  (if record.recordType = .cname ∧ record.name = "@" then
    ["CNAME records cannot be placed at the zone apex (@)"] else []) ++
  (if record.values.isEmpty then ["record must have at least one value"] else []) ++
  (if record.recordType = .mx then (record.values.filter fun v => !mxOk v).map mxError else []) ++
  (if record.recordType = .caa then (record.values.filter fun v => !caaOk v).map caaError else [])

/-- `validate_record` -/
def validateRecord (record : ProviderRecord) : ValidationResult :=
  let errors := validationErrors record
  if errors.isEmpty then .ok else .err errors

/-- A record is valid when it breaks no rule. -/
theorem validateRecord_valid_iff {record : ProviderRecord} :
    (validateRecord record).valid = true ↔
      minTtl ≤ record.ttl ∧ record.ttl ≤ maxTtl ∧ record.name.utf8ByteSize ≤ nameMaxLen ∧
      (record.recordType = .cname → record.name ≠ "@") ∧ record.values ≠ [] ∧
      (record.recordType = .mx → ∀ v ∈ record.values, mxOk v = true) ∧
      (record.recordType = .caa → ∀ v ∈ record.values, caaOk v = true) := by
  have hnil : ∀ (p : Prop) [Decidable p] (es : List String),
      (if p then es else []) = [] ↔ (p → es = []) := fun p _ es => by
    by_cases hp : p <;> simp [hp]
  have hvalid : (validateRecord record).valid = true ↔ validationErrors record = [] := by
    unfold validateRecord
    cases validationErrors record <;> simp [ValidationResult.ok, ValidationResult.err]
  rw [hvalid]
  simp only [validationErrors, List.append_eq_nil_iff, hnil, List.map_eq_nil_iff,
    List.filter_eq_nil_iff, List.cons_ne_nil, imp_false, UInt32.not_lt, gt_iff_lt, not_lt, not_and,
    List.isEmpty_iff, Bool.not_eq_true', Bool.not_eq_false, and_assoc, ne_eq]

end DnsManager.Route53
