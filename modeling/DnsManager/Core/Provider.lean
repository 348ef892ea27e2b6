import DnsManager.Core.Record

/-!
# The provider interface (`core/src/provider.rs`) and the JSON library

`Credentials` is the decrypted key/value map handed to an adapter. `ProviderError` is the
error of an adapter call with its `Display` text.

serde_json is third-party code. Its functions are the fields of the class `SerdeJson`;
the errors carry their `Display` text.
-/

namespace DnsManager

/-- `Credentials`, a map from keys to secrets. -/
structure Credentials where
  entries : List (String × String)
deriving DecidableEq, Repr

/-- `ProviderError` -/
inductive ProviderError where
  | authError (msg : String)
  | zoneNotFound (zone : String)
  | recordNotFound (record : String)
  | rateLimitExceeded
  | apiError (msg : String)
deriving DecidableEq, Repr

/-- The `Display` text of a provider error. -/
def ProviderError.display : ProviderError → String
  | .authError msg => s!"authentication failed: {msg}"
  | .zoneNotFound zone => s!"zone not found: {zone}"
  | .recordNotFound record => s!"record not found: {record}"
  | .rateLimitExceeded => "rate limit exceeded"
  | .apiError msg => s!"provider API error: {msg}"

/-- `ValidationResult` -/
structure ValidationResult where
  valid : Bool
  errors : List String
deriving DecidableEq, Repr

/-- `ValidationResult::ok` -/
def ValidationResult.ok : ValidationResult := ⟨true, []⟩

/-- `ValidationResult::err` -/
def ValidationResult.err (errors : List String) : ValidationResult := ⟨false, errors⟩

/-- The functions of serde_json the program calls. -/
class SerdeJson where
  /-- `serde_json::Value` -/
  Value : Type
  /-- `serde_json::to_string` of a value -/
  valueToString : Value → Except String String
  /-- `serde_json::from_str::<Value>` -/
  valueFromStr : String → Except String Value
  /-- `serde_json::to_vec` of a value -/
  valueToVec : Value → Except String (List UInt8)
  /-- `serde_json::from_str::<ProviderRecord>` -/
  recordFromStr : String → Except String ProviderRecord
  /-- `serde_json::to_string` of a record -/
  recordToString : ProviderRecord → Except String String
  /-- `serde_json::from_str::<Vec<String>>` -/
  stringsFromStr : String → Except String (List String)
  /-- `serde_json::to_string` of a list of strings -/
  stringsToString : List String → Except String String
  /-- `serde_json::from_str::<RecordType>` -/
  recordTypeFromStr : String → Except String RecordType
  /-- `serde_json::from_slice::<HashMap<String, String>>` -/
  credentialsFromSlice : List UInt8 → Except String Credentials

end DnsManager
