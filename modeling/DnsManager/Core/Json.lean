import DnsManager.Core.Provider

/-!
# JSON values

What serde_json documents about its `Value`s, as far as a proof needs to know: a `Value` is
a JSON value, and its bytes are read as a map of strings when it is an object of strings.
A number is kept as its text.
-/

namespace DnsManager

/-- A JSON value. -/
inductive Json where
  | null
  | bool (b : Bool)
  | number (text : String)
  | string (s : String)
  | array (elements : List Json)
  | object (members : List (String × Json))

namespace Json

/-- The text of a string. -/
def string? : Json → Option String
  | string s => some s
  | _ => none

/-- The member of an object. -/
def member? (key : String) : Json → Option Json
  | object members => members.lookup key
  | _ => none

/-- The value is an object whose members are strings. -/
def IsStringMap : Json → Prop
  | object members => ∀ m ∈ members, m.2.string?.isSome = true
  | _ => False

instance : DecidablePred IsStringMap
  | null | bool _ | number _ | string _ | array _ => inferInstanceAs (Decidable False)
  | object members => inferInstanceAs (Decidable (∀ m ∈ members, m.2.string?.isSome = true))

end Json

/-- `Value` as JSON. The bytes of a value are read as a `HashMap<String, String>` when it is an
    object of strings, and the map has its members; otherwise the reader reports an error. -/
class JsonValues [SerdeJson] where
  json : SerdeJson.Value → Json
  credentialsFromSlice_ok : ∀ value bytes, SerdeJson.valueToVec value = .ok bytes →
    (json value).IsStringMap → ∃ creds, SerdeJson.credentialsFromSlice bytes = .ok creds ∧
      ∀ key, (creds.entries.lookup key).map Json.string = (json value).member? key
  credentialsFromSlice_error : ∀ value bytes, SerdeJson.valueToVec value = .ok bytes →
    ¬ (json value).IsStringMap → ∃ e, SerdeJson.credentialsFromSlice bytes = .error e

end DnsManager
