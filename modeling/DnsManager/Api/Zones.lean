import DnsManager.Api.Changesets

/-!
# Record handlers (`api/src/routes/zones.rs`)

`createRecord` checks a request and inserts a desired record. The random id and the time
are arguments. The row stays in the database when the response cannot be built from it,
so the outcome is the response or an error together with the database.

SHA-256 is third-party code, the field of the class `Sha256`.
-/

namespace DnsManager

/-- `Sha256::digest` -/
class Sha256 where
  digest : List UInt8 → List UInt8

/-- `record_type_str` -/
def recordTypeStr : RecordType → String
  | .a => "A"
  | .aaaa => "AAAA"
  | .cname => "CNAME"
  | .mx => "MX"
  | .txt => "TXT"
  | .ns => "NS"
  | .srv => "SRV"
  | .caa => "CAA"

/-- The table agrees with the names serde gives the variants. -/
theorem recordTypeStr_eq_serdeName (rt : RecordType) : recordTypeStr rt = rt.serdeName := by
  cases rt <;> decide

/-- Every text of the table passes the `CHECK` of the schema. -/
theorem recordTypeStr_mem (rt : RecordType) : recordTypeStr rt ∈ recordTypes := by
  cases rt <;> decide

/-! ## The desired hash -/

/-- `str::as_bytes` -/
def asBytes (s : String) : List UInt8 := s.toUTF8.data.toList

/-- What `compute_desired_hash` feeds to the hasher. -/
def desiredHashInput (name recordType : String) (ttl : Int64) (values : List String) :
    List UInt8 :=
  let sorted := values.insertionSort (· ≤ ·)
  asBytes name ++ asBytes "|" ++ asBytes recordType ++ asBytes "|" ++
    asBytes (toString ttl.toInt) ++ asBytes "|" ++
    sorted.flatMap fun value =>
      asBytes (toString value.utf8ByteSize) ++ asBytes ":" ++ asBytes value ++ asBytes "|"

/-- `format!("{b:02x}")` -/
def hexByte (b : UInt8) : String :=
  String.ofList [Nat.digitChar (b.toNat / 16), Nat.digitChar (b.toNat % 16)]

/-- `compute_desired_hash` -/
def computeDesiredHash [Sha256] (name recordType : String) (ttl : Int64) (values : List String) :
    String :=
  String.join ((Sha256.digest (desiredHashInput name recordType ttl values)).map hexByte)

/-! ## Creation -/

/-- `CreateRecordRequest` -/
structure CreateRecordRequest where
  name : String
  recordType : RecordType
  ttl : Int64
  values : List String
deriving DecidableEq, Repr

/-- `Record`, the response -/
structure RecordView where
  id : String
  zoneId : String
  name : String
  recordType : String
  ttl : Int64
  values : List String
  desiredHash : String
  createdAt : String
  updatedAt : String
deriving DecidableEq, Repr

section Create

variable [SerdeJson] [Sha256]

/-- `RecordRow::into_record` -/
def intoRecord (row : DesiredRecord) : Except ApiError RecordView := do
  let values ← (SerdeJson.stringsFromStr row.recordValues).mapError
    fun e => .internal s!"record_values parse error: {e}"
  return { id := row.id, zoneId := row.zoneId, name := row.name, recordType := row.recordType,
           ttl := row.ttl, values, desiredHash := row.desiredHash, createdAt := row.createdAt,
           updatedAt := row.updatedAt }

/-- The checks `create_record` makes before it looks at the database. -/
def validateRecordRequest (body : CreateRecordRequest) : Except ApiError Unit :=
  if body.ttl ≤ 0 then .error (.badRequest "ttl must be greater than 0")
  else if (RustStr.trim body.name).isEmpty then
    .error (.unprocessableEntity "name must not be empty")
  else if body.values.isEmpty then .error (.unprocessableEntity "values must not be empty")
  else .ok ()

/-- The row `create_record` inserts. -/
def recordRow (zoneId id now : String) (body : CreateRecordRequest) :
    Except ApiError DesiredRecord := do
  let rtStr := recordTypeStr body.recordType
  let recordValuesJson ← (SerdeJson.stringsToString body.values).mapError
    fun e => .internal s!"values serialization failed: {e}"
  return { id, zoneId, name := body.name, recordType := rtStr, recordValues := recordValuesJson,
           ttl := body.ttl,
           desiredHash := computeDesiredHash body.name rtStr body.ttl body.values,
           deletedAt := none, createdAt := now, updatedAt := now }

/-- The error of the `INSERT` of `create_record`. -/
def insertRecordErr (v : Violation) : ApiError :=
  if v.isUniqueViolation then .conflict else .internal v.display

/-- The part of `create_record` up to the `INSERT`. -/
def insertDesiredRecord (db : Database) (zoneId id now : String) (body : CreateRecordRequest) :
    Except ApiError (DesiredRecord × Database) := do
  validateRecordRequest body
  if (db.zones.find? zoneId).isNone then .error .notFound
  let row ← recordRow zoneId id now body
  let db' ← (db.insertRecord row).mapError insertRecordErr
  return (row, db')

/-- `create_record`, with the id and the time it draws. -/
def createRecord (db : Database) (zoneId id now : String) (body : CreateRecordRequest) :
    Except ApiError RecordView × Database :=
  match insertDesiredRecord db zoneId id now body with
  | .error e => (.error e, db)
  | .ok (row, db') => (intoRecord row, db')

end Create

end DnsManager
