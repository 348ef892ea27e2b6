import DnsManager.Adapters.Route53.Adapter
import DnsManager.Api.Zones
import DnsManager.Spec.BindingLoop
import DnsManager.Spec.ObserveCorrect
import DnsManager.Worker.Retry
import Mathlib.Data.Prod.Lex
import Mathlib.Order.Lex

/-!
# A deployment to evaluate on

One zone with two Route53 bindings, whose credentials were encrypted with AES-256-GCM
under the key-encryption key `0, 1, …, 31`. The third-party functions are the tables of
their values on these inputs. `usable` says that the worker can use every binding of it.
-/

namespace DnsManager

namespace Sample

/-- The numbers `lo, …, lo + n - 1` as bytes. -/
def bytes (lo n : Nat) : List UInt8 := (List.range' lo n).map Nat.toUInt8

def kek : CryptoKey := ⟨bytes 0 32, by decide⟩

def dek : CryptoKey := ⟨bytes 32 32, by decide⟩

/-- `{"access_key_id":"AKIA","secret_access_key":"s3"}` encrypted under `dek` with the
    nonce `0, …, 11`, and its tag. -/
def sealedCredentials : List UInt8 :=
  [39, 112, 60, 196, 41, 80, 152, 159, 227, 146, 172, 191, 121, 26, 58, 30, 41, 82, 168, 47, 35,
   80, 132, 61, 6, 126, 182, 217, 201, 228, 191, 199, 77, 189, 113, 88, 104, 108, 27, 142, 143,
   2, 216, 194, 238, 184, 25, 147, 79, 245, 236, 233, 187, 79, 161, 33, 228, 57, 181, 215, 66,
   72, 169, 236, 57]

/-- `dek` encrypted under `kek` with the nonce `12, …, 23`, and its tag. -/
def sealedDek : List UInt8 :=
  [184, 223, 75, 251, 91, 83, 218, 116, 31, 3, 98, 254, 189, 166, 8, 200, 101, 50, 223, 221, 194,
   72, 13, 157, 163, 155, 192, 219, 216, 157, 254, 197, 88, 98, 247, 2, 50, 158, 200, 223, 81,
   178, 77, 246, 70, 231, 205, 77]

def credentialsText : String :=
  "\x7b\"access_key_id\":\"AKIA\",\"secret_access_key\":\"s3\"\x7d"

def credentialsBytes : List UInt8 := credentialsText.toList.map fun c => c.toNat.toUInt8

def credentialsBlob : String :=
  "AAECAwQFBgcICQoLJ3A8xClQmJ/jkqy/eRo6HilSqC8jUIQ9Bn622cnk" ++
    "v8dNvXFYaGwbjo8C2MLuuBmTT/Xs6btPoSHkObXXQkip7Dk="

def credentialsDek : String :=
  "DA0ODxAREhMUFRYXuN9L+1tT2nQfA2L+vaYIyGUy393CSA2do5vA29id/sVYYvcCMp7I31GyTfZG581N"

/-- AES-256-GCM and base64 on the two ciphertexts. -/
scoped instance cryptoLib : CryptoLib where
  aesGcmEncrypt key nonce plaintext :=
    if (key, nonce, plaintext) = (dek, bytes 0 12, credentialsBytes) then some sealedCredentials
    else if (key, nonce, plaintext) = (kek, bytes 12 12, dek.bytes) then some sealedDek
    else none
  aesGcmDecrypt key nonce ciphertext :=
    if (key, nonce, ciphertext) = (dek, bytes 0 12, sealedCredentials) then some credentialsBytes
    else if (key, nonce, ciphertext) = (kek, bytes 12 12, sealedDek) then some dek.bytes
    else none
  base64Encode data :=
    if data = bytes 0 12 ++ sealedCredentials then credentialsBlob
    else if data = bytes 12 12 ++ sealedDek then credentialsDek
    else ""
  base64Decode text :=
    if text = credentialsBlob then .ok (bytes 0 12 ++ sealedCredentials)
    else if text = credentialsDek then .ok (bytes 12 12 ++ sealedDek)
    else .error "Invalid padding"

/-- The compact JSON text of a list of strings without special characters. -/
def stringsJson (values : List String) : String :=
  "[" ++ ",".intercalate (values.map fun v => s!"\"{v}\"") ++ "]"

/-- The compact JSON text of a record without special characters. -/
def recordJson (r : ProviderRecord) : String :=
  "\x7b\"name\":\"" ++ r.name ++ "\",\"record_type\":\"" ++ r.recordType.serdeName ++
    "\",\"ttl\":" ++ toString r.ttl.toNat ++ ",\"values\":" ++ stringsJson r.values ++ "\x7d"

/-- An `A` record `www` with the given address. -/
def www (address : String) : ProviderRecord :=
  { name := "www", recordType := .a, ttl := 300, values := [address] }

/-- An `A` record `api`. -/
def api : ProviderRecord :=
  { name := "api", recordType := .a, ttl := 300, values := ["192.0.2.9"] }

/-- The records whose JSON text is read. -/
def records : List ProviderRecord := [www "192.0.2.1", www "192.0.2.2", api]

def recordTypes : List RecordType := [.a, .aaaa, .cname, .mx, .txt, .ns, .srv, .caa]

/-- serde_json on the records and credentials here; a JSON value is its compact text. -/
scoped instance serdeJson : SerdeJson where
  Value := String
  valueToString := .ok
  valueFromStr := .ok
  valueToVec text := .ok (text.toList.map fun c => c.toNat.toUInt8)
  recordFromStr text := match records.find? fun r => recordJson r = text with
    | some r => .ok r
    | none => .error "expected value at line 1 column 1"
  recordToString r := .ok (recordJson r)
  stringsFromStr text := match (records.map (·.values)).find? fun vs => stringsJson vs = text with
    | some vs => .ok vs
    | none => .error "expected value at line 1 column 1"
  stringsToString vs := .ok (stringsJson vs)
  recordTypeFromStr text := match recordTypes.find? fun rt => s!"\"{rt.serdeName}\"" = text with
    | some rt => .ok rt
    | none => .error "unknown variant"
  credentialsFromSlice data :=
    if data = credentialsBytes then
      .ok ⟨[("access_key_id", "AKIA"), ("secret_access_key", "s3")]⟩
    else .error "expected value at line 1 column 1"

/-- The Unicode tables on ASCII. -/
scoped instance unicodeData : UnicodeData where
  toLower c := [c.toLower]
  cased := Char.isAlpha
  caseIgnorable c := c.toNat ∈ [0x27, 0x2E, 0x3A, 0x5E, 0x60]
  toLower_ascii _ _ := rfl

/-- The hash inputs of `A` records with the address `192.0.2.1`, and their digests. -/
def digests : List (String × List UInt8) :=
  [("blog|A|300|9:192.0.2.1|",
    [180, 246, 78, 156, 249, 23, 231, 59, 32, 70, 39, 148, 196, 0, 96, 143, 143, 155, 54, 127, 197,
     28, 224, 133, 153, 223, 62, 109, 29, 123, 238, 193]),
   ("blog|A|4294967296|9:192.0.2.1|",
    [14, 85, 239, 61, 138, 229, 119, 36, 92, 88, 223, 46, 161, 151, 203, 84, 54, 175, 159, 180, 44,
     188, 31, 177, 41, 180, 221, 205, 81, 226, 128, 167]),
   ("WWW|A|300|9:192.0.2.1|",
    [111, 135, 113, 18, 54, 227, 60, 201, 198, 188, 240, 149, 230, 127, 113, 158, 43, 247, 108, 254, 187,
     31, 14, 62, 112, 133, 247, 109, 207, 86, 226, 31])]

scoped instance sha256 : Sha256 where
  digest data := ((digests.find? fun d => asBytes d.1 = data).map (·.2)).getD []

/-- The one instant the clock shows. -/
def noon : Int := 1705322096000000000

scoped instance chrono : Chrono where
  toRfc3339 t := if t = noon then "2024-01-15T12:34:56+00:00" else ""
  parseFromRfc3339 text := if text = "2024-01-15T12:34:56+00:00" then some noon else none

/-- Some instants and their texts. -/
def instants : List (Int × String) :=
  [(1705318496000000000, "2024-01-15T11:34:56+00:00"),
   (1705322090000000000, "2024-01-15T12:34:50+00:00"),
   (noon, "2024-01-15T12:34:56+00:00"),
   (1705322097000000000, "2024-01-15T12:34:57+00:00"),
   (1705322098000000000, "2024-01-15T12:34:58+00:00")]

/-- chrono on these instants. -/
@[reducible] def clock : Chrono where
  toRfc3339 t := ((instants.find? fun p => p.1 = t).map (·.2)).getD ""
  parseFromRfc3339 text := (instants.find? fun p => p.2 = text).map (·.1)

def worker : ReconcileWorker := { adapters := ["route53"], keyProvider := ⟨.ok kek⟩ }

/-- A binding of zone `z1`. -/
def binding (id providerZoneId : String) : ProviderBinding :=
  { id, zoneId := "z1", providerType := "route53", providerZoneId, credentialsBlob,
    credentialsDek, status := .active, createdAt := "2024-01-15T12:00:00+00:00",
    updatedAt := "2024-01-15T12:00:00+00:00" }

/-- A desired record of zone `z1`. -/
def desired (id name : String) : DesiredRecord :=
  { id, zoneId := "z1", name, recordType := "A", recordValues := "[\"192.0.2.1\"]", ttl := 300,
    desiredHash := "", deletedAt := none, createdAt := "2024-01-15T12:00:00+00:00",
    updatedAt := "2024-01-15T12:00:00+00:00" }

/-- Zone `z1`. -/
def zone : Zone :=
  { id := "z1", name := "example.com", defaultTtl := 300, ownerTeamId := none,
    createdAt := "2024-01-15T12:00:00+00:00", updatedAt := "2024-01-15T12:00:00+00:00" }

/-- Zone `z1` with the desired records `r1` (`www`) and `r2` (`api`), and some bindings. -/
def database (bindings : List ProviderBinding) (hid : (bindings.map (·.id)).Nodup)
    (hzone : ∀ b ∈ bindings, b.zoneId ∈ ["z1"]) : Database where
  zones := ⟨[zone], by decide⟩
  bindings := ⟨bindings, hid⟩
  desiredRecords := ⟨[desired "r1" "www", desired "r2" "api"], by decide⟩
  changesets := Table.empty
  changesetItems := Table.empty
  syncStates := Table.empty
  zoneNameUnique := by decide
  bindingZone := hzone
  recordZone := by decide
  recordTypeCheck := by decide
  recordUnique := by decide
  policyCheck := by simp [Table.empty]
  itemChangeset := by simp [Table.empty]
  itemRecord := by simp [Table.empty]
  operationCheck := by simp [Table.empty]
  syncRecord := by simp [Table.empty]
  syncBinding := by simp [Table.empty]

/-- The zone with two bindings. -/
def twoBindings : Database :=
  database [binding "b1" "Z1", binding "b2" "Z2"] (by decide) (by decide)

/-- A world in which nothing fails but the calls say so. -/
def env (calls : Nat → CallOutcome) : Env where
  queries _ := none
  writes _ := none
  calls
  instants _ := 0
  now _ := "2024-01-15T12:34:56+00:00"

/-- A world in which no statement fails and every listing shows the given records. -/
def syncEnv (listing : List ProviderRecord) : SyncEnv where
  queries _ := none
  writes _ := none
  listings _ _ _ := .ok listing
  now _ := noon

theorem syncEnv_reliable (listing : List ProviderRecord) : (syncEnv listing).Reliable :=
  ⟨fun _ => rfl, fun _ => rfl⟩

/-- A world in which no statement fails and every listing is refused. -/
def refusing : SyncEnv where
  queries _ := none
  writes _ := none
  listings _ _ _ := .error .rateLimitExceeded
  now _ := noon

/-- A world in which the first binding is refused, and the others show `www`. -/
def halfRefused : SyncEnv :=
  { syncEnv [] with
    listings := fun _ b _ =>
      if b.id = "b1" then .error .rateLimitExceeded else .ok [www "192.0.2.1"] }

/-- The row of a listing that was refused. -/
def failedRow (recordId bindingId : String) : SyncState :=
  (Observation.mk none .syncFailed (some "list_records failed: rate limit exceeded")).row recordId
    bindingId "2024-01-15T12:34:50+00:00"

/-- The order in which the keys were inserted. -/
def insertionOrder : HashOrder := ⟨id, fun keys => List.Perm.refl keys⟩

/-- The name of a record type in Route53. -/
def typeText : Route53.RrType → String
  | .a => "A"
  | .aaaa => "AAAA"
  | .cname => "CNAME"
  | .mx => "MX"
  | .txt => "TXT"
  | .ns => "NS"
  | .srv => "SRV"
  | .caa => "CAA"
  | .other name => name

/-- The labels of a name from the right, and the name of the type. -/
def sortKey (k : Route53.SetKey) : List (List Char) ×ₗ List Char :=
  toLex ((k.1.toList.splitOn '.').reverse, (typeText k.2).toList)

/-- Route53 orders by the labels from the right, then by type. -/
scoped instance route53Order : Route53.Route53Order where
  le a b := decide (sortKey a ≤ sortKey b)
  le_total a b := by simpa using le_total (sortKey a) (sortKey b)
  le_trans a b c := by simpa using le_trans

/-- The hosted zone of `binding id "Z1"`, with its own name servers. -/
def hostedZone : Route53.HostedZone where
  id := "Z1"
  name := "example.com."
  sets := [⟨"example.com.", .ns, none, some 172800, none, ["ns-1.awsdns-01.org."]⟩]

/-- A service that answers every request, in pages of 100. -/
def route53Env : Route53.Route53Env where
  failures _ := none
  noSuchHostedZone _ := ⟨.serviceError "NoSuchHostedZone", "service error"⟩
  invalidChange _ := ⟨.serviceError "InvalidChangeBatch", "service error"⟩
  pageSize _ := 99

/-- The decrypted credentials of the bindings. -/
def credentials : Credentials := ⟨[("access_key_id", "AKIA"), ("secret_access_key", "s3")]⟩

/-- An SDK that builds a client from every configuration. -/
scoped instance awsSdk : Route53.AwsSdk where
  fromConf config := ⟨config.accessKeyId, config.secretAccessKey, config.sessionToken⟩

/-- The client built from them. -/
def client : Route53.Client := ⟨"AKIA", "s3", none⟩

theorem buildClient_credentials : Route53.buildClient credentials = .ok client := by decide

/-- The hosted zone with the given record sets. -/
def hosted (sets : List Route53.ResourceRecordSet) : Route53.HostedZone := { hostedZone with sets }

/-- An `A` record set `www`, with an identifier when there are several. -/
def wwwSet (setIdentifier : Option String) (address : String) : Route53.ResourceRecordSet :=
  ⟨"www.example.com.", .a, setIdentifier, some 60, none, [address]⟩

/-- An item of a request. -/
def item (recordId operation : String) (before after : Option ProviderRecord) :
    CreateChangesetItemRequest :=
  ⟨recordId, operation, before.map recordJson, after.map recordJson⟩

/-- A request under the policy `auto`. -/
def request (items : List CreateChangesetItemRequest) : CreateChangesetRequest where
  description := none
  rollbackPolicy := defaultRollbackPolicy
  items

/-- The value of a result that is `Ok`. -/
def get {ε α : Type} : (x : Except ε α) → x.isOk = true → α
  | .ok a, _ => a

theorem eq_ok_get {ε α : Type} : (x : Except ε α) → (h : x.isOk = true) → x = .ok (get x h)
  | .ok _, _ => rfl

/-- The zone with two bindings, after the change set `c1` was created. -/
def created (items : List CreateChangesetItemRequest)
    (h : (createChangeset twoBindings "c1" "2024-01-15T12:30:00+00:00" (request items)).isOk = true) :
    Database :=
  get _ h

/-- The zone with two bindings, after the change set `c1` was created that creates `www`. -/
def createdWww : Database :=
  created [item "r1" "create" none (some (www "192.0.2.1"))] (by decide +kernel)

/-- The worker can use the bindings of the sample. -/
theorem usable (id providerZoneId : String) : worker.Usable (binding id providerZoneId) := by
  have h : worker.Usable (binding "" "") := by decide
  exact h

end Sample

end DnsManager
