import DnsManager.Api.Changesets
import DnsManager.Core.Crypto

/-!
# Provider handlers (`api/src/routes/providers.rs`)

`createProvider` checks a request, encrypts the credentials and inserts a binding. The
random id, the time, and the random bytes of the encryption are arguments, and the
response, which reads the new row back, is left out.
-/

namespace DnsManager

section Create

variable [CryptoLib] [SerdeJson]

/-- `CreateProviderRequest` -/
structure CreateProviderRequest where
  zoneId : String
  providerType : String
  providerZoneId : String
  credentials : SerdeJson.Value

/-- What a request draws: the id, the time, the data key and the two nonces. -/
structure ProviderDraws where
  id : String
  now : String
  dek : CryptoKey
  blobNonce : List UInt8
  dekNonce : List UInt8
deriving DecidableEq

/-- `format!("{:?}", sorted)` of the registered names, which need no escapes. -/
def debugNames (names : List String) : String :=
  "[" ++ ", ".intercalate ((names.insertionSort (· ≤ ·)).map fun name => "\"" ++ name ++ "\"") ++ "]"

/-- The checks `create_provider` makes before it looks at the database. -/
def validateProviderRequest (registeredProviders : List String) (body : CreateProviderRequest) :
    Except ApiError Unit :=
  if (RustStr.trim body.providerType).isEmpty then
    .error (.unprocessableEntity "provider_type must not be empty")
  else if body.providerType ∉ registeredProviders then
    .error (.badRequest (s!"unknown provider_type '{body.providerType}': must be one of " ++
      debugNames registeredProviders))
  else if (RustStr.trim body.providerZoneId).isEmpty then
    .error (.unprocessableEntity "provider_zone_id must not be empty")
  else .ok ()

/-- `From<CryptoError> for ApiError` -/
def cryptoErr {α : Type} (x : Except CryptoError α) : Except ApiError α :=
  x.mapError fun e => .internal e.display

/-- The row `create_provider` inserts. -/
def bindingRow (keyProvider : KeyProvider) (draws : ProviderDraws) (body : CreateProviderRequest) :
    Except ApiError ProviderBinding := do
  let credsBytes ← (SerdeJson.valueToVec body.credentials).mapError
    fun e => .internal s!"credentials serialization failed: {e}"
  let encrypted ← cryptoErr
    (encrypt keyProvider draws.dek draws.blobNonce draws.dekNonce credsBytes)
  return { id := draws.id, zoneId := body.zoneId, providerType := body.providerType,
           providerZoneId := body.providerZoneId, credentialsBlob := encrypted.blob,
           credentialsDek := encrypted.dek, status := .active, createdAt := draws.now,
           updatedAt := draws.now }

/-- `create_provider` -/
def createProvider (registeredProviders : List String) (keyProvider : KeyProvider) (db : Database)
    (draws : ProviderDraws) (body : CreateProviderRequest) : Except ApiError Database := do
  validateProviderRequest registeredProviders body
  if (db.zones.find? body.zoneId).isNone then .error .notFound
  let row ← bindingRow keyProvider draws body
  dbErr (db.insertBinding row)

end Create

end DnsManager
