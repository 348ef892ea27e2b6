import DnsManager.Api.Providers
import DnsManager.Api.Zones

/-!
# Responses of the API (`api/src/error.rs`, `api/src/routes/`)

A response is its status and its body; a body is the value that is written as JSON. The
columns of a response are those the handler copies from its row type, so the response of a
binding has no credentials.
-/

namespace DnsManager

/-- The values of `StatusCode` the handlers answer with. -/
inductive StatusCode where
  | ok | created | badRequest | notFound | conflict | unprocessableEntity
  | internalServerError | notImplemented
deriving DecidableEq, Repr

namespace StatusCode

/-- `StatusCode::as_u16` -/
def toNat : StatusCode → Nat
  | ok => 200
  | created => 201
  | badRequest => 400
  | notFound => 404
  | conflict => 409
  | unprocessableEntity => 422
  | internalServerError => 500
  | notImplemented => 501

/-- `StatusCode::is_client_error` -/
def isClientError (status : StatusCode) : Bool := 400 ≤ status.toNat && status.toNat < 500

end StatusCode

/-- `ProviderBinding`, the response, and `ProviderBindingRow`: the columns of a binding less its
    credentials. -/
structure ProviderBindingView where
  id : String
  zoneId : String
  providerType : String
  providerZoneId : String
  status : BindingStatus
  createdAt : String
  updatedAt : String
deriving DecidableEq, Repr

/-- The columns `ProviderBindingRow` has of a row. -/
def ProviderBindingView.ofRow (b : ProviderBinding) : ProviderBindingView where
  id := b.id
  zoneId := b.zoneId
  providerType := b.providerType
  providerZoneId := b.providerZoneId
  status := b.status
  createdAt := b.createdAt
  updatedAt := b.updatedAt

section Body

variable [SerdeJson]

/-- What is written to the body. -/
inductive ResponseBody where
  | empty
  | error (message : String)
  | health (status : String)
  | zones (zones : List Zone)
  | zone (zone : Zone)
  | records (records : List RecordView)
  | record (record : RecordView)
  | binding (binding : ProviderBindingView)
  | syncStates (syncStates : List SyncState)
  | changeset (changeset : ChangesetView)

/-- `Response` -/
structure Response where
  status : StatusCode
  body : ResponseBody

/-- `IntoResponse for ApiError` -/
def ApiError.intoResponse : ApiError → Response
  | .notFound => ⟨.notFound, .error "not found"⟩
  | .conflict => ⟨.conflict, .error "conflict: resource already exists"⟩
  | .badRequest msg => ⟨.badRequest, .error msg⟩
  | .unprocessableEntity msg => ⟨.unprocessableEntity, .error msg⟩
  -- the text of an internal error is logged and not answered
  | .internal _ => ⟨.internalServerError, .error "internal server error"⟩

end Body

end DnsManager
