/-!
# Errors of the API (`api/src/error.rs`)
-/

namespace DnsManager

/-- `ApiError` -/
inductive ApiError where
  | notFound
  | conflict
  | badRequest (msg : String)
  | unprocessableEntity (msg : String)
  | internal (msg : String)
deriving DecidableEq, Repr

end DnsManager
