import DnsManager.ForStd.Str

/-!
# The log line of the database (`api/src/main.rs`)

`main` logs the database URL, through `redactDatabaseUrl`, before it connects.
-/

namespace DnsManager

open RustStr

/-- `redact_database_url` -/
def redactDatabaseUrl (url : String) : String :=
  match findText url "://" with
  | none => url
  | some (scheme, afterScheme) =>
    match splitOnce afterScheme '@' with
    | none => url
    | some (_, hostAndRest) =>
      let host := beforeFirst hostAndRest '/'
      s!"{scheme}://{host}"

end DnsManager
