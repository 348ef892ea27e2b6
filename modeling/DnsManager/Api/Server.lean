import DnsManager.Api.Handlers
import DnsManager.Worker.Run

/-!
# The process (`api/src/main.rs`)

A request, as the router and the extractors hand it to its handler, is served by a thread that
ends with the response. `process` has the threads of the requests and of the loops of the worker
on one state. A worker that has crashed is one that is not scheduled any more; the process that
is started after it is another run of the worker.

The router, the layers and `main` itself are left out.
-/

namespace DnsManager

/-- The handlers that are not implemented. -/
inductive Stub where
  | getZone | updateZone | deleteZone | updateRecord | deleteRecord
  | listChangesets | applyChangeset | rollbackChangeset
  | listProviders | getProvider | updateProvider | deleteProvider
deriving DecidableEq, Repr

variable [SerdeJson]

/-- A request, with what its handler draws. -/
inductive Request where
  | getHealth
  | listZones
  | createZone (draws : Draws) (body : CreateZoneRequest)
  | listRecords (zoneId : String)
  | createRecord (draws : Draws) (zoneId : String) (body : CreateRecordRequest)
  | createProvider (draws : ProviderDraws) (body : CreateProviderRequest)
  | getSyncState (providerId : String)
  | createChangeset (draws : Draws) (body : CreateChangesetRequest)
  | getChangeset (changesetId : String)
  | validateChangeset (changesetId : String)
  | unimplemented (handler : Stub)

/-- The response a handler makes of its value. -/
def respondWith {α : Type} (status : StatusCode) (body : α → ResponseBody) (p : HandlerM α) :
    HandlerM Response := do
  return ⟨status, body (← p)⟩

variable [CryptoLib] [Sha256]

/-- The handler of a request. -/
def Request.handler (state : AppState) : Request → HandlerM Response
  | getHealth => pure ⟨.ok, .health "ok"⟩
  | listZones => respondWith .ok .zones Handler.listZones
  | createZone draws body => respondWith .created .zone (Handler.createZone draws body)
  | listRecords zoneId => respondWith .ok .records (Handler.listRecords zoneId)
  | createRecord draws zoneId body =>
    respondWith .created .record (Handler.createRecord draws zoneId body)
  | createProvider draws body =>
    respondWith .created .binding (Handler.createProvider state draws body)
  | getSyncState providerId => respondWith .ok .syncStates (Handler.getSyncState providerId)
  | createChangeset draws body =>
    respondWith .created .changeset (Handler.createChangeset draws body)
  | getChangeset changesetId => respondWith .ok .changeset (Handler.getChangeset changesetId)
  | validateChangeset changesetId =>
    respondWith .ok .changeset (Handler.validateChangeset changesetId)
  | unimplemented _ => pure ⟨.notImplemented, .empty⟩

/-- `Result<impl IntoResponse, ApiError>` as a response. -/
def intoResponse : Except ApiError Response → Response
  | .ok response => response
  | .error e => e.intoResponse

/-- The thread that serves a request. -/
def serve (state : AppState) (request : Request) : Prog.Thread SystemCmd SystemCmd.Reply := do
  let result ← ((request.handler state).attempt : Prog _ _ Empty (Except ApiError Response))
  (ApiCmd.respond (intoResponse result)).issue

variable [UnicodeData] [Chrono]

/-- `ReconcileWorker::run`: the threads of its three loops. -/
def WorkerRun.threads (run : WorkerRun) : List (Prog.Thread SystemCmd SystemCmd.Reply) :=
  [((run.worker.runApplyLoop run.applyTicks).embed applyCommands).detach,
   ((run.worker.runObserveLoop run.observeTicks).embed syncCommands).detach,
   ((run.worker.runRetryLoop run.retryOrders).embed syncCommands).detach]

/-- The process from a state, with the requests it is sent and the runs of its worker. -/
def process (state : AppState) (requests : List Request) (runs : List WorkerRun)
    (s : SystemState) : Prog.Pool SystemCmd SystemCmd.Reply SystemState where
  state := s
  threads := requests.map (serve state) ++ runs.flatMap (·.threads)

end DnsManager
