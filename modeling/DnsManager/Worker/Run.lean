import DnsManager.Worker.Retry

/-!
# The loops of the worker (`worker/src/lib.rs`)

`run` starts three loops, each of which processes a batch at every tick and only logs an error
of it. The loops have no end in the source: here they take the number of ticks they come to.
-/

namespace DnsManager

namespace ReconcileWorker

variable [CryptoLib] [SerdeJson] (worker : ReconcileWorker)

/-- `run_apply_loop` -/
def runApplyLoop (ticks : Nat) : WorkerM Unit :=
  forM (List.range ticks) fun _ => worker.processApplyBatch.turn

variable [UnicodeData] [Chrono]

/-- `run_observe_loop` -/
def runObserveLoop (ticks : Nat) : SyncM Unit :=
  forM (List.range ticks) fun _ => worker.processObserveBatch.turn

/-- `run_retry_loop`, with the order of the groups at every tick. -/
def runRetryLoop (orders : List HashOrder) : SyncM Unit :=
  forM orders fun hash => (worker.processRetryBatch hash).turn

end ReconcileWorker

/-- A run of the worker, up to its end or a crash. -/
structure WorkerRun where
  worker : ReconcileWorker
  applyTicks : Nat
  observeTicks : Nat
  retryOrders : List HashOrder

end DnsManager
