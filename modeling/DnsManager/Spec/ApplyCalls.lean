import DnsManager.ForStd.Started
import DnsManager.Spec.Lifecycle
import DnsManager.Worker.Run

/-!
# The calls of `apply_items`

`processApplyBatchCalls` is the apply loop with `apply_items` as a procedure, so that the calls a
worker has made can be read off the commands it has issued. A call for a change set follows a query
for its items, and every write to a provider comes after a call.

## Key results
- `inline_runApplyLoopCalls`: the program with calls is the loop.
- `Calling.countP_le`: a worker makes no more calls for a change set than it queries its items.
- `Calling.ne_nil`: before a worker writes to a provider it has made a call.
-/

namespace DnsManager

open Prog (CallReply Obeys Only Path afterCall credit inline invoke lift liftExcept turn)

/-- A call of `apply_items`: its arguments. -/
structure ApplyCall where
  changesetId : String
  items : List ChangesetItem
deriving DecidableEq, Repr

/-- A program of the worker that calls `apply_items`. -/
abbrev ApplyM := Prog (Cmd ⊕ ApplyCall)
  (CallReply Cmd.Reply (List AppliedItemCtx × String) (List AppliedItemCtx)) String

namespace ReconcileWorker

variable [CryptoLib] [SerdeJson] (worker : ReconcileWorker)

/-- The body of `apply_items`. -/
def applyItemsBody (call : ApplyCall) :
    Prog Cmd Cmd.Reply (List AppliedItemCtx × String) (List AppliedItemCtx) :=
  worker.applyItems call.items []

/-- `apply_single_changeset`, with `apply_items` called. -/
def applySingleChangesetCalls (changesetId rollbackPolicy : String) : ApplyM Unit := do
  let start ← lift (issue .instant)
  lift (updateChangesetStatus changesetId .validated .applying)
  let items ← liftExcept (← lift (issue (.selectItems changesetId)))
  match ← invoke ⟨changesetId, items⟩ with
  | .ok _ => lift (updateChangesetStatus changesetId .applying .applied)
  | .error (applied, _) => lift (worker.applyFailed changesetId rollbackPolicy start applied)

/-- `process_apply_batch`, with `apply_items` called. -/
def processApplyBatchCalls : ApplyM Unit := do
  let rows ← liftExcept (← lift (issue .selectValidated))
  forM rows fun row => turn (worker.applySingleChangesetCalls row.id row.rollbackPolicy)

/-- `run_apply_loop`, with `apply_items` called. -/
def runApplyLoopCalls (ticks : Nat) : ApplyM Unit :=
  forM (List.range ticks) fun _ => worker.processApplyBatchCalls.turn

/-- The calls of `apply_items` a worker has come to, when its commands were answered as in the
    events. -/
def applyCalls (p : ApplyM Unit) (events : List (Sigma Cmd.Reply)) : List ApplyCall :=
  p.started worker.applyItemsBody events

end ReconcileWorker

section Worker

variable [CryptoLib] [SerdeJson] (worker : ReconcileWorker)

/-! ## The program without calls -/

theorem inline_applySingleChangesetCalls (changesetId rollbackPolicy : String) :
    (worker.applySingleChangesetCalls changesetId rollbackPolicy).inline worker.applyItemsBody =
      worker.applySingleChangeset changesetId rollbackPolicy := by
  unfold ReconcileWorker.applySingleChangesetCalls ReconcileWorker.applySingleChangeset
  simp only [Prog.inline_bind, Prog.inline_lift, Prog.inline_liftExcept, Prog.inline_invoke]
  refine bind_congr fun start => bind_congr fun _ => bind_congr fun reply =>
    bind_congr fun items => bind_congr fun outcome => ?_
  cases outcome <;> exact Prog.inline_lift _

/-- The calls are the executions of `apply_items`, the rest is the same program. -/
theorem inline_processApplyBatchCalls :
    worker.processApplyBatchCalls.inline worker.applyItemsBody = worker.processApplyBatch := by
  unfold ReconcileWorker.processApplyBatchCalls ReconcileWorker.processApplyBatch
  simp only [Prog.inline_bind, Prog.inline_lift, Prog.inline_liftExcept, Prog.inline_forM,
    Prog.inline_turn, inline_applySingleChangesetCalls]
  rfl

theorem inline_runApplyLoopCalls (ticks : Nat) :
    (worker.runApplyLoopCalls ticks).inline worker.applyItemsBody = worker.runApplyLoop ticks := by
  unfold ReconcileWorker.runApplyLoopCalls ReconcileWorker.runApplyLoop
  rw [Prog.inline_forM]
  simp only [Prog.inline_turn, inline_processApplyBatchCalls]

/-! ## Each call follows a query -/

/-- The command queries the items of the change set. -/
def Cmd.queries (id : String) (c : Cmd) : Bool := c = .selectItems id

/-- A program of the apply loop pays for its calls for a change set with queries for its items. -/
def Pays (id : String) {α : Type} (p : ApplyM α) : Prop :=
  ∀ n, Obeys (credit (Cmd.queries id) fun call => call.changesetId = id) p n fun _ _ => True

omit [CryptoLib] [SerdeJson] in
/-- A program that calls nothing needs no credit, whatever it leads to. -/
private theorem Pays.lift_bind {id : String} {α β : Type} (p : WorkerM α) {f : α → ApplyM β}
    (hf : ∀ a, Pays id (f a)) : Pays id (lift p >>= f) := by
  induction p with
  | ret a => exact hf a
  | throw e => exact fun _ => trivial
  | call c k ih => exact fun _ => ⟨trivial, fun r => ih r _⟩

omit [CryptoLib] [SerdeJson] in
private theorem Pays.lift {id : String} (p : WorkerM Unit) : Pays id (lift p) := by
  induction p with
  | ret a => exact fun _ => trivial
  | throw e => exact fun _ => trivial
  | call c k ih => exact fun _ => ⟨trivial, fun r => ih r _⟩

omit [CryptoLib] [SerdeJson] in
private theorem Pays.turns {id : String} {α : Type} {f : α → ApplyM Unit} (hf : ∀ x, Pays id (f x))
    (xs : List α) : Pays id (forM xs fun x => turn (f x)) := fun _ =>
  (Obeys.forM (fun _ => True) trivial fun x _ m _ => .bind (.attempt (hf x m))).mono
    fun _ _ _ => trivial

private theorem pays_applySingleChangesetCalls (id changesetId rollbackPolicy : String) :
    Pays id (worker.applySingleChangesetCalls changesetId rollbackPolicy) := by
  refine .lift_bind _ fun start => .lift_bind _ fun _ => fun n => ?_
  -- the query pays for the call, if it is the one for this change set
  refine Obeys.lift_perform_bind trivial fun reply => ?_
  refine Obeys.liftExcept_bind (fun items _ => ?_) fun _ _ => trivial
  refine Obeys.invoke_bind (fun hcosts => ?_) fun outcome => ?_
  · have hid : changesetId = id := of_decide_eq_true hcosts
    have hquery : Cmd.queries id (.selectItems changesetId) = true := by simp [Cmd.queries, hid]
    change 0 < if Cmd.queries id (.selectItems changesetId) then n + 1 else n
    rw [if_pos hquery]
    exact Nat.succ_pos n
  · cases outcome with
    | ok _ => exact Pays.lift _ _
    | error _ => exact Pays.lift _ _

private theorem pays_processApplyBatchCalls (id : String) :
    Pays id worker.processApplyBatchCalls := by
  have hturns : ∀ rows : List Changeset, Pays id
      (forM rows fun row => turn (worker.applySingleChangesetCalls row.id row.rollbackPolicy)) :=
    .turns fun row => pays_applySingleChangesetCalls worker id row.id row.rollbackPolicy
  refine .lift_bind _ fun reply => fun n => ?_
  exact Obeys.liftExcept_bind (fun rows _ => hturns rows n) fun _ _ => trivial

/-! ## Each write follows a call -/

/-- A program of the apply loop that has made a call may write, and one that has not may not. -/
def Waits {α : Type} (p : ApplyM α) : Prop :=
  ∀ called, Obeys (afterCall Cmd.isProviderWrite) p called fun _ _ => True

omit [CryptoLib] [SerdeJson] in
private theorem Waits.lift_bind {α β : Type} {p : WorkerM α}
    (hp : Only (fun c => c.isProviderWrite = false) p) {f : α → ApplyM β} (hf : ∀ a, Waits (f a)) :
    Waits (lift p >>= f) := by
  induction p with
  | ret a => exact hf a
  | throw e => exact fun _ => trivial
  | call c k ih =>
    refine fun _ => ⟨fun hwrite => ?_, fun r => ih r (hp.2 r) _⟩
    rw [hp.1] at hwrite
    cases hwrite

omit [CryptoLib] [SerdeJson] in
private theorem Waits.turns {α : Type} {f : α → ApplyM Unit} (hf : ∀ x, Waits (f x))
    (xs : List α) : Waits (forM xs fun x => turn (f x)) := fun _ =>
  (Obeys.forM (fun _ => True) trivial fun x _ σ _ => .bind (.attempt (hf x σ))).mono
    fun _ _ _ => trivial

omit [CryptoLib] [SerdeJson] in
/-- After a call everything is allowed. -/
private theorem obeys_afterCall_lift (p : WorkerM Unit) :
    Obeys (afterCall Cmd.isProviderWrite)
      (lift p : ApplyM Unit) true fun _ _ => True := by
  induction p with
  | ret a => trivial
  | throw e => trivial
  | call c k ih => exact ⟨fun _ => rfl, ih⟩

omit [CryptoLib] [SerdeJson] in
private theorem only_issue {c : Cmd} (hc : c.isProviderWrite = false) :
    Only (fun c => c.isProviderWrite = false) (issue c : WorkerM c.Reply) := ⟨hc, fun _ => trivial⟩

private theorem waits_applySingleChangesetCalls (changesetId rollbackPolicy : String) :
    Waits (worker.applySingleChangesetCalls changesetId rollbackPolicy) := by
  have hclaim : Only (fun c => c.isProviderWrite = false)
      (updateChangesetStatus changesetId .validated .applying) := by
    refine .perform_bind rfl fun reply => .liftExcept_bind fun affected => ?_
    split
    · exact .throw _
    · exact .pure _
  refine .lift_bind (only_issue rfl) fun start => .lift_bind hclaim fun _ => ?_
  refine .lift_bind (only_issue rfl) fun reply => fun called => ?_
  refine Obeys.liftExcept_bind (fun items _ => ?_) fun _ _ => trivial
  refine Obeys.invoke_bind trivial fun outcome => ?_
  cases outcome with
  | ok _ => exact obeys_afterCall_lift _
  | error _ => exact obeys_afterCall_lift _

private theorem waits_processApplyBatchCalls : Waits worker.processApplyBatchCalls := by
  have hturns : ∀ rows : List Changeset, Waits
      (forM rows fun row => turn (worker.applySingleChangesetCalls row.id row.rollbackPolicy)) :=
    .turns fun row => waits_applySingleChangesetCalls worker row.id row.rollbackPolicy
  refine .lift_bind (only_issue rfl) fun reply => fun called => ?_
  exact Obeys.liftExcept_bind (fun rows _ => hturns rows called) fun _ _ => trivial

/-! ## The loops -/

/-- A program with calls, of which each for a change set follows a query for its items of its own,
    and which writes to providers after its first call only. -/
structure Calling {α : Type} (p : ApplyM α) : Prop where
  pays : ∀ id, Pays id p
  waits : Waits p

namespace Calling

variable {worker} {p : ApplyM Unit}

/-- It makes no more calls for a change set than it queries its items. -/
theorem countP_le (hp : Calling p) (id : String) (events : List (Sigma Cmd.Reply)) :
    (worker.applyCalls p events).countP (·.changesetId = id) ≤
      events.countP (·.1.queries id) := by
  have hle : (worker.applyCalls p events).countP (·.changesetId = id) ≤
      0 + events.countP (·.1.queries id) := (hp.pays id 0).countP_started_le events
  rwa [Nat.zero_add] at hle

/-- Before it writes to a provider it has made a call. -/
theorem ne_nil (hp : Calling p) {pre post : List (Sigma Cmd.Reply)} {e : Sigma Cmd.Reply}
    {q : WorkerM Unit} (hpath : Path (p.inline worker.applyItemsBody) (pre ++ e :: post) q)
    (hwrite : e.1.isProviderWrite = true) : worker.applyCalls p pre ≠ [] :=
  (hp.waits false).started_ne_nil hpath hwrite

end Calling

theorem calling_processApplyBatchCalls : Calling worker.processApplyBatchCalls :=
  ⟨pays_processApplyBatchCalls worker, waits_processApplyBatchCalls worker⟩

theorem calling_runApplyLoopCalls (ticks : Nat) : Calling (worker.runApplyLoopCalls ticks) :=
  ⟨fun id => .turns (f := fun _ => worker.processApplyBatchCalls)
    (fun _ => pays_processApplyBatchCalls worker id) _,
   .turns (f := fun _ => worker.processApplyBatchCalls)
    (fun _ => waits_processApplyBatchCalls worker) _⟩

/-- With more commands come more calls. -/
theorem applyCalls_prefix (p : ApplyM Unit) (events events' : List (Sigma Cmd.Reply)) :
    worker.applyCalls p events <+: worker.applyCalls p (events ++ events') :=
  Prog.started_prefix events events'

end Worker

end DnsManager
