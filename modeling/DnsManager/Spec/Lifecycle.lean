import DnsManager.Api.Changesets
import DnsManager.ForStd.Monitor
import DnsManager.Spec.BindingLoop

/-!
# What a worker and a request may do to change sets

The automaton `lifecycle` reads the commands of one worker or request and says what it may
do next: the items of a change set are queried once after it was claimed, providers are
written to only after that, and the unguarded `UPDATE` of the API follows the `SELECT` of
its transaction.

## Key results
- `obeys_processApplyBatch`, `obeys_validateChangeset`: the programs keep to it, whatever
  the database, the providers and the clocks answer.
-/

namespace DnsManager

open Prog (Obeys Only)

/-- Where a thread stands. -/
inductive Phase where
  | idle
  /-- It has claimed the change set and not queried its items yet. -/
  | claimed (id : String)
  /-- It has queried the items of the change set. -/
  | applying (id : String)
  /-- It is in a transaction that has read the status of the change set. -/
  | reading (id : String) (status : ChangeSetStatus) (snapshot : Nat)
deriving DecidableEq, Repr

/-- The change set a command has claimed: the transition to `applying` has met its row. -/
def claimOf : (c : Cmd) → c.Reply → Option String
  | .updateStatus id .validated .applying, .ok (_ + 1) => some id
  | _, _ => none

/-- What the `SELECT` of a transaction has read. -/
def readOf : (c : Cmd) → c.Reply → Option (String × ChangeSetStatus × Nat)
  | .txSelect id, .ok (some row, snapshot) => some (id, row.status, snapshot)
  | _, _ => none

/-- The command is a write to a provider zone. -/
def Cmd.isProviderWrite : Cmd → Bool
  | .upsertRecord .. | .deleteRecord .. => true
  | _ => false

/-- The phase after a command that neither claims nor reads a change set. -/
def Phase.afterOther (phase : Phase) : Cmd → Phase
  | .selectItems id => .applying id
  | .txUpdate .. => .idle
  | _ => phase

/-- The phase after a command and its reply. -/
def Phase.next (phase : Phase) (c : Cmd) (r : c.Reply) : Phase :=
  match claimOf c r, readOf c r with
  | some id, _ => .claimed id
  | none, some (id, status, snapshot) => .reading id status snapshot
  | none, none => phase.afterOther c

/-- The commands a thread may issue in a phase. -/
def Phase.Allows (phase : Phase) : Cmd → Prop
  | .updateStatus _ source target => source.canTransitionTo target = true
  | .selectItems id => phase = .claimed id
  | .upsertRecord .. | .deleteRecord .. => ∃ id, phase = .applying id
  | .txUpdate id target snapshot =>
    ∃ status, phase = .reading id status snapshot ∧ status.canTransitionTo target = true
  | _ => True

/-- The automaton of a worker or a request. -/
def lifecycle : Prog.Monitor Cmd Cmd.Reply where
  State := Phase
  init := .idle
  allows := Phase.Allows
  next := Phase.next

/-! ## The programs keep to it -/

/-- The program issues allowed commands only and ends in the phase it started in. -/
def Keeps {ε α : Type} (phase : Phase) (p : Prog Cmd Cmd.Reply ε α) : Prop :=
  Obeys lifecycle p phase fun _ phase' => phase' = phase

/-- A command of the work on a claimed change set: it reads the clock, a zone or bindings,
    writes to a provider, or moves the status on. -/
def Cmd.IsWork : Cmd → Prop
  | .instant | .selectZone _ | .selectActiveBindings _ | .upsertRecord .. | .deleteRecord .. => True
  | .updateStatus _ source target => source ≠ .validated ∧ source.canTransitionTo target = true
  | _ => False

/-- The work is allowed after the items are queried, and changes no phase. -/
theorem Cmd.IsWork.keeps {c : Cmd} (hc : c.IsWork) (id : String) :
    (Phase.applying id).Allows c ∧ ∀ r, (Phase.applying id).next c r = .applying id := by
  cases c with
  | instant => exact ⟨trivial, fun _ => rfl⟩
  | selectZone record => exact ⟨trivial, fun _ => rfl⟩
  | selectActiveBindings zone => exact ⟨trivial, fun _ => rfl⟩
  | upsertRecord b creds record => exact ⟨⟨id, rfl⟩, fun _ => rfl⟩
  | deleteRecord b creds key => exact ⟨⟨id, rfl⟩, fun _ => rfl⟩
  | updateStatus id' source target =>
    obtain ⟨hsource, hcan⟩ := hc
    refine ⟨hcan, fun r => ?_⟩
    -- only the `UPDATE` from `validated` claims a change set
    have hclaim : claimOf (.updateStatus id' source target) r = none := by
      cases source <;> first | rfl | exact (hsource rfl).elim
    unfold Phase.next
    rw [hclaim]
    rfl
  | _ => exact hc.elim

/-- A program that does nothing but such work keeps the phase. -/
theorem keeps_of_work {ε α : Type} {p : Prog Cmd Cmd.Reply ε α} (hp : Only Cmd.IsWork p)
    (id : String) : Keeps (.applying id) p :=
  Only.obeys (m := lifecycle) (hp.mono fun _ hc => hc.keeps id)

theorem only_updateChangesetStatus (id : String) {source target : ChangeSetStatus}
    (hsource : source ≠ .validated) :
    Only Cmd.IsWork (updateChangesetStatus id source target) := by
  unfold updateChangesetStatus
  split
  · exact .throw _
  · next hcan =>
    refine .perform_bind ⟨hsource, Bool.of_not_eq_false hcan⟩ fun r => ?_
    refine .liftExcept_bind fun affected => ?_
    split
    · exact .throw _
    · exact .pure _

/-- A claim that is not an error has claimed the change set. -/
theorem obeys_claim (phase : Phase) (id : String) :
    Obeys lifecycle (updateChangesetStatus id .validated .applying) phase fun
      | .ok _, phase' => phase' = .claimed id
      | .error _, _ => True := by
  refine Obeys.perform_bind rfl fun r => Obeys.liftExcept_bind (fun affected hr => ?_) fun _ _ => trivial
  subst hr
  cases affected with
  | zero => trivial
  | succ n => rfl

theorem only_logged {P : Cmd → Prop} {α : Type} {p : WorkerM α} (hp : Only P p) :
    Only P (logged p) :=
  .bind (.attempt hp) fun _ => .pure _

section Worker

variable [CryptoLib] [SerdeJson] (worker : ReconcileWorker)

/-- A loop body over the bindings writes to providers only. -/
theorem LoopBody.only {b : ProviderBinding} {write : Option (RecordKey × Option ProviderRecord)}
    {otherwise : Except String Unit → Prop} {p : WorkerM Unit}
    (hp : LoopBody worker b write otherwise p) : Only Cmd.IsWork p := by
  cases hp with
  | unusable e hu hp =>
    rw [hp]
    exact .throw _
  | nothing x hu hw hx hp =>
    rw [hp]
    exact .liftExcept _
  | @call key value creds text hu hw hkey hp =>
    rw [hp]
    cases value with
    | none => exact .perform_bind trivial fun _ => .liftExcept _
    | some record => exact .perform_bind trivial fun _ => .liftExcept _

theorem only_applyOneItem (item : ChangesetItem) : Only Cmd.IsWork (worker.applyOneItem item) := by
  unfold ReconcileWorker.applyOneItem
  refine .perform_bind trivial fun _ => .liftExcept_bind fun row => ?_
  refine .liftExcept_bind fun zoneId => .liftExcept_bind fun after => ?_
  refine .liftExcept_bind fun before => ?_
  refine .perform_bind trivial fun _ => .liftExcept_bind fun bindings => ?_
  split
  · exact .throw _
  · refine .bind (.forM fun b _ => ?_) fun _ => .pure _
    exact (loopBody_applyToBinding worker ⟨zoneId, item.operation, before, after⟩ b).only worker

theorem only_applyItems (items : List ChangesetItem) (applied : List AppliedItemCtx) :
    Only Cmd.IsWork (worker.applyItems items applied) := by
  induction items generalizing applied with
  | nil => exact .pure _
  | cons item items ih =>
    refine .bind (.attempt (only_applyOneItem worker item)) fun x => ?_
    cases x with
    | ok ctx => exact ih _
    | error e => exact .throw _

theorem only_rollbackItems (applied : List AppliedItemCtx) :
    Only Cmd.IsWork (worker.rollbackItems applied) := by
  refine .forM fun ctx _ => ?_
  refine .perform_bind trivial fun _ => .liftExcept_bind fun bindings => ?_
  exact .forM fun b _ => (loopBody_rollbackOnBinding worker ctx b).only worker

theorem only_applyFailed (id rollbackPolicy : String) (start : Nat)
    (applied : List AppliedItemCtx) :
    Only Cmd.IsWork (worker.applyFailed id rollbackPolicy start applied) := by
  unfold ReconcileWorker.applyFailed
  refine .perform_bind trivial fun now => ?_
  dsimp only
  split
  · exact only_logged (only_updateChangesetStatus id nofun)
  · refine .bind (.attempt (only_updateChangesetStatus id nofun)) fun x => ?_
    cases x with
    | error e => exact .pure _
    | ok _ =>
      refine .bind (.attempt (only_rollbackItems worker applied)) fun x => ?_
      cases x with
      | ok _ => exact only_logged (only_updateChangesetStatus id nofun)
      | error e => exact only_logged (only_updateChangesetStatus id nofun)

/-- Whatever phase it starts in, `apply_single_changeset` queries the items of the change set
    after it has claimed it, and writes to providers after that. -/
theorem obeys_applySingleChangeset (phase : Phase) (id rollbackPolicy : String) :
    Obeys lifecycle (worker.applySingleChangeset id rollbackPolicy) phase fun _ _ => True := by
  unfold ReconcileWorker.applySingleChangeset
  refine Obeys.perform_bind trivial fun start => ?_
  refine Obeys.bind ((obeys_claim phase id).mono fun x phase' hclaim => ?_)
  cases x with
  | error e => trivial
  | ok _ =>
    -- claimed: the query for the items leads to the phase in which provider writes are allowed
    subst hclaim
    refine Obeys.perform_bind rfl fun r => Obeys.liftExcept_bind (fun items _ => ?_) fun _ _ => trivial
    refine Obeys.bind (Obeys.attempt (Obeys.mono
      (keeps_of_work (only_applyItems worker items []) id) ?_))
    intro x phase' hphase
    subst hphase
    cases x with
    | ok ctxs =>
      have hwork : Only Cmd.IsWork (updateChangesetStatus id .applying .applied) :=
        only_updateChangesetStatus id nofun
      exact Obeys.mono (keeps_of_work hwork id) fun _ _ _ => trivial
    | error e =>
      exact Obeys.mono (keeps_of_work (only_applyFailed worker id rollbackPolicy start e.1) id)
        fun _ _ _ => trivial

/-- `process_apply_batch` keeps to the automaton, from any list of change sets. -/
theorem obeys_processApplyBatch (phase : Phase) :
    Obeys lifecycle worker.processApplyBatch phase fun _ _ => True := by
  unfold ReconcileWorker.processApplyBatch
  refine Obeys.perform_bind trivial fun r => Obeys.liftExcept_bind (fun rows _ => ?_) fun _ _ => trivial
  refine Obeys.forM (m := lifecycle) (fun _ => True) trivial fun row _ phase' _ => ?_
  refine Obeys.bind (Obeys.attempt ?_)
  exact (obeys_applySingleChangeset worker phase' row.id row.rollbackPolicy).mono fun _ _ _ => trivial

omit [CryptoLib] in
/-- `fetch_changeset` reads the row, then the items. -/
theorem only_fetchChangeset {P : Cmd → Prop} {id : String} (hrow : P (.selectChangeset id))
    (hitems : P (.selectItemsByRecord id)) : Only P (fetchChangeset id) := by
  unfold fetchChangeset
  refine .perform_bind hrow fun _ => .liftExcept_bind fun row => ?_
  cases row with
  | none => exact .pure _
  | some row =>
    refine .perform_bind hitems fun _ => .liftExcept_bind fun itemRows => ?_
    exact .liftExcept_bind fun items => .pure _

omit [CryptoLib] in
/-- `validate_changeset` issues its transaction and reads the change set again. -/
theorem only_validateChangeset {P : Cmd → Prop} {id : String} (hselect : P (.txSelect id))
    (hupdate : ∀ snapshot, P (.txUpdate id .validated snapshot)) (hrow : P (.selectChangeset id))
    (hitems : P (.selectItemsByRecord id)) : Only P (validateChangeset id) := by
  unfold validateChangeset
  refine .perform_bind hselect fun _ => .liftExcept_bind fun read => ?_
  obtain ⟨row, snapshot⟩ := read
  cases row with
  | none => exact .throw _
  | some row =>
    simp only [ChangeSetStatus.fromDb_toDb]
    split
    · exact .throw _
    · refine .perform_bind (hupdate snapshot) fun _ => .liftExcept_bind fun _ => ?_
      refine .bind (only_fetchChangeset hrow hitems) fun view => ?_
      cases view with
      | none => exact .throw _
      | some view => exact .pure _

omit [CryptoLib] in
theorem keeps_fetchChangeset (phase : Phase) (id : String) : Keeps phase (fetchChangeset id) :=
  Only.obeys (m := lifecycle)
    (only_fetchChangeset ⟨trivial, fun _ => rfl⟩ ⟨trivial, fun _ => rfl⟩)

omit [CryptoLib] in
/-- `validate_changeset` updates the status only from the one its transaction has read. -/
theorem obeys_validateChangeset (phase : Phase) (id : String) :
    Obeys lifecycle (validateChangeset id) phase fun _ _ => True := by
  unfold validateChangeset
  refine Obeys.perform_bind trivial fun r => Obeys.liftExcept_bind (fun read hr => ?_) fun _ _ => trivial
  obtain ⟨row, snapshot⟩ := read
  cases row with
  | none => trivial
  | some row =>
    have hreading : phase.next (.txSelect id) r = .reading id row.status snapshot := by
      cases r with
      | error e => cases hr
      | ok read => cases hr; rfl
    -- the check of the source is on the status that the phase remembers
    change Obeys lifecycle _ (phase.next (.txSelect id) r) _
    rw [hreading]
    simp only [ChangeSetStatus.fromDb_toDb]
    split
    · trivial
    · next hcan =>
      refine Obeys.perform_bind ⟨_, rfl, Bool.of_not_eq_false hcan⟩ fun r => ?_
      refine Obeys.liftExcept_bind (fun _ _ => ?_) fun _ _ => trivial
      refine Obeys.bind (Obeys.mono (keeps_fetchChangeset _ id) fun x _ _ => ?_)
      cases x with
      | error e => trivial
      | ok view => cases view <;> trivial

end Worker

end DnsManager
