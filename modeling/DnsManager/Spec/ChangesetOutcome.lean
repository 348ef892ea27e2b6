import DnsManager.Spec.RollbackCorrect

/-!
# How the apply of a change set ends

`Outcome` lists the ways in which `apply_single_changeset` can end on a validated change
set, each with what decides it: the failures of its statements, the items, the policy and
the clock.

## Key results
- `outcome_applySingleChangeset`: one of the cases of `Outcome` holds of every run.
-/

namespace DnsManager

/-! ## Status updates -/

/-- The world after a status update has taken effect. -/
def World.moved (env : Env) (w : World) (id : String) (source target : ChangeSetStatus) : World :=
  w.commit (w.db.setStatus id (·.status == source) target (env.now w.writes))

theorem World.statusOf_moved {env : Env} {w : World} {id : String} {source target : ChangeSetStatus}
    (hst : w.db.statusOf id = some source) :
    (w.moved env id source target).db.statusOf id = some target := by
  obtain ⟨row, hrow, hs⟩ := Option.map_eq_some_iff.mp hst
  have hid : row.id = id := (Table.find?_eq_some.mp hrow).2
  show (w.db.setStatus _ _ _ _).statusOf id = _
  rw [Database.statusOf_setStatus, hrow]
  simp [hid, hs]

/-- An update along a transition from the status the change set has. -/
theorem run_updateChangesetStatus {env : Env} {w : World} {id : String}
    {source target : ChangeSetStatus} (hcan : source.canTransitionTo target = true)
    (hst : w.db.statusOf id = some source) :
    (updateChangesetStatus id source target).run (handle env) w =
      match env.writes w.writes with
      | none => (.ok (), w.moved env id source target)
      | some e => (.error e, { w with writes := w.writes + 1 }) := by
  unfold updateChangesetStatus
  simp only [hcan, Bool.true_eq_false, if_false, Prog.run_bind, run_issue, handle,
    Prog.run_liftExcept, updateStatusWhere]
  cases env.writes w.writes with
  | some e => rfl
  | none =>
    simp only [hst, if_true]
    rfl

@[simp] theorem run_logged {α : Type} (p : WorkerM α) (env : Env) (w : World) :
    (logged p).run (handle env) w = (.ok (), (p.run (handle env) w).2) := by
  simp only [logged, Prog.run_bind, Prog.run_attempt, Prog.run_pure]

/-- The status after an update from `source` to `target`: it is `target`, unless a write
    statement failed. -/
def Updated (env : Env) (w : World) (id : String) (source target : ChangeSetStatus) : Prop :=
  w.db.statusOf id = some target ∨ w.db.statusOf id = some source ∧ ∃ n, env.writes n ≠ none

theorem updated_updateChangesetStatus (env : Env) {w : World} {id : String}
    {source target : ChangeSetStatus} (hcan : source.canTransitionTo target = true)
    (hst : w.db.statusOf id = some source) :
    Updated env ((updateChangesetStatus id source target).run (handle env) w).2 id source target ∧
      ((updateChangesetStatus id source target).run (handle env) w).2.contents = w.contents := by
  rw [run_updateChangesetStatus hcan hst]
  cases hw : env.writes w.writes with
  | none => exact ⟨Or.inl (World.statusOf_moved hst), rfl⟩
  | some e => exact ⟨Or.inr ⟨hst, w.writes, by simp [hw]⟩, rfl⟩

/-! ## The outcomes -/

/-- The world in which the items of a claimed change set are applied. -/
def World.claimed (env : Env) (w : World) (id : String) : World :=
  { ({ w with readings := w.readings + 1 } : World).moved env id .validated .applying with
    queries := w.queries + 1 }

theorem World.statusOf_claimed {env : Env} {w : World} {id : String}
    (hst : w.db.statusOf id = some .validated) :
    (w.claimed env id).db.statusOf id = some .applying := by
  have h : ({ w with readings := w.readings + 1 } : World).db.statusOf id = some .validated := hst
  exact World.statusOf_moved h

/-- The world in which the rollback of a failed apply starts. -/
def World.rollingBack (env : Env) (w : World) (id : String) : World :=
  ({ w with readings := w.readings + 1 } : World).moved env id .applying .rollingBack

theorem World.statusOf_rollingBack (env : Env) {w : World} {id : String}
    (hst : w.db.statusOf id = some .applying) :
    (w.rollingBack env id).db.statusOf id = some .rollingBack := by
  have h : ({ w with readings := w.readings + 1 } : World).db.statusOf id = some .applying := hst
  exact World.statusOf_moved h

/-- A failed apply that started in `w` is rolled back by the worker itself. -/
def AutoRollback (env : Env) (w : World) (rollbackPolicy : String) : Prop :=
  rollbackPolicy = "auto" ∧
    env.instants (w.readings + 1) - env.instants w.readings < ReconcileWorker.autoRollbackWindow

section Worker

variable [CryptoLib] [SerdeJson] (worker : ReconcileWorker)

/-- An apply of the items from `w` stops, with the items `applied` before it, in `w'`. -/
def ApplyStops (env : Env) (w : World) (items : List ChangesetItem) (applied : List AppliedItemCtx)
    (w' : World) : Prop :=
  ∃ e, (worker.applyItems items []).run (handle env) w = (.error (applied, e), w')

/-- How the apply of the change set `id`, validated in `w`, ends. -/
inductive Outcome (env : Env) (w : World) (id rollbackPolicy : String) (final : World) : Prop
  /-- The change set could not be claimed. -/
  | notClaimed (write : env.writes w.writes ≠ none)
      (status : final.db.statusOf id = some .validated)
  /-- The items could not be read. -/
  | itemsUnread (query : env.queries w.queries ≠ none)
      (status : final.db.statusOf id = some .applying)
  /-- All items were applied. -/
  | applied (query : env.queries w.queries = none) {ctxs : List AppliedItemCtx}
      (items : ItemsSucceed worker env (w.claimed env id) (w.db.items id) ctxs)
      (status : Updated env final id .applying .applied)
  /-- An item failed, and there was no automatic rollback. -/
  | frozen (query : env.queries w.queries = none) {applied : List AppliedItemCtx} {w' : World}
      (stops : ApplyStops worker env (w.claimed env id) (w.db.items id) applied w')
      (auto : ¬ AutoRollback env w rollbackPolicy)
      (status : Updated env final id .applying .frozen)
  /-- An item failed, and the rollback could not be started. -/
  | notRollingBack (auto : AutoRollback env w rollbackPolicy)
      (write : ∃ n, env.writes n ≠ none) (status : final.db.statusOf id = some .applying)
  /-- An item failed, and the items before it were rolled back. -/
  | rolledBack (query : env.queries w.queries = none) {applied : List AppliedItemCtx} {w' : World}
      (stops : ApplyStops worker env (w.claimed env id) (w.db.items id) applied w')
      (auto : AutoRollback env w rollbackPolicy)
      (undo : UndosSucceed worker env (w'.rollingBack env id) applied.reverse)
      (status : Updated env final id .rollingBack .rolledBack)
      (contents : final.contents = Write.execAll (rollbackPlan w.db applied) w'.contents)
  /-- An item failed, and so did the rollback. -/
  | rollbackFailed (query : env.queries w.queries = none) {applied : List AppliedItemCtx}
      {w' : World} (stops : ApplyStops worker env (w.claimed env id) (w.db.items id) applied w')
      (auto : AutoRollback env w rollbackPolicy)
      (undo : ¬ UndosSucceed worker env (w'.rollingBack env id) applied.reverse)
      (status : Updated env final id .rollingBack .rollbackFailed)

/-- A rollback leaves the database alone. -/
private theorem db_rollbackItems (env : Env) (applied : List AppliedItemCtx) (w : World) :
    ((worker.rollbackItems applied).run (handle env) w).2.db = w.db :=
  (always_rollbackItems worker (List.Subset.refl _) (Confined.refl _ w)).run.db

/-- How a rollback ends: its own success decides the status. -/
private theorem rollBack_cases (env : Env) {w : World} {id : String}
    (hst : w.db.statusOf id = some .rollingBack) (applied : List AppliedItemCtx) :
    (UndosSucceed worker env w applied.reverse ∧
      Updated env ((worker.rollBack id applied).run (handle env) w).2 id .rollingBack .rolledBack ∧
      ((worker.rollBack id applied).run (handle env) w).2.contents =
        Write.execAll (rollbackPlan w.db applied) w.contents) ∨
    (¬ UndosSucceed worker env w applied.reverse ∧
      Updated env ((worker.rollBack id applied).run (handle env) w).2 id
        .rollingBack .rollbackFailed) := by
  -- the status is still `rolling_back` when the undo writes are done
  have hdb := db_rollbackItems worker env applied w
  unfold ReconcileWorker.rollBack
  simp only [Prog.run_bind, Prog.run_attempt]
  rcases run_rollbackItems_cases worker env w applied with ⟨hu, hrun⟩ | ⟨hu, e, w', hrun⟩
  · rw [hrun] at hdb ⊢
    simp only [run_logged]
    have hcan : ChangeSetStatus.canTransitionTo .rollingBack .rolledBack = true := rfl
    obtain ⟨hup, hcontents⟩ := updated_updateChangesetStatus env hcan (hdb ▸ hst)
    exact Or.inl ⟨hu, hup, hcontents.trans (run_rollbackItems_ok worker hrun).2⟩
  · rw [hrun] at hdb ⊢
    simp only [run_logged]
    exact Or.inr ⟨hu, (updated_updateChangesetStatus env rfl (hdb ▸ hst)).1⟩

/-- How the `Err` arm ends, in a world that still has the clock and the change set of the
    claimed one. -/
private theorem outcome_applyFailed {env : Env} {w w' : World} {id rollbackPolicy : String}
    {applied : List AppliedItemCtx} (hst : w.db.statusOf id = some .validated)
    (hq : env.queries w.queries = none)
    (hstops : ApplyStops worker env (w.claimed env id) (w.db.items id) applied w') :
    Outcome worker env w id rollbackPolicy
      ((worker.applyFailed id rollbackPolicy (env.instants w.readings) applied).run
        (handle env) w').2 := by
  -- the items have neither moved the change set nor read the clock
  have ⟨e, hrun⟩ := hstops
  have hconf := Prog.Always.run (h := handle env) (always_applyItems worker [] (List.Subset.refl _)
    (Confined.refl ((w.db.items id).flatMap (itemWrites (w.claimed env id).db)) (w.claimed env id)))
  rw [hrun] at hconf
  have hreadings : w'.readings = w.readings + 1 := hconf.readings
  have hst' : w'.db.statusOf id = some .applying := by
    rw [hconf.db]
    exact World.statusOf_claimed hst
  have hst₀ : ({ w' with readings := w'.readings + 1 } : World).db.statusOf id = some .applying :=
    hst'
  unfold ReconcileWorker.applyFailed
  simp only [Prog.run_bind, run_issue, handle]
  by_cases hauto : AutoRollback env w rollbackPolicy
  · have hcond : (rollbackPolicy == "auto" && decide (env.instants w'.readings -
        env.instants w.readings < ReconcileWorker.autoRollbackWindow)) = true := by
      simpa [hreadings, AutoRollback] using hauto
    simp only [hcond, Bool.not_true, Bool.false_eq_true, if_false, Prog.run_bind, Prog.run_attempt,
      run_updateChangesetStatus (rfl : ChangeSetStatus.canTransitionTo .applying .rollingBack = true)
        hst₀]
    cases hw : env.writes ({ w' with readings := w'.readings + 1 } : World).writes with
    | some e => exact .notRollingBack hauto ⟨_, by rw [hw]; exact Option.some_ne_none e⟩ hst'
    | none =>
      have hst₁ := World.statusOf_rollingBack env hst'
      rcases rollBack_cases worker env hst₁ applied with
        ⟨hu, hup, hcontents⟩ | ⟨hu, hup⟩
      · -- the undo writes go to the bindings of `w`, which no item changes
        have hplan : rollbackPlan (w'.rollingBack env id).db applied = rollbackPlan w.db applied := by
          have hdb : w'.db = (w.claimed env id).db := hconf.db
          change rollbackPlan w'.db applied = rollbackPlan (w.claimed env id).db applied
          rw [hdb]
        exact .rolledBack hq hstops hauto hu hup (hplan ▸ hcontents)
      · exact .rollbackFailed hq hstops hauto hu hup
  · have hcond : (rollbackPolicy == "auto" && decide (env.instants w'.readings -
        env.instants w.readings < ReconcileWorker.autoRollbackWindow)) = false := by
      simpa [hreadings, AutoRollback] using hauto
    simp only [hcond, Bool.not_false, if_true, run_logged]
    exact .frozen hq hstops hauto (updated_updateChangesetStatus env rfl hst₀).1

/-- What `apply_single_changeset` does with the outcome of `apply_items`. -/
private def afterItems (id rollbackPolicy : String) (start : Nat) :
    Except (List AppliedItemCtx × String) (List AppliedItemCtx) → WorkerM Unit
  | .ok _ => updateChangesetStatus id .applying .applied
  | .error (applied, _) => worker.applyFailed id rollbackPolicy start applied

/-- The apply of a validated change set ends in one of these ways. -/
theorem outcome_applySingleChangeset {env : Env} {w : World} {id rollbackPolicy : String}
    (hst : w.db.statusOf id = some .validated) :
    Outcome worker env w id rollbackPolicy
      ((worker.applySingleChangeset id rollbackPolicy).run (handle env) w).2 := by
  have hst₀ : ({ w with readings := w.readings + 1 } : World).db.statusOf id = some .validated := hst
  unfold ReconcileWorker.applySingleChangeset
  simp only [Prog.run_bind, run_issue, handle]
  rw [run_updateChangesetStatus rfl hst₀]
  cases hw : env.writes ({ w with readings := w.readings + 1 } : World).writes with
  | some e => exact .notClaimed (by rw [hw]; exact Option.some_ne_none e) hst
  | none =>
  cases hq : env.queries (({ w with readings := w.readings + 1 } : World).moved env id .validated
      .applying).queries with
  | some e =>
    simp only [World.query_of_some hq, Prog.run_liftExcept]
    refine .itemsUnread (fun h => ?_) (World.statusOf_moved hst₀)
    cases hq.symm.trans h
  | none =>
  simp only [World.query_of_none hq, Prog.run_liftExcept, Prog.run_attempt]
  -- the result of the items is named, since both arms of the `match` depend on it
  suffices hrest : ∀ x, (worker.applyItems (w.db.items id) []).run (handle env)
      (w.claimed env id) = x → Outcome worker env w id rollbackPolicy
        ((afterItems worker id rollbackPolicy (env.instants w.readings) x.1).run
          (handle env) x.2).2 from hrest _ rfl
  intro x hx
  rcases run_applyItems_cases worker env (w.claimed env id) (w.db.items id) [] with
    ⟨ctxs, hs, hrun⟩ | ⟨pre, item, post, ctxs, e, w', -, -, -, hrun⟩
  · obtain rfl := hx.symm.trans hrun
    have hst' : ((w.claimed env id).itemsApplied ctxs).db.statusOf id = some .applying := by
      rw [World.db_itemsApplied]
      exact World.statusOf_claimed hst
    exact .applied hq hs (updated_updateChangesetStatus env rfl hst').1
  · obtain rfl := hx.symm.trans hrun
    exact outcome_applyFailed worker hst hq ⟨e, hrun⟩

/-! ## The final status -/

/-- All items of the change set go through. -/
def AllApplied (env : Env) (w : World) (id : String) : Prop :=
  ∃ ctxs, ItemsSucceed worker env (w.claimed env id) (w.db.items id) ctxs

/-- The rollback of the items before the failing one goes through. -/
def RollbackSucceeds (env : Env) (w : World) (id : String) : Prop :=
  ∃ applied w', ApplyStops worker env (w.claimed env id) (w.db.items id) applied w' ∧
    UndosSucceed worker env (w'.rollingBack env id) applied.reverse

/-- The status is final and tells what happened to the items. -/
structure StatusTells (env : Env) (w : World) (id rollbackPolicy : String)
    (status : ChangeSetStatus) : Prop where
  terminal : status.isTerminal = true
  applied : status = .applied ↔ AllApplied worker env w id
  frozen : status = .frozen ↔ ¬ AllApplied worker env w id ∧ ¬ AutoRollback env w rollbackPolicy
  rolledBack : status = .rolledBack ↔ ¬ AllApplied worker env w id ∧
    AutoRollback env w rollbackPolicy ∧ RollbackSucceeds worker env w id
  rollbackFailed : status = .rollbackFailed ↔ ¬ AllApplied worker env w id ∧
    AutoRollback env w rollbackPolicy ∧ ¬ RollbackSucceeds worker env w id

/-- An apply that stops is not one whose items all go through. -/
private theorem ApplyStops.not_allApplied {env : Env} {w w' : World} {id : String}
    {applied : List AppliedItemCtx}
    (h : ApplyStops worker env (w.claimed env id) (w.db.items id) applied w') :
    ¬ AllApplied worker env w id := by
  rintro ⟨ctxs, hs⟩
  obtain ⟨e, hrun⟩ := h
  have hok := run_applyItems_append worker hs [] []
  rw [List.append_nil, hrun] at hok
  cases hok

/-- Where an apply stops decides whether its rollback succeeds. -/
private theorem ApplyStops.rollbackSucceeds_iff {env : Env} {w w' : World} {id : String}
    {applied : List AppliedItemCtx}
    (h : ApplyStops worker env (w.claimed env id) (w.db.items id) applied w') :
    RollbackSucceeds worker env w id ↔
      UndosSucceed worker env (w'.rollingBack env id) applied.reverse := by
  constructor
  · rintro ⟨applied', w'', ⟨e', h'⟩, hu⟩
    obtain ⟨e, h⟩ := h
    cases h.symm.trans h'
    exact hu
  · exact fun hu => ⟨applied, w', h, hu⟩

/-- When all status updates succeed, a claimed change set ends in the final status that tells
    what happened to its items exactly when the query for the items succeeds. -/
theorem status_applySingleChangeset_iff {env : Env} {w : World} {id rollbackPolicy : String}
    (hst : w.db.statusOf id = some .validated) (hwrites : ∀ n, env.writes n = none) :
    (∃ status, ((worker.applySingleChangeset id rollbackPolicy).run
          (handle env) w).2.db.statusOf id = some status ∧
        StatusTells worker env w id rollbackPolicy status) ↔
      env.queries w.queries = none := by
  -- with all writes succeeding, an outcome that names a target has reached it
  have hupdated : ∀ {w' source target}, Updated env w' id source target →
      w'.db.statusOf id = some target :=
    fun h => h.resolve_right fun ⟨_, n, hn⟩ => hn (hwrites n)
  have houtcome : Outcome worker env w id rollbackPolicy _ :=
    outcome_applySingleChangeset worker hst
  cases houtcome with
  | notClaimed write status => exact absurd (hwrites _) write
  | itemsUnread query status =>
    -- the only way to be left in `applying`, which is not final
    refine ⟨fun ⟨s, hs, htells⟩ => ?_, fun h => absurd h query⟩
    obtain rfl := Option.some.inj (status.symm.trans hs)
    cases htells.terminal
  | applied query items status =>
    have hall : AllApplied worker env w id := ⟨_, items⟩
    refine ⟨fun _ => query, fun _ => ⟨_, hupdated status, ?_⟩⟩
    constructor <;> simp [hall, ChangeSetStatus.isTerminal]
  | frozen query stops auto status =>
    have hall := stops.not_allApplied worker
    refine ⟨fun _ => query, fun _ => ⟨_, hupdated status, ?_⟩⟩
    constructor <;> simp [hall, auto, ChangeSetStatus.isTerminal]
  | notRollingBack auto write status =>
    obtain ⟨n, hn⟩ := write
    exact absurd (hwrites n) hn
  | rolledBack query stops auto undo status =>
    have hall := stops.not_allApplied worker
    have hback := (stops.rollbackSucceeds_iff worker).mpr undo
    refine ⟨fun _ => query, fun _ => ⟨_, hupdated status, ?_⟩⟩
    constructor <;> simp [hall, auto, hback, ChangeSetStatus.isTerminal]
  | rollbackFailed query stops auto undo status =>
    have hall := stops.not_allApplied worker
    have hback := mt (stops.rollbackSucceeds_iff worker).mp undo
    refine ⟨fun _ => query, fun _ => ⟨_, hupdated status, ?_⟩⟩
    constructor <;> simp [hall, auto, hback, ChangeSetStatus.isTerminal]

end Worker

section Sample

open Sample

/-- A validated change set with one item. -/
private def validatedWorld : World :=
  { db := createdWww.setStatus "c1" (fun _ => true) .validated "2024-01-15T12:31:00+00:00"
    contents := fun _ _ => none }

/-- A world in which the query for the items fails. -/
private def itemsUnreadEnv : Env :=
  { env fun _ => .ok with queries := fun n => if n = 0 then some "disk I/O error" else none }

/-- A failing query for the items leaves the change set in `applying`. -/
theorem status_itemsUnread :
    ((worker.applySingleChangeset "c1" "auto").run (handle itemsUnreadEnv)
        validatedWorld).2.db.statusOf "c1" = some .applying ∧
      ¬ (ChangeSetStatus.applying.isTerminal = true) := by
  decide +kernel

/-- Without a failing statement the status tells what happened. -/
theorem status_applySingleChangeset_validated :
    ∃ status, ((worker.applySingleChangeset "c1" "auto").run (handle (env fun _ => .ok))
        validatedWorld).2.db.statusOf "c1" = some status ∧
      StatusTells worker (env fun _ => .ok) validatedWorld "c1" "auto" status :=
  (status_applySingleChangeset_iff worker (by decide +kernel) (fun _ => rfl)).mpr rfl

end Sample

end DnsManager
