import DnsManager.Spec.ItemEffect

/-!
# What an interrupted apply or rollback can have changed

However an apply or a rollback is cut off, whichever of its statements and calls fail, and
whether or not a failing call took effect: the database is as before, and so is every
provider key outside the plan.

## Key results
- `always_applyItems`, `always_rollbackItems`: `Confined` holds at every moment.
- `runFor_applyItems`, `runFor_rollbackItems`: it holds after any number of commands.
-/

namespace DnsManager

open Prog (Always)

/-- `w` differs from `w₀` at most in provider keys that some of the writes go to, and in the
    counts of queries and calls. -/
structure Confined (ws : List ContentsWrite) (w₀ w : World) : Prop where
  db : w.db = w₀.db
  readings : w.readings = w₀.readings
  contents : ∀ b k, ¬ Write.Touches ws b k → w.contents b k = w₀.contents b k

namespace Confined

variable {ws : List ContentsWrite} {w₀ w : World}

theorem refl (ws : List ContentsWrite) (w : World) : Confined ws w w := ⟨rfl, rfl, fun _ _ _ => rfl⟩

theorem query {α : Type} (h : Confined ws w₀ w) (env : Env) (answer : Database → α) :
    Confined ws w₀ (w.query env answer).2 := by
  unfold World.query
  split <;> exact ⟨h.db, h.readings, h.contents⟩

theorem call (h : Confined ws w₀ w) (env : Env) {b : ProviderBinding} {key : RecordKey}
    (ht : Write.Touches ws b.id key) (value : Option ProviderRecord) :
    Confined ws w₀ (w.call env b key value).2 := by
  refine ⟨(w.db_call env b key value).trans h.db, ?_, fun b' k hn => ?_⟩
  · unfold World.call
    split <;> exact h.readings
  · have hne : (b.id, key) ≠ (b', k) := by
      intro heq
      cases heq
      exact hn ht
    rw [w.contents_call_of_ne env hne, h.contents b' k hn]

end Confined

/-- The writes of applying an item, as far as it can be read. -/
def itemWrites [SerdeJson] (db : Database) (item : ChangesetItem) : List ContentsWrite :=
  match resolve db item with
  | some ctx => ctx.applyWrites db
  | none => []

variable [CryptoLib] [SerdeJson] (worker : ReconcileWorker)
variable {ws : List ContentsWrite} {w₀ w : World} {env : Env}

/-- A loop body changes nothing but the key it has to write. -/
theorem LoopBody.always {b : ProviderBinding} {write : Option (RecordKey × Option ProviderRecord)}
    {otherwise : Except String Unit → Prop} {p : WorkerM Unit}
    (hp : LoopBody worker b write otherwise p)
    (hb : ∀ kv, write = some kv → Write.Touches ws b.id kv.1) (h : Confined ws w₀ w) :
    Always (handle env) (Confined ws w₀) p w := by
  cases hp with
  | unusable e hu hp =>
    rw [hp]
    exact h
  | nothing x hu hw hx hp =>
    rw [hp]
    exact Always.liftExcept h
  | @call key value creds text hu hw hkey hp =>
    have ht : Write.Touches ws b.id key := hb _ hw
    rw [hp]
    cases value with
    | none => exact Always.perform_bind h (Always.liftExcept (h.call env ht _))
    | some record =>
      rw [← hkey record rfl] at ht
      exact Always.perform_bind h (Always.liftExcept (h.call env ht _))

omit [CryptoLib] [SerdeJson] in
/-- The writes on a zone go to each of its active bindings. -/
private theorem touches_onBindings {db : Database} {zoneId : String}
    {kv : RecordKey × Option ProviderRecord} {b : ProviderBinding}
    (hb : b ∈ db.activeBindings zoneId) :
    Write.Touches (db.onBindings zoneId (some kv)) b.id kv.1 :=
  Write.touches_broadcast.mpr ⟨List.mem_map_of_mem hb, rfl⟩

theorem always_applyOneItem {item : ChangesetItem} (hsub : itemWrites w₀.db item ⊆ ws)
    (h : Confined ws w₀ w) :
    Always (handle env) (Confined ws w₀) (worker.applyOneItem item) w := by
  unfold ReconcileWorker.applyOneItem
  refine Always.perform_bind h (Always.liftExcept_bind (h.query env _) fun row hrow => ?_)
  have h' := h.query env (·.zoneOf item.recordId)
  refine Always.liftExcept_bind h' fun zoneId hzone => ?_
  refine Always.liftExcept_bind h' fun afterRecord hafter => ?_
  refine Always.liftExcept_bind h' fun beforeRecord hbefore => ?_
  refine Always.perform_bind h' ?_
  have h'' := h'.query env (·.activeBindings zoneId)
  refine Always.liftExcept_bind h'' fun bindings hbs => ?_
  -- the database is still that of `w₀`, so the loop runs over the bindings of its writes
  obtain rfl : bindings = w₀.db.activeBindings zoneId := by
    exact (World.query_eq_ok hbs).trans (congrArg (·.activeBindings zoneId) h'.db)
  have hres : resolve w₀.db item = some ⟨zoneId, item.operation, beforeRecord, afterRecord⟩ := by
    have hz : w₀.db.zoneOf item.recordId = some zoneId := by
      have hw := World.query_eq_ok hrow
      unfold ReconcileWorker.okOrElse at hzone
      split at hzone
      · cases hzone; rw [← h.db, hw]
      · cases hzone
    simp [resolve, hz, hafter, hbefore, Except.toOption]
  split
  · exact h''
  · refine (Always.forM h'' fun b hb w' hw' => ?_).bind fun _ w' hw' _ => hw'
    have hbody := loopBody_applyToBinding worker
      ⟨zoneId, item.operation, beforeRecord, afterRecord⟩ b
    refine hbody.always worker (fun kv hkv => ?_) hw'
    refine (touches_onBindings hb).of_subset (List.Subset.trans ?_ hsub)
    simp only [itemWrites, hres, AppliedItemCtx.applyWrites, hkv]
    exact List.Subset.refl _

/-- At every moment of an apply, only keys its items write can have changed. -/
theorem always_applyItems {items : List ChangesetItem} (applied : List AppliedItemCtx)
    (hsub : items.flatMap (itemWrites w₀.db) ⊆ ws) (h : Confined ws w₀ w) :
    Always (handle env) (Confined ws w₀) (worker.applyItems items applied) w := by
  induction items generalizing applied w with
  | nil => exact h
  | cons item items ih =>
    obtain ⟨hitem, hitems⟩ := List.append_subset.mp (List.flatMap_cons ▸ hsub)
    refine (Always.attempt (always_applyOneItem worker hitem h)).bind fun r w' hw' _ => ?_
    cases r with
    | ok ctx => exact ih (applied ++ [ctx]) hitems hw'
    | error e => exact hw'

theorem always_rollbackOneItem {ctx : AppliedItemCtx} (hsub : ctx.undoWrites w₀.db ⊆ ws)
    (h : Confined ws w₀ w) :
    Always (handle env) (Confined ws w₀) (worker.rollbackOneItem ctx) w := by
  unfold ReconcileWorker.rollbackOneItem
  have h' := h.query env (·.activeBindings ctx.zoneId)
  refine Always.perform_bind h (Always.liftExcept_bind h' fun bindings hbs => ?_)
  obtain rfl : bindings = w₀.db.activeBindings ctx.zoneId := by
    rw [World.query_eq_ok hbs, h.db]
  refine Always.forM h' fun b hb w' hw' => ?_
  refine (loopBody_rollbackOnBinding worker ctx b).always worker (fun kv hkv => ?_) hw'
  refine (touches_onBindings hb).of_subset (List.Subset.trans ?_ hsub)
  simp only [AppliedItemCtx.undoWrites, hkv]
  exact List.Subset.refl _

/-- At every moment of a rollback, only keys its inverse writes go to can have changed. -/
theorem always_rollbackItems {applied : List AppliedItemCtx}
    (hsub : rollbackPlan w₀.db applied ⊆ ws) (h : Confined ws w₀ w) :
    Always (handle env) (Confined ws w₀) (worker.rollbackItems applied) w := by
  refine Always.forM h fun ctx hctx w' hw' => always_rollbackOneItem worker ?_ hw'
  exact List.Subset.trans (fun x hx => List.mem_flatMap.mpr ⟨ctx, hctx, hx⟩) hsub

/-- What an interrupted apply can have changed. -/
theorem runFor_applyItems (env : Env) (n : Nat) (items : List ChangesetItem)
    (applied : List AppliedItemCtx) (w : World) :
    Confined (items.flatMap (itemWrites w.db)) w
      (Prog.runFor (handle env) n (worker.applyItems items applied) w) :=
  (always_applyItems worker applied (List.Subset.refl _) (Confined.refl _ w)).runFor n

/-- What an interrupted rollback can have changed. -/
theorem runFor_rollbackItems (env : Env) (n : Nat) (applied : List AppliedItemCtx) (w : World) :
    Confined (rollbackPlan w.db applied) w
      (Prog.runFor (handle env) n (worker.rollbackItems applied) w) :=
  (always_rollbackItems worker (List.Subset.refl _) (Confined.refl _ w)).runFor n

end DnsManager
