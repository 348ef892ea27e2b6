import DnsManager.Spec.ApplyCorrect

/-!
# The rollback restores what the items found

A rollback performs the inverse writes of the applied items, last item first. Where every
item was well formed when it was reached, each inverse undoes its item, and a rollback that
gets through restores the contents from before the apply, also after any number of
interrupted attempts.

Without that assumption the first item whose inverse writes a key decides what the key
holds in the end.

## Key results
- `ItemsSucceed.reversible`: items that were well formed can be undone step by step.
- `rollbackItems_restores`: a rollback that gets through restores the contents.
- `rollbackItems_restores_iff`: exactly when it does, whatever the items were.
-/

namespace DnsManager

/-- The item describes the zone it finds: a `create` finds its key absent on every binding,
    an `update` or `delete` finds its `before_value`, and an `update` keeps the key. -/
def AppliedItemCtx.WellFormed (db : Database) (σ : Contents) (ctx : AppliedItemCtx) : Prop :=
  match ctx.operation with
  | "create" => ∃ new, ctx.afterRecord = some new ∧
      ∀ b ∈ db.activeBindings ctx.zoneId, σ b.id new.key = none
  | "update" => ∃ old new, ctx.beforeRecord = some old ∧ ctx.afterRecord = some new ∧
      new.key = old.key ∧ ∀ b ∈ db.activeBindings ctx.zoneId, σ b.id old.key = some old
  | "delete" => ∃ old, ctx.beforeRecord = some old ∧
      ∀ b ∈ db.activeBindings ctx.zoneId, σ b.id old.key = some old
  | _ => False

namespace AppliedItemCtx

variable {db : Database} {σ : Contents} {ctx : AppliedItemCtx}

/-- A well-formed item writes one key, which held the value its inverse gives it. -/
theorem WellFormed.write_undo (h : ctx.WellFormed db σ) :
    ∃ key new old, ctx.write = some (key, new) ∧ ctx.undo = some (key, old) ∧
      (∀ b ∈ db.activeBindings ctx.zoneId, σ b.id key = old) ∧
      (new = old ↔ ctx.operation = "update" ∧ ctx.afterRecord = ctx.beforeRecord) := by
  unfold WellFormed at h
  split at h
  · next hop =>
    obtain ⟨new, ha, hold⟩ := h
    refine ⟨new.key, some new, none, ?_, ?_, hold, ?_⟩
    · simp [write, hop, ha]
    · simp [undo, hop, ha]
    · simp [hop]
  · next hop =>
    obtain ⟨old, new, hb, ha, hkey, hold⟩ := h
    refine ⟨old.key, some new, some old, ?_, ?_, hold, ?_⟩
    · simp [write, hop, ha, hkey]
    · simp [undo, hop, hb]
    · simp [hop, ha, hb]
  · next hop =>
    obtain ⟨old, hb, hold⟩ := h
    refine ⟨old.key, none, some old, ?_, ?_, hold, ?_⟩
    · simp [write, hop, hb]
    · simp [undo, hop, hb]
    · simp [hop]
  · exact h.elim

/-- The inverse of a well-formed item undoes it. -/
theorem WellFormed.undoes (h : ctx.WellFormed db σ) :
    Write.execAll (ctx.undoWrites db) (Write.execAll (ctx.applyWrites db) σ) = σ := by
  obtain ⟨key, new, old, hw, hu, hold, -⟩ := h.write_undo
  rw [undoWrites, applyWrites, hw, hu]
  exact Write.execAll_broadcast_undo (List.forall_mem_map.mpr hold) new

end AppliedItemCtx

section Condition

variable [SerdeJson]

/-- What rolling an item back makes of a key of a zone. -/
def itemUndoValue (db : Database) (zoneId : String) (key : RecordKey) (item : ChangesetItem) :
    Option (Option ProviderRecord) :=
  (resolve db item).bind fun ctx => ctx.valueAt ctx.undo zoneId key

/-- The first item of the zone whose inverse writes the key puts back what the key held at the
    start; if there is none, the last item that writes the key, if any, leaves what it held. -/
def RestoresKey (db : Database) (items : List ChangesetItem) (zoneId : String) (key : RecordKey)
    (init : Option ProviderRecord) : Prop :=
  match items.findSome? (itemUndoValue db zoneId key) with
  | some value => value = init
  | none =>
    match items.reverse.findSome? (itemValue db zoneId key) with
    | some value => value = init
    | none => True

end Condition

section Worker

variable [CryptoLib] [SerdeJson] (worker : ReconcileWorker)

/-- Every item that is reached, and can be read, is well formed at that moment. -/
def WellFormedWhenReached (env : Env) (w : World) (items : List ChangesetItem) : Prop :=
  ∀ pre item post ctxs, items = pre ++ item :: post → ItemsSucceed worker env w pre ctxs →
    ∀ ctx, resolve w.db item = some ctx → ctx.WellFormed w.db (w.itemsApplied ctxs).contents

/-- The items are well formed when reached if the first is, and those after it are once it has
    gone through. -/
theorem wellFormedWhenReached_cons {env : Env} {w : World} {item : ChangesetItem}
    {items : List ChangesetItem} :
    WellFormedWhenReached worker env w (item :: items) ↔
      (∀ ctx, resolve w.db item = some ctx → ctx.WellFormed w.db w.contents) ∧
      ∀ ctx, ItemSucceeds worker env w item ctx →
        WellFormedWhenReached worker env (w.itemApplied ctx) items := by
  constructor
  · intro h
    refine ⟨h [] item items [] rfl (.nil w), fun ctx hs pre it post ctxs heq hss => ?_⟩
    exact h (item :: pre) it post (ctx :: ctxs) (by rw [heq]; rfl) (.cons hs hss)
  · rintro ⟨hhead, htail⟩ pre it post ctxs heq hss
    cases hss with
    | nil => cases heq; exact hhead
    | cons head tail =>
      obtain ⟨rfl, htl⟩ := List.cons.inj heq
      exact htail _ head _ it post _ htl tail

/-- A list of items that are well formed when reached may be cut off. -/
theorem WellFormedWhenReached.of_append {env : Env} {w : World} {pre post : List ChangesetItem}
    (h : WellFormedWhenReached worker env w (pre ++ post)) :
    WellFormedWhenReached worker env w pre := by
  intro pre' item post' ctxs heq
  exact h pre' item (post' ++ post) ctxs (by rw [heq]; simp)

/-- Items that were well formed can be undone step by step. -/
theorem ItemsSucceed.reversible {env : Env} {w : World} {items : List ChangesetItem}
    {ctxs : List AppliedItemCtx} (h : ItemsSucceed worker env w items ctxs)
    (hwf : WellFormedWhenReached worker env w items) :
    Write.Reversible (ctxs.map fun ctx => (ctx.applyWrites w.db, ctx.undoWrites w.db))
      w.contents := by
  induction h with
  | nil w => trivial
  | @cons w item items ctx ctxs head tail ih =>
    obtain ⟨key, value, hr⟩ := head.ready
    obtain ⟨hhead, htail⟩ := (wellFormedWhenReached_cons worker).mp hwf
    exact ⟨(hhead ctx hr.resolved).undoes, ih (htail ctx head)⟩

/-- The two plans of items that were well formed cancel out. -/
theorem ItemsSucceed.rollback_apply {env : Env} {w : World} {items : List ChangesetItem}
    {ctxs : List AppliedItemCtx} (h : ItemsSucceed worker env w items ctxs)
    (hwf : WellFormedWhenReached worker env w items) :
    Write.execAll (rollbackPlan w.db ctxs) (Write.execAll (applyPlan w.db ctxs) w.contents) =
      w.contents := by
  have hundo := (h.reversible worker hwf).undo
  rwa [← List.map_reverse, List.flatMap_map, List.flatMap_map] at hundo

/-- One attempt at a rollback, cut off after a number of commands. -/
def attemptRollback (applied : List AppliedItemCtx) (w : World) (attempt : Env × Nat) : World :=
  Prog.runFor (handle attempt.1) attempt.2 (worker.rollbackItems applied) w

/-- What any number of interrupted rollbacks can have changed. -/
theorem confined_attempts (applied : List AppliedItemCtx) (attempts : List (Env × Nat)) (w : World) :
    Confined (rollbackPlan w.db applied) w
      (attempts.foldl (attemptRollback worker applied) w) := by
  have h : ∀ w', Confined (rollbackPlan w.db applied) w w' →
      Confined (rollbackPlan w.db applied) w
        (attempts.foldl (attemptRollback worker applied) w') := by
    induction attempts with
    | nil => exact fun _ h => h
    | cons attempt attempts ih =>
      exact fun w' hw' => ih _
        ((always_rollbackItems worker (List.Subset.refl _) hw').runFor attempt.2)
  exact h w (Confined.refl _ w)

/-- After any number of attempts that were cut off anywhere, one rollback that returns `Ok`
    leaves every provider zone with the contents it had before the items were applied. -/
theorem rollbackItems_restores {env : Env} {w w₁ : World} {items : List ChangesetItem}
    {ctxs : List AppliedItemCtx}
    (happly : (worker.applyItems items []).run (handle env) w = (.ok ctxs, w₁))
    (hwf : WellFormedWhenReached worker env w items) (attempts : List (Env × Nat))
    {env' : Env} {w₂ : World}
    (hroll : (worker.rollbackItems ctxs).run (handle env')
      (attempts.foldl (attemptRollback worker ctxs) w₁) = (.ok (), w₂)) :
    w₂.contents = w.contents := by
  obtain ⟨hs, rfl, -⟩ := run_applyItems_ok worker happly
  have hconf := confined_attempts worker ctxs attempts (w.itemsApplied ctxs)
  rw [(run_rollbackItems_ok worker hroll).2, hconf.db, Write.execAll_congr hconf.contents,
    World.db_itemsApplied, World.contents_itemsApplied, hs.rollback_apply worker hwf]

/-! ## Items of any form -/

/-- What a key of an active binding holds after an apply and a complete rollback: the first
    item whose inverse writes it decides, otherwise the apply does. -/
theorem ItemsSucceed.rolledBack_eq {env : Env} {w : World} {items : List ChangesetItem}
    {ctxs : List AppliedItemCtx} (h : ItemsSucceed worker env w items ctxs) {zoneId : String}
    {b : ProviderBinding} (hb : b ∈ w.db.activeBindings zoneId) (key : RecordKey) (σ : Contents) :
    Write.execAll (rollbackPlan w.db ctxs) (Write.execAll (applyPlan w.db ctxs) σ) b.id key =
      (items.findSome? (itemUndoValue w.db zoneId key)).getD
        (referenceFold w.db items zoneId key (σ b.id key)) := by
  induction h generalizing σ with
  | nil w => rfl
  | @cons w item items ctx ctxs head tail ih =>
    obtain ⟨_, _, hr⟩ := head.ready
    -- the first item is undone last, so its inverse has the last word on the key
    have hplan : rollbackPlan w.db (ctx :: ctxs) = rollbackPlan w.db ctxs ++ ctx.undoWrites w.db := by
      simp [rollbackPlan]
    have hundo : itemUndoValue w.db zoneId key item = ctx.valueAt ctx.undo zoneId key := by
      simp only [itemUndoValue, hr.resolved, Option.bind_some]
    have hwrite : itemValue w.db zoneId key item = ctx.valueAt ctx.write zoneId key := by
      simp only [itemValue, hr.resolved, Option.bind_some]
    have htail := ih hb (Write.execAll (ctx.applyWrites w.db) σ)
    rw [AppliedItemCtx.applyWrites, execAll_onBindings hb] at htail
    rw [hplan, applyPlan_cons, Write.execAll_append, Write.execAll_append,
      AppliedItemCtx.undoWrites, execAll_onBindings hb]
    rw [referenceFold_cons, hwrite, List.findSome?_cons, hundo]
    cases ctx.valueAt ctx.undo zoneId key with
    | some value => rfl
    | none => exact htail

/-- With usable bindings and calls that succeed, only a failing query stops a rollback. -/
private theorem undosSucceed_iff {env : Env} (hcalls : ∀ n, env.calls n = .ok)
    {ctxs : List AppliedItemCtx} {w : World}
    (husable : ∀ ctx ∈ ctxs, ∀ b ∈ w.db.activeBindings ctx.zoneId, worker.Usable b) :
    UndosSucceed worker env w ctxs ↔
      ∀ i < ctxs.length, env.queries (w.queries + i) = none := by
  induction ctxs generalizing w with
  | nil => exact ⟨fun _ _ h => (nomatch h), fun _ => .nil w⟩
  | cons ctx ctxs ih =>
    -- each item makes one query, so the `i`-th item makes the `i`-th one
    have husable' := List.forall_mem_cons.mp husable
    have hall : AllWritten worker env w.calls (w.db.activeBindings ctx.zoneId) :=
      (allWritten_iff worker).mpr ⟨husable'.1, fun _ _ => hcalls _⟩
    have htail : UndosSucceed worker env (w.itemUndone ctx) ctxs ↔
        ∀ i < ctxs.length, env.queries (w.queries + 1 + i) = none := ih husable'.2
    constructor
    · intro h i hi
      cases h with
      | cons head tail =>
      cases i with
      | zero => exact head.bindingQuery
      | succ i =>
        rw [Nat.add_comm i, ← Nat.add_assoc]
        exact htail.mp tail i (by simpa using hi)
    · intro h
      refine .cons ⟨h 0 (by simp), husable'.1, fun _ => hall⟩ (htail.mpr fun i hi => ?_)
      rw [Nat.add_assoc, Nat.add_comm 1]
      exact h (i + 1) (by simpa using hi)

omit [CryptoLib] [SerdeJson] in
/-- Only active bindings are written by a plan. -/
private theorem not_touches_plan {db : Database} {id : String}
    (h : ∀ zoneId, id ∉ (db.activeBindings zoneId).map (·.id)) (key : RecordKey)
    (write : AppliedItemCtx → Option (RecordKey × Option ProviderRecord))
    (ctxs : List AppliedItemCtx) :
    ¬ Write.Touches (ctxs.flatMap fun ctx => db.onBindings ctx.zoneId (write ctx)) id key := by
  rw [Write.touches_flatMap]
  rintro ⟨ctx, -, ht⟩
  unfold Database.onBindings at ht
  split at ht
  · exact h _ (Write.touches_broadcast.mp ht).1
  · exact Write.touches_nil _ _ ht

/-- The contents after an apply and a complete rollback are the old ones exactly when every
    key of every active binding is restored. -/
theorem ItemsSucceed.rollback_apply_iff {env : Env} {w : World} {items : List ChangesetItem}
    {ctxs : List AppliedItemCtx} (h : ItemsSucceed worker env w items ctxs) :
    Write.execAll (rollbackPlan w.db ctxs) (Write.execAll (applyPlan w.db ctxs) w.contents) =
        w.contents ↔
      ∀ zoneId, ∀ b ∈ w.db.activeBindings zoneId, ∀ key,
        RestoresKey w.db items zoneId key (w.contents b.id key) := by
  -- key by key: the first undo, or else the last write, decides
  have hkey : ∀ {zoneId b}, b ∈ w.db.activeBindings zoneId → ∀ key,
      (Write.execAll (rollbackPlan w.db ctxs) (Write.execAll (applyPlan w.db ctxs) w.contents)
          b.id key = w.contents b.id key ↔
        RestoresKey w.db items zoneId key (w.contents b.id key)) := by
    intro zoneId b hb key
    rw [h.rolledBack_eq worker hb, RestoresKey, referenceFold]
    cases items.findSome? (itemUndoValue w.db zoneId key) with
    | some value => rfl
    | none =>
      cases items.reverse.findSome? (itemValue w.db zoneId key) with
      | some value => rfl
      | none => simp
  constructor
  · intro heq zoneId b hb key
    exact (hkey hb key).mp (congrFun (congrFun heq b.id) key)
  · intro hall
    funext id key
    by_cases hid : ∃ zoneId, id ∈ (w.db.activeBindings zoneId).map (·.id)
    · obtain ⟨zoneId, hmem⟩ := hid
      obtain ⟨b, hb, rfl⟩ := List.mem_map.mp hmem
      exact (hkey hb key).mpr (hall zoneId b hb key)
    · -- a binding that is active in no zone is touched by neither plan
      have hno := not_exists.mp hid
      have hundo : ¬ Write.Touches (rollbackPlan w.db ctxs) id key :=
        not_touches_plan hno key AppliedItemCtx.undo ctxs.reverse
      have happly : ¬ Write.Touches (applyPlan w.db ctxs) id key :=
        not_touches_plan hno key AppliedItemCtx.write ctxs
      rw [Write.execAll_of_not_touches hundo, Write.execAll_of_not_touches happly]

/-- When all items were applied and every provider call of the rollback succeeds, the rollback
    ends with an error or with the old contents exactly when one of its binding queries fails
    or every key of every active binding is restored. -/
theorem rollbackItems_restores_iff {env : Env} {w w₁ : World} {items : List ChangesetItem}
    {ctxs : List AppliedItemCtx}
    (happly : (worker.applyItems items []).run (handle env) w = (.ok ctxs, w₁))
    {env' : Env} (hcalls : ∀ n, env'.calls n = .ok) :
    ((∃ e w₂, (worker.rollbackItems ctxs).run (handle env') w₁ = (.error e, w₂)) ∨
      ∃ w₂, (worker.rollbackItems ctxs).run (handle env') w₁ = (.ok (), w₂) ∧
        w₂.contents = w.contents) ↔
      ((∃ i < items.length, env'.queries (w₁.queries + i) ≠ none) ∨
        ∀ zoneId, ∀ b ∈ w.db.activeBindings zoneId, ∀ key,
          RestoresKey w.db items zoneId key (w.contents b.id key)) := by
  obtain ⟨hs, rfl, -⟩ := run_applyItems_ok worker happly
  have husable : ∀ ctx ∈ ctxs.reverse,
      ∀ b ∈ (w.itemsApplied ctxs).db.activeBindings ctx.zoneId, worker.Usable b := by
    intro ctx hctx
    rw [World.db_itemsApplied]
    exact (hs.of_mem worker (List.mem_reverse.mp hctx)).2.2
  have hqueries := undosSucceed_iff worker hcalls husable
  rw [List.length_reverse, ← hs.length_eq] at hqueries
  rcases run_rollbackItems_cases worker env' (w.itemsApplied ctxs) ctxs with
    ⟨hu, hrun⟩ | ⟨hu, e, w₂, hrun⟩
  · -- every query succeeds, so the contents decide
    have hq : ¬ ∃ i < items.length, env'.queries ((w.itemsApplied ctxs).queries + i) ≠ none := by
      rintro ⟨i, hi, hne⟩
      exact hne (hqueries.mp hu i hi)
    have hcontents := (run_rollbackItems_ok worker hrun).2
    rw [World.db_itemsApplied, World.contents_itemsApplied] at hcontents
    rw [or_iff_right hq, ← hs.rollback_apply_iff worker, ← hcontents, hrun]
    constructor
    · rintro (⟨_, _, h⟩ | ⟨_, h, heq⟩)
      · cases h
      · cases h; exact heq
    · exact fun heq => Or.inr ⟨_, rfl, heq⟩
  · refine ⟨fun _ => Or.inl ?_, fun _ => Or.inl ⟨e, w₂, hrun⟩⟩
    by_contra hno
    refine hu (hqueries.mpr fun i hi => ?_)
    by_contra hne
    exact hno ⟨i, hi, hne⟩

end Worker

section Sample

open Sample

/-- The two bindings hold the `A` record `www` for the first address. -/
private def wwwHeld : Contents := fun _ key =>
  if key = (www "192.0.2.1").key then some (www "192.0.2.1") else none

/-- An update that does not say what it replaces. -/
private def blindUpdate : List CreateChangesetItemRequest :=
  [item "r1" "update" none (some (www "192.0.2.2"))]

private def blindUpdateWorld : World :=
  { db := created blindUpdate (by decide +kernel), contents := wwwHeld }

private def blindUpdateApplied : Except (List AppliedItemCtx × String) (List AppliedItemCtx) × World :=
  (worker.applyItems (blindUpdateWorld.db.items "c1") []).run (handle (env fun _ => .ok))
    blindUpdateWorld

private def blindUpdateRolledBack : Except String Unit × World :=
  (worker.rollbackItems (get blindUpdateApplied.1 (by decide +kernel))).run
    (handle (env fun _ => .ok)) blindUpdateApplied.2

/-- `create_changeset` accepts an update without `before_value`; it is applied, and its rollback
    returns `Ok` without having restored the record it replaced. -/
theorem rollbackItems_blindUpdate :
    (createChangeset twoBindings "c1" "2024-01-15T12:30:00+00:00" (request blindUpdate)).isOk =
        true ∧
      blindUpdateApplied.1.isOk = true ∧ blindUpdateRolledBack.1 = .ok () ∧
      blindUpdateRolledBack.2.contents "b1" ⟨"www", .a⟩ ≠
        blindUpdateWorld.contents "b1" ⟨"www", .a⟩ :=
  ⟨by decide +kernel, by decide +kernel, eq_ok_get _ (by decide +kernel), by decide +kernel⟩

/-- The blind update does not meet the condition for a rollback that restores. -/
theorem rollbackItems_restores_iff_blindUpdate :
    ¬ ((∃ i < (blindUpdateWorld.db.items "c1").length,
          (env fun _ => .ok).queries (blindUpdateApplied.2.queries + i) ≠ none) ∨
        ∀ zoneId, ∀ b ∈ blindUpdateWorld.db.activeBindings zoneId, ∀ key,
          RestoresKey blindUpdateWorld.db (blindUpdateWorld.db.items "c1") zoneId key
            (blindUpdateWorld.contents b.id key)) := by
  have happly : blindUpdateApplied = (.ok _, blindUpdateApplied.2) :=
    Prod.ext (eq_ok_get _ (by decide +kernel)) rfl
  have hroll : blindUpdateRolledBack.1 = .ok () := eq_ok_get _ (by decide +kernel)
  intro h
  rcases (rollbackItems_restores_iff worker happly (fun _ => rfl)).mpr h with
    ⟨e, w₂, hrun⟩ | ⟨w₂, hrun, hcontents⟩
  · exact nomatch hroll.symm.trans (congrArg Prod.fst hrun)
  · have hw₂ : blindUpdateRolledBack.2 = w₂ := congrArg Prod.snd hrun
    have hne : blindUpdateRolledBack.2.contents "b1" ⟨"www", .a⟩ ≠
        blindUpdateWorld.contents "b1" ⟨"www", .a⟩ := by decide +kernel
    exact hne (by rw [hw₂, hcontents])

/-- A create followed by an update of the same key. -/
private def createUpdate : List CreateChangesetItemRequest :=
  [item "r1" "create" none (some (www "192.0.2.1")),
   item "r2" "update" (some (www "192.0.2.1")) (some (www "192.0.2.2"))]

private def createUpdateWorld : World :=
  { db := created createUpdate (by decide +kernel), contents := fun _ _ => none }

private def createUpdateApplied : Except (List AppliedItemCtx × String) (List AppliedItemCtx) × World :=
  (worker.applyItems (createUpdateWorld.db.items "c1") []).run (handle (env fun _ => .ok))
    createUpdateWorld

/-- The items find what they say they find. -/
private theorem wellFormed_createUpdate :
    WellFormedWhenReached worker (env fun _ => .ok) createUpdateWorld
      (createUpdateWorld.db.items "c1") := by
  have hitems : createUpdateWorld.db.items "c1" =
      [⟨"c1", "r1", "create", none, some (recordJson (www "192.0.2.1"))⟩,
       ⟨"c1", "r2", "update", some (recordJson (www "192.0.2.1")),
        some (recordJson (www "192.0.2.2"))⟩] := by decide +kernel
  rw [hitems, wellFormedWhenReached_cons]
  refine ⟨fun ctx hres => ?_, fun ctx hs => ?_⟩
  · obtain rfl : ⟨"z1", "create", none, some (www "192.0.2.1")⟩ = ctx :=
      Option.some.inj (Eq.trans (by decide +kernel) hres)
    exact ⟨_, rfl, fun _ _ => rfl⟩
  · obtain ⟨key, value, hready⟩ := hs.ready
    obtain rfl : ⟨"z1", "create", none, some (www "192.0.2.1")⟩ = ctx :=
      Option.some.inj (Eq.trans (by decide +kernel) hready.resolved)
    rw [wellFormedWhenReached_cons]
    refine ⟨fun ctx hres => ?_, fun ctx _ => ?_⟩
    · obtain rfl :
          ⟨"z1", "update", some (www "192.0.2.1"), some (www "192.0.2.2")⟩ = ctx :=
        Option.some.inj (Eq.trans (by decide +kernel) hres)
      exact ⟨_, _, rfl, rfl, rfl, by decide +kernel⟩
    · exact fun pre it post _ heq => (nomatch (List.append_eq_nil_iff.mp heq.symm).2)

/-- A rollback of which the first call is reported as failed after it has taken effect, and a
    second one that gets through: both items are undone. -/
theorem rollbackItems_restores_createUpdate :
    ((worker.rollbackItems (get createUpdateApplied.1 (by decide +kernel))).run
      (handle (env fun _ => .ok))
      (attemptRollback worker (get createUpdateApplied.1 (by decide +kernel)) createUpdateApplied.2
        (env fun n => if n = 4 then .lost .rateLimitExceeded else .ok, 10))).2.contents =
      createUpdateWorld.contents :=
  rollbackItems_restores worker (Prod.ext (eq_ok_get createUpdateApplied.1 (by decide +kernel)) rfl)
    wellFormed_createUpdate [(env fun n => if n = 4 then .lost .rateLimitExceeded else .ok, 10)]
    (Prod.ext (eq_ok_get _ (by decide +kernel)) rfl)

end Sample

end DnsManager
