import DnsManager.Spec.BindingLoop

/-!
# What an item does to the provider zones

An item that goes through gives one key one value on every active binding of its zone
(`AppliedItemCtx.applyWrites`), and its rollback performs the inverse write
(`AppliedItemCtx.undoWrites`). The writes of a list of items are its `applyPlan` and its
`rollbackPlan`, the latter from the last item to the first.

## Key results
- `run_applyOneItem_cases`: an item goes through, exactly when `ItemSucceeds`, or stops.
- `run_applyItems_cases`: the same for a list of items.
- `run_rollbackItems_cases`: the same for the rollback of a list of items.
-/

namespace DnsManager

/-- The writes that give a key its value on every active binding of the zone. -/
def Database.onBindings (db : Database) (zoneId : String) :
    Option (RecordKey × Option ProviderRecord) → List ContentsWrite
  | some (key, value) => Write.broadcast ((db.activeBindings zoneId).map (·.id)) key value
  | none => []

namespace AppliedItemCtx

/-- All writes of applying the item. -/
def applyWrites (db : Database) (ctx : AppliedItemCtx) : List ContentsWrite :=
  db.onBindings ctx.zoneId ctx.write

/-- All writes of rolling the item back. -/
def undoWrites (db : Database) (ctx : AppliedItemCtx) : List ContentsWrite :=
  db.onBindings ctx.zoneId ctx.undo

end AppliedItemCtx

/-- All writes of applying a list of items. -/
def applyPlan (db : Database) (ctxs : List AppliedItemCtx) : List ContentsWrite :=
  ctxs.flatMap (·.applyWrites db)

theorem applyPlan_cons (db : Database) (ctx : AppliedItemCtx) (ctxs : List AppliedItemCtx) :
    applyPlan db (ctx :: ctxs) = ctx.applyWrites db ++ applyPlan db ctxs := List.flatMap_cons

/-- All writes of rolling a list of applied items back. -/
def rollbackPlan (db : Database) (ctxs : List AppliedItemCtx) : List ContentsWrite :=
  ctxs.reverse.flatMap (·.undoWrites db)

variable [CryptoLib] [SerdeJson] (worker : ReconcileWorker)

/-! ## One item -/

/-- What `apply_one_item` reads of an item and its record before it asks for bindings. -/
def resolve (db : Database) (item : ChangesetItem) : Option AppliedItemCtx := do
  let zoneId ← db.zoneOf item.recordId
  let afterRecord ← (ReconcileWorker.parseRecord "after_value" item.afterValue).toOption
  let beforeRecord ← (ReconcileWorker.parseRecord "before_value" item.beforeValue).toOption
  return { zoneId, operation := item.operation, beforeRecord, afterRecord }

/-- The item can be read, has a write, and its zone has active bindings. -/
structure ItemReady (env : Env) (w : World) (item : ChangesetItem) (ctx : AppliedItemCtx)
    (key : RecordKey) (value : Option ProviderRecord) : Prop where
  zoneQuery : env.queries w.queries = none
  bindingQuery : env.queries (w.queries + 1) = none
  resolved : resolve w.db item = some ctx
  write : ctx.write = some (key, value)
  nonempty : w.db.activeBindings ctx.zoneId ≠ []

/-- The item goes through: its key is written on every active binding of its zone. -/
structure ItemSucceeds (env : Env) (w : World) (item : ChangesetItem) (ctx : AppliedItemCtx) :
    Prop where
  ready : ∃ key value, ItemReady env w item ctx key value
  written : AllWritten worker env w.calls (w.db.activeBindings ctx.zoneId)

/-- The item stops at the binding `b`, after its key was written on the bindings `done`. -/
structure ItemStops (env : Env) (w : World) (item : ChangesetItem) (ctx : AppliedItemCtx)
    (key : RecordKey) (value : Option ProviderRecord) (done : List ProviderBinding)
    (b : ProviderBinding) : Prop where
  ready : ItemReady env w item ctx key value
  stop : StopsAfter worker env w.calls (w.db.activeBindings ctx.zoneId) done b

/-- The world after an item has gone through. -/
def World.itemApplied (w : World) (ctx : AppliedItemCtx) : World :=
  { w with
    contents := Write.execAll (ctx.applyWrites w.db) w.contents
    queries := w.queries + 2
    calls := w.calls + (w.db.activeBindings ctx.zoneId).length }

/-- The world in which an item stops. -/
def World.itemStopped (env : Env) (w : World) (done : List ProviderBinding) (b : ProviderBinding)
    (key : RecordKey) (value : Option ProviderRecord) : World :=
  ({ w with queries := w.queries + 2 } : World).stopped worker env done b key value

/-- What `apply_one_item` does with the bindings of the item's zone. -/
private def applyToBindings (ctx : AppliedItemCtx) (bindings : List ProviderBinding) :
    WorkerM AppliedItemCtx := do
  if bindings.isEmpty then
    .throw s!"no active provider bindings for zone '{ctx.zoneId}'"
  else
    forM bindings (worker.applyToBinding ctx.operation ctx.beforeRecord ctx.afterRecord)
    pure ctx

/-- An item is read, and then written on the bindings of its zone, or it fails in one of the
    readings. -/
private theorem run_applyOneItem_read (env : Env) (w : World) (item : ChangesetItem) :
    (∃ ctx, resolve w.db item = some ctx ∧ env.queries w.queries = none ∧
      env.queries (w.queries + 1) = none ∧ (worker.applyOneItem item).run (handle env) w =
        (applyToBindings worker ctx (w.db.activeBindings ctx.zoneId)).run (handle env)
          { w with queries := w.queries + 2 }) ∨
    ∃ e n, (∀ ctx key value, ¬ ItemReady env w item ctx key value) ∧
      (worker.applyOneItem item).run (handle env) w = (.error e, { w with queries := n }) := by
  unfold ReconcileWorker.applyOneItem
  simp only [Prog.run_bind, run_issue, handle, Prog.run_liftExcept]
  -- the readings in the order of the source; each that fails contradicts one field of `ItemReady`
  cases hq : env.queries w.queries with
  | some e =>
    simp only [World.query_of_some hq]
    refine Or.inr ⟨e, _, fun _ _ _ h => ?_, rfl⟩
    cases hq.symm.trans h.zoneQuery
  | none =>
  simp only [World.query_of_none hq]
  cases hz : w.db.zoneOf item.recordId with
  | none =>
    refine Or.inr ⟨_, _, fun _ _ _ h => ?_, rfl⟩
    have hres := h.resolved
    simp [resolve, hz] at hres
  | some zoneId =>
  simp only [ReconcileWorker.okOrElse]
  cases ha : ReconcileWorker.parseRecord "after_value" item.afterValue with
  | error e =>
    refine Or.inr ⟨_, _, fun _ _ _ h => ?_, rfl⟩
    have hres := h.resolved
    simp [resolve, ha, Except.toOption] at hres
  | ok afterRecord =>
  cases hb : ReconcileWorker.parseRecord "before_value" item.beforeValue with
  | error e =>
    refine Or.inr ⟨_, _, fun _ _ _ h => ?_, rfl⟩
    have hres := h.resolved
    simp [resolve, hb, Except.toOption] at hres
  | ok beforeRecord =>
  cases hq' : env.queries ({ w with queries := w.queries + 1 } : World).queries with
  | some e =>
    simp only [World.query_of_some hq']
    refine Or.inr ⟨e, _, fun _ _ _ h => ?_, rfl⟩
    cases hq'.symm.trans h.bindingQuery
  | none =>
    simp only [World.query_of_none hq']
    refine Or.inl ⟨⟨zoneId, item.operation, beforeRecord, afterRecord⟩, ?_, trivial, trivial, rfl⟩
    simp [resolve, hz, ha, hb, Except.toOption]

/-- An item goes through, or it fails before its first write, or it stops at a binding. -/
theorem run_applyOneItem_cases (env : Env) (w : World) (item : ChangesetItem) :
    (∃ ctx, ItemSucceeds worker env w item ctx ∧
      (worker.applyOneItem item).run (handle env) w = (.ok ctx, w.itemApplied ctx)) ∨
    (∃ e n, (∀ ctx key value, ¬ ItemReady env w item ctx key value) ∧
      (worker.applyOneItem item).run (handle env) w = (.error e, { w with queries := n })) ∨
    ∃ e ctx key value done b, ItemStops worker env w item ctx key value done b ∧
      (worker.applyOneItem item).run (handle env) w =
        (.error e, w.itemStopped worker env done b key value) := by
  rcases run_applyOneItem_read worker env w item with ⟨ctx, hres, hq, hq', hrun⟩ | hfail
  case inr => exact Or.inr (Or.inl hfail)
  have hctx : ∀ {ctx'}, resolve w.db item = some ctx' → ctx' = ctx := fun h =>
    (Option.some.inj (hres.symm.trans h)).symm
  rw [hrun, applyToBindings]
  by_cases hne : w.db.activeBindings ctx.zoneId = []
  · simp only [hne, List.isEmpty_nil, if_true]
    refine Or.inr (Or.inl ⟨_, _, fun ctx' _ _ h => h.nonempty ?_, rfl⟩)
    rw [hctx h.resolved, hne]
  have hemp : (w.db.activeBindings ctx.zoneId).isEmpty = false := by simpa using hne
  simp only [hemp, Bool.false_eq_true, if_false, Prog.run_bind]
  cases hw : ctx.write with
  | none =>
    -- the loop stops at the first binding, before any call
    obtain ⟨b, bs, hbs⟩ := List.exists_cons_of_ne_nil hne
    obtain ⟨e, he⟩ := run_applyToBinding_of_write_none worker hw b env
      { w with queries := w.queries + 2 }
    refine Or.inr (Or.inl ⟨e, w.queries + 2, fun ctx' _ _ h => ?_, ?_⟩)
    · have hwrite := h.write
      rw [hctx h.resolved, hw] at hwrite
      cases hwrite
    · simp only [hbs, List.forM_cons, Prog.run_bind, he]
  | some kv =>
  obtain ⟨key, value⟩ := kv
  have ready : ItemReady env w item ctx key value := ⟨hq, hq', hres, hw, hne⟩
  rcases run_forM_writesTo worker (writesTo_applyToBinding worker hw)
    (w.db.activeBindings ctx.zoneId) env { w with queries := w.queries + 2 } with
    ⟨hall, hloop⟩ | ⟨done, b, e, hs, hloop⟩
  · refine Or.inl ⟨ctx, ⟨⟨key, value, ready⟩, hall⟩, ?_⟩
    simp only [hloop, Prog.run_pure, World.wrote, World.itemApplied, AppliedItemCtx.applyWrites, hw,
      Database.onBindings]
  · refine Or.inr (Or.inr ⟨e, ctx, key, value, done, b, ⟨ready, hs⟩, ?_⟩)
    simp only [hloop, World.itemStopped]

omit [CryptoLib] in
/-- The record an item is resolved to, its key and its value are determined. -/
theorem ItemReady.unique {env : Env} {w : World} {item : ChangesetItem}
    {ctx ctx' : AppliedItemCtx} {key key' : RecordKey} {value value' : Option ProviderRecord}
    (h : ItemReady env w item ctx key value) (h' : ItemReady env w item ctx' key' value') :
    ctx' = ctx ∧ key' = key ∧ value' = value := by
  obtain rfl : ctx' = ctx := Option.some.inj (h'.resolved.symm.trans h.resolved)
  have := Option.some.inj (h'.write.symm.trans h.write)
  simpa using this

/-- An item for which everything succeeds goes through. -/
theorem run_applyOneItem_of_succeeds {env : Env} {w : World} {item : ChangesetItem}
    {ctx : AppliedItemCtx} (h : ItemSucceeds worker env w item ctx) :
    (worker.applyOneItem item).run (handle env) w = (.ok ctx, w.itemApplied ctx) := by
  obtain ⟨key, value, hr⟩ := h.ready
  rcases run_applyOneItem_cases worker env w item with
    ⟨ctx', hs, hrun⟩ | ⟨_, _, hno, -⟩ | ⟨_, ctx', _, _, _, _, hs, -⟩
  · obtain ⟨_, _, hr'⟩ := hs.ready
    rw [hrun, (hr.unique hr').1]
  · exact absurd hr (hno _ _ _)
  · obtain ⟨rfl, -, -⟩ := hr.unique hs.ready
    exact absurd h.written hs.stop.not_allWritten

/-- The binding at which a loop stops is determined. -/
theorem StopsAfter.unique {env : Env} {n : Nat} {bs done done' : List ProviderBinding}
    {b b' : ProviderBinding} (h : StopsAfter worker env n bs done b)
    (h' : StopsAfter worker env n bs done' b') : done = done' ∧ b = b' := by
  -- of the two stops, the one that is not the first contradicts the writes before the other
  have noLater : ∀ {done done' : List ProviderBinding} {b b' : ProviderBinding},
      StopsAfter worker env n bs done b → StopsAfter worker env n bs done' b' →
      done.length < done'.length → False := by
    intro done done' b b' h h' hlt
    have hpre : done ++ [b] <+: done' :=
      List.prefix_of_prefix_length_le h.isPrefix
        ((List.prefix_append done' [b']).trans h'.isPrefix) (by simp; omega)
    obtain ⟨hu, hc⟩ := (allWritten_iff worker).mp h'.written
    rcases h.stop with hs | hs
    · exact hs (hu b (hpre.subset (by simp)))
    · exact hs (hc _ hlt)
  have hlen : done.length = done'.length := by
    rcases Nat.lt_trichotomy done.length done'.length with hlt | heq | hgt
    · exact (noLater h h' hlt).elim
    · exact heq
    · exact (noLater h' h hgt).elim
  have heq : done ++ [b] = done' ++ [b'] :=
    (List.prefix_of_prefix_length_le h.isPrefix h'.isPrefix (by simp [hlen])).eq_of_length
      (by simp [hlen])
  simpa using List.append_inj heq hlen

/-- An item that stops does so with an error, in the world that its stop determines. -/
theorem run_applyOneItem_of_stops {env : Env} {w : World} {item : ChangesetItem}
    {ctx : AppliedItemCtx} {key : RecordKey} {value : Option ProviderRecord}
    {done : List ProviderBinding} {b : ProviderBinding}
    (h : ItemStops worker env w item ctx key value done b) :
    ∃ e, (worker.applyOneItem item).run (handle env) w =
      (.error e, w.itemStopped worker env done b key value) := by
  rcases run_applyOneItem_cases worker env w item with
    ⟨ctx', hs, -⟩ | ⟨_, _, hno, -⟩ | ⟨e, ctx', _, _, _, _, hs, hrun⟩
  · obtain ⟨_, _, hr⟩ := hs.ready
    obtain ⟨rfl, -, -⟩ := h.ready.unique hr
    exact absurd hs.written h.stop.not_allWritten
  · exact absurd h.ready (hno _ _ _)
  · obtain ⟨rfl, rfl, rfl⟩ := h.ready.unique hs.ready
    obtain ⟨rfl, rfl⟩ := h.stop.unique worker hs.stop
    exact ⟨e, hrun⟩

/-! ## A list of items -/

/-- The items go through one after another, leaving the contexts for a rollback. -/
inductive ItemsSucceed (env : Env) : World → List ChangesetItem → List AppliedItemCtx → Prop
  | nil (w : World) : ItemsSucceed env w [] []
  | cons {w : World} {item : ChangesetItem} {items : List ChangesetItem} {ctx : AppliedItemCtx}
      {ctxs : List AppliedItemCtx} (head : ItemSucceeds worker env w item ctx)
      (tail : ItemsSucceed env (w.itemApplied ctx) items ctxs) :
      ItemsSucceed env w (item :: items) (ctx :: ctxs)

/-- The world after a list of items has gone through. -/
def World.itemsApplied (w : World) (ctxs : List AppliedItemCtx) : World :=
  ctxs.foldl itemApplied w

omit [CryptoLib] [SerdeJson] in
theorem World.itemsApplied_cons (w : World) (ctx : AppliedItemCtx) (ctxs : List AppliedItemCtx) :
    w.itemsApplied (ctx :: ctxs) = (w.itemApplied ctx).itemsApplied ctxs := rfl

omit [CryptoLib] [SerdeJson] in
@[simp] theorem World.db_itemsApplied (w : World) (ctxs : List AppliedItemCtx) :
    (w.itemsApplied ctxs).db = w.db := by
  induction ctxs generalizing w with
  | nil => rfl
  | cons ctx ctxs ih => rw [itemsApplied_cons, ih]; rfl

omit [CryptoLib] [SerdeJson] in
@[simp] theorem World.readings_itemsApplied (w : World) (ctxs : List AppliedItemCtx) :
    (w.itemsApplied ctxs).readings = w.readings := by
  induction ctxs generalizing w with
  | nil => rfl
  | cons ctx ctxs ih => rw [itemsApplied_cons, ih]; rfl

omit [CryptoLib] [SerdeJson] in
/-- Items that have gone through have performed their writes in order. -/
theorem World.contents_itemsApplied (w : World) (ctxs : List AppliedItemCtx) :
    (w.itemsApplied ctxs).contents = Write.execAll (applyPlan w.db ctxs) w.contents := by
  induction ctxs generalizing w with
  | nil => rfl
  | cons ctx ctxs ih =>
    rw [itemsApplied_cons, ih, applyPlan_cons, Write.execAll_append]
    rfl

/-- Items that succeed are applied, and the loop goes on with those after them. -/
theorem run_applyItems_append {env : Env} {w : World} {pre : List ChangesetItem}
    {ctxs : List AppliedItemCtx} (h : ItemsSucceed worker env w pre ctxs)
    (post : List ChangesetItem) (applied : List AppliedItemCtx) :
    (worker.applyItems (pre ++ post) applied).run (handle env) w =
      (worker.applyItems post (applied ++ ctxs)).run (handle env) (w.itemsApplied ctxs) := by
  induction h generalizing applied with
  | nil w => simp [World.itemsApplied]
  | cons head tail ih =>
    simp only [List.cons_append, ReconcileWorker.applyItems, Prog.run_bind, Prog.run_attempt,
      run_applyOneItem_of_succeeds worker head]
    rw [ih, List.append_assoc]
    rfl

/-- An item that returns `Ok` has gone through. -/
theorem run_applyOneItem_ok {env : Env} {w w' : World} {item : ChangesetItem}
    {ctx : AppliedItemCtx} (h : (worker.applyOneItem item).run (handle env) w = (.ok ctx, w')) :
    ItemSucceeds worker env w item ctx ∧ w' = w.itemApplied ctx := by
  rcases run_applyOneItem_cases worker env w item with
    ⟨ctx', hs, hrun⟩ | ⟨_, _, -, hrun⟩ | ⟨_, _, _, _, _, _, -, hrun⟩
  · cases h.symm.trans hrun
    exact ⟨hs, rfl⟩
  · cases h.symm.trans hrun
  · cases h.symm.trans hrun

/-- Either all items go through, or the loop stops with the error of the first that does not,
    keeping the contexts of those before it. -/
theorem run_applyItems_cases (env : Env) (w : World) (items : List ChangesetItem)
    (applied : List AppliedItemCtx) :
    (∃ ctxs, ItemsSucceed worker env w items ctxs ∧
      (worker.applyItems items applied).run (handle env) w =
        (.ok (applied ++ ctxs), w.itemsApplied ctxs)) ∨
    ∃ pre item post ctxs e w', items = pre ++ item :: post ∧ ItemsSucceed worker env w pre ctxs ∧
      (worker.applyOneItem item).run (handle env) (w.itemsApplied ctxs) = (.error e, w') ∧
      (worker.applyItems items applied).run (handle env) w = (.error (applied ++ ctxs, e), w') := by
  induction items generalizing w applied with
  | nil =>
    refine Or.inl ⟨[], .nil w, ?_⟩
    simp only [ReconcileWorker.applyItems, Prog.run_pure, List.append_nil]
    rfl
  | cons item items ih =>
    simp only [ReconcileWorker.applyItems, Prog.run_bind, Prog.run_attempt]
    cases hrun : (worker.applyOneItem item).run (handle env) w with
    | mk r w₁ =>
    cases r with
    | error e =>
      refine Or.inr ⟨[], item, items, [], e, w₁, rfl, .nil w, hrun, ?_⟩
      simp only [Prog.run_throw, List.append_nil]
    | ok ctx =>
      obtain ⟨hs, rfl⟩ := run_applyOneItem_ok worker hrun
      rcases ih (w.itemApplied ctx) (applied ++ [ctx]) with
        ⟨ctxs, hs', h⟩ | ⟨pre, it, post, ctxs, e, w', rfl, hs', h, h'⟩
      · refine Or.inl ⟨ctx :: ctxs, .cons hs hs', ?_⟩
        rw [h, List.append_assoc]
        rfl
      · refine Or.inr ⟨item :: pre, it, post, ctx :: ctxs, e, w', rfl, .cons hs hs', h, ?_⟩
        rw [h', List.append_assoc]
        rfl

/-- Every context of items that succeed comes from one of the items, and has a write on the
    bindings of its zone, all of them usable. -/
theorem ItemsSucceed.of_mem {env : Env} {w : World} {items : List ChangesetItem}
    {ctxs : List AppliedItemCtx} (h : ItemsSucceed worker env w items ctxs)
    {ctx : AppliedItemCtx} (hctx : ctx ∈ ctxs) :
    (∃ item ∈ items, resolve w.db item = some ctx) ∧ ctx.write ≠ none ∧
      ∀ b ∈ w.db.activeBindings ctx.zoneId, worker.Usable b := by
  induction h with
  | nil w => cases hctx
  | cons head tail ih =>
    rcases List.mem_cons.mp hctx with rfl | hmem
    · obtain ⟨key, value, hr⟩ := head.ready
      refine ⟨⟨_, List.mem_cons_self, hr.resolved⟩, ?_, ?_⟩
      · rw [hr.write]; exact Option.some_ne_none _
      · exact ((allWritten_iff worker).mp head.written).1
    · obtain ⟨⟨it, hit, hr⟩, hrest⟩ := ih hmem
      exact ⟨⟨it, List.mem_cons_of_mem _ hit, hr⟩, hrest⟩

/-- There is a context for each item. -/
theorem ItemsSucceed.length_eq {env : Env} {w : World} {items : List ChangesetItem}
    {ctxs : List AppliedItemCtx} (h : ItemsSucceed worker env w items ctxs) :
    items.length = ctxs.length := by
  induction h with
  | nil w => rfl
  | cons head tail ih => rw [List.length_cons, List.length_cons, ih]

/-! ## Rolling back -/

/-- The rollback of an item goes through: its binding query succeeds, all bindings are
    usable and, if the item has an inverse write, all calls succeed. -/
structure UndoSucceeds (env : Env) (w : World) (ctx : AppliedItemCtx) : Prop where
  bindingQuery : env.queries w.queries = none
  usable : ∀ b ∈ w.db.activeBindings ctx.zoneId, worker.Usable b
  written : ctx.undo ≠ none → AllWritten worker env w.calls (w.db.activeBindings ctx.zoneId)

/-- The world after an item was rolled back. -/
def World.itemUndone (w : World) (ctx : AppliedItemCtx) : World :=
  { w with
    contents := Write.execAll (ctx.undoWrites w.db) w.contents
    queries := w.queries + 1
    calls := w.calls + (ctx.undoWrites w.db).length }

/-- A loop that only asks for usable bindings changes nothing. -/
private theorem run_forM_usable {f : ProviderBinding → WorkerM Unit} {env : Env}
    (hf : ∀ b w, if worker.Usable b then (f b).run (handle env) w = (.ok (), w)
      else ∃ e, (f b).run (handle env) w = (.error e, w))
    (bs : List ProviderBinding) (w : World) :
    ((∀ b ∈ bs, worker.Usable b) ∧ (forM bs f).run (handle env) w = (.ok (), w)) ∨
    (¬ (∀ b ∈ bs, worker.Usable b) ∧ ∃ e, (forM bs f).run (handle env) w = (.error e, w)) := by
  induction bs with
  | nil => exact Or.inl ⟨by simp, rfl⟩
  | cons b bs ih =>
    have hb := hf b w
    simp only [List.forM_cons, Prog.run_bind, List.forall_mem_cons]
    by_cases hu : worker.Usable b
    · rw [if_pos hu] at hb
      simp only [hb, hu, true_and]
      exact ih
    · rw [if_neg hu] at hb
      obtain ⟨e, he⟩ := hb
      exact Or.inr ⟨fun h => hu h.1, e, by rw [he]⟩

/-- The rollback of an item goes through, exactly when `UndoSucceeds`, or ends with an error. -/
theorem run_rollbackOneItem_cases (env : Env) (w : World) (ctx : AppliedItemCtx) :
    (UndoSucceeds worker env w ctx ∧
      (worker.rollbackOneItem ctx).run (handle env) w = (.ok (), w.itemUndone ctx)) ∨
    (¬ UndoSucceeds worker env w ctx ∧
      ∃ e w', (worker.rollbackOneItem ctx).run (handle env) w = (.error e, w')) := by
  unfold ReconcileWorker.rollbackOneItem
  simp only [Prog.run_bind, run_issue, handle, Prog.run_liftExcept]
  cases hq : env.queries w.queries with
  | some e =>
    simp only [World.query_of_some hq]
    refine Or.inr ⟨fun h => ?_, e, _, rfl⟩
    cases hq.symm.trans h.bindingQuery
  | none =>
  simp only [World.query_of_none hq]
  -- an item without an inverse still looks up the adapter and the credentials of each binding
  cases hu : ctx.undo with
  | none =>
    rcases run_forM_usable worker (run_rollbackOnBinding_of_undo_none worker hu · env ·)
      (w.db.activeBindings ctx.zoneId) { w with queries := w.queries + 1 } with
      ⟨hus, hrun⟩ | ⟨hus, e, hrun⟩
    · refine Or.inl ⟨⟨hq, hus, fun h => absurd hu h⟩, ?_⟩
      rw [hrun]
      simp only [World.itemUndone, AppliedItemCtx.undoWrites, hu, Database.onBindings,
        Write.execAll_nil, List.length_nil, Nat.add_zero]
    · exact Or.inr ⟨fun h => hus h.usable, e, _, hrun⟩
  | some kv =>
    obtain ⟨key, value⟩ := kv
    rcases run_forM_writesTo worker (writesTo_rollbackOnBinding worker hu)
      (w.db.activeBindings ctx.zoneId) env { w with queries := w.queries + 1 } with
      ⟨hall, hrun⟩ | ⟨done, b, e, hs, hrun⟩
    · refine Or.inl ⟨⟨hq, ((allWritten_iff worker).mp hall).1, fun _ => hall⟩, ?_⟩
      rw [hrun]
      simp only [World.wrote, World.itemUndone, AppliedItemCtx.undoWrites, hu,
        Database.onBindings, Write.broadcast, List.length_map]
    · refine Or.inr ⟨fun h => hs.not_allWritten worker (h.written ?_), e, _, hrun⟩
      rw [hu]; exact Option.some_ne_none _

/-- The rollbacks of the items go through one after another. -/
inductive UndosSucceed (env : Env) : World → List AppliedItemCtx → Prop
  | nil (w : World) : UndosSucceed env w []
  | cons {w : World} {ctx : AppliedItemCtx} {ctxs : List AppliedItemCtx}
      (head : UndoSucceeds worker env w ctx) (tail : UndosSucceed env (w.itemUndone ctx) ctxs) :
      UndosSucceed env w (ctx :: ctxs)

/-- The world after items were rolled back in the given order. -/
def World.itemsUndone (w : World) (ctxs : List AppliedItemCtx) : World :=
  ctxs.foldl itemUndone w

omit [CryptoLib] [SerdeJson] in
@[simp] theorem World.db_itemsUndone (w : World) (ctxs : List AppliedItemCtx) :
    (w.itemsUndone ctxs).db = w.db := by
  induction ctxs generalizing w with
  | nil => rfl
  | cons ctx ctxs ih => exact ih _

omit [CryptoLib] [SerdeJson] in
/-- Items that were rolled back have had their inverse writes performed in that order. -/
theorem World.contents_itemsUndone (w : World) (ctxs : List AppliedItemCtx) :
    (w.itemsUndone ctxs).contents =
      Write.execAll (ctxs.flatMap (·.undoWrites w.db)) w.contents := by
  induction ctxs generalizing w with
  | nil => rfl
  | cons ctx ctxs ih =>
    rw [List.flatMap_cons, Write.execAll_append]
    exact ih _

/-- A rollback gets through, exactly when `UndosSucceed` from the last item to the first,
    or ends with an error. -/
theorem run_rollbackItems_cases (env : Env) (w : World) (applied : List AppliedItemCtx) :
    (UndosSucceed worker env w applied.reverse ∧ (worker.rollbackItems applied).run (handle env) w =
      (.ok (), w.itemsUndone applied.reverse)) ∨
    (¬ UndosSucceed worker env w applied.reverse ∧
      ∃ e w', (worker.rollbackItems applied).run (handle env) w = (.error e, w')) := by
  unfold ReconcileWorker.rollbackItems
  generalize applied.reverse = ctxs
  induction ctxs generalizing w with
  | nil => exact Or.inl ⟨.nil w, rfl⟩
  | cons ctx ctxs ih =>
    simp only [List.forM_cons, Prog.run_bind]
    rcases run_rollbackOneItem_cases worker env w ctx with ⟨hs, hrun⟩ | ⟨hn, e, w', hrun⟩
    · rw [hrun]
      rcases ih (w.itemUndone ctx) with ⟨hs', hrun'⟩ | ⟨hn', e, w', hrun'⟩
      · exact Or.inl ⟨.cons hs hs', hrun'⟩
      · exact Or.inr ⟨fun h => (by cases h with | cons _ tail => exact hn' tail), e, w', hrun'⟩
    · rw [hrun]
      exact Or.inr ⟨fun h => (by cases h with | cons head _ => exact hn head), e, w', rfl⟩

/-- A rollback that gets through has performed its plan. -/
theorem run_rollbackItems_ok {env : Env} {w w' : World} {applied : List AppliedItemCtx}
    (h : (worker.rollbackItems applied).run (handle env) w = (.ok (), w')) :
    w'.db = w.db ∧ w'.contents = Write.execAll (rollbackPlan w.db applied) w.contents := by
  rcases run_rollbackItems_cases worker env w applied with ⟨-, hrun⟩ | ⟨-, e, _, hrun⟩
  · cases h.symm.trans hrun
    exact ⟨World.db_itemsUndone _ _, World.contents_itemsUndone _ _⟩
  · exact nomatch h.symm.trans hrun

end DnsManager
