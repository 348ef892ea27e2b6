import DnsManager.Spec.ChangesetCreation
import DnsManager.Spec.Confinement
import DnsManager.Spec.Sample

/-!
# The apply loop performs the items

An apply that returns `Ok` leaves every provider zone as the reference fold of the items
over what it held before: the last item of the zone that writes a key decides it. A
complete apply after an interrupted one ends in the same contents.

## Key results
- `run_applyItems_ok`: what an apply that returns `Ok` has written.
- `execAll_itemWrites`: these writes are the reference fold.
- `applyItems_eq_referenceFold`: the two together, for the items of an accepted change set.
-/

namespace DnsManager

section Reference

variable [SerdeJson]

/-- What a write on the zone of the item, its own or its inverse, makes of a key of a zone:
    `some none` removes it, `none` leaves it alone. -/
def AppliedItemCtx.valueAt (ctx : AppliedItemCtx) (write : Option (RecordKey × Option ProviderRecord))
    (zoneId : String) (key : RecordKey) : Option (Option ProviderRecord) :=
  match write with
  | some (k, value) => if ctx.zoneId = zoneId ∧ k = key then some value else none
  | none => none

/-- What applying the item makes of a key of a zone. -/
def itemValue (db : Database) (zoneId : String) (key : RecordKey) (item : ChangesetItem) :
    Option (Option ProviderRecord) :=
  (resolve db item).bind fun ctx => ctx.valueAt ctx.write zoneId key

/-- The reference: the last item of the zone that writes the key decides what it holds. -/
def referenceFold (db : Database) (items : List ChangesetItem) (zoneId : String)
    (key : RecordKey) (init : Option ProviderRecord) : Option ProviderRecord :=
  (items.reverse.findSome? (itemValue db zoneId key)).getD init

/-- The fold over a list starts from what its first item makes of the key. -/
theorem referenceFold_cons (db : Database) (item : ChangesetItem) (items : List ChangesetItem)
    (zoneId : String) (key : RecordKey) (init : Option ProviderRecord) :
    referenceFold db (item :: items) zoneId key init =
      referenceFold db items zoneId key ((itemValue db zoneId key item).getD init) := by
  simp only [referenceFold, List.reverse_cons, List.findSome?_append, List.findSome?_cons,
    List.findSome?_nil]
  cases items.reverse.findSome? (itemValue db zoneId key) with
  | some value => rfl
  | none => cases itemValue db zoneId key item <;> rfl

omit [SerdeJson] in
/-- An active binding is one of its own zone only. -/
theorem mem_activeIds {db : Database} {zoneId zoneId' : String} {b : ProviderBinding}
    (hb : b ∈ db.activeBindings zoneId) :
    b.id ∈ (db.activeBindings zoneId').map (·.id) ↔ zoneId' = zoneId := by
  have hb' := Database.mem_activeBindings.mp hb
  constructor
  · intro h
    obtain ⟨b', hmem, hid⟩ := List.mem_map.mp h
    have hmem' := Database.mem_activeBindings.mp hmem
    rw [← hmem'.2.1, ← hb'.2.1, Table.eq_of_key_eq hmem'.1 hb'.1 hid]
  · rintro rfl
    exact List.mem_map_of_mem hb

omit [SerdeJson] in
/-- A write on all bindings of a zone, at a key of an active binding. -/
theorem execAll_onBindings {db : Database} {zoneId : String} {b : ProviderBinding}
    (hb : b ∈ db.activeBindings zoneId) (ctx : AppliedItemCtx)
    (write : Option (RecordKey × Option ProviderRecord)) (σ : Contents) (key : RecordKey) :
    Write.execAll (db.onBindings ctx.zoneId write) σ b.id key =
      (ctx.valueAt write zoneId key).getD (σ b.id key) := by
  cases write with
  | none => rfl
  | some kv =>
    simp only [Database.onBindings, Write.execAll_broadcast, mem_activeIds hb,
      AppliedItemCtx.valueAt]
    by_cases hk : ctx.zoneId = zoneId ∧ kv.1 = key <;> simp [hk]

/-- The writes of one item, at a key of an active binding. -/
theorem execAll_itemWrites_one {db : Database} {zoneId : String} {b : ProviderBinding}
    (hb : b ∈ db.activeBindings zoneId) (item : ChangesetItem) (σ : Contents) (key : RecordKey) :
    Write.execAll (itemWrites db item) σ b.id key =
      (itemValue db zoneId key item).getD (σ b.id key) := by
  unfold itemWrites itemValue
  cases resolve db item with
  | none => rfl
  | some ctx => exact execAll_onBindings hb ctx ctx.write σ key

/-- Performing the writes of all items is the reference fold. -/
theorem execAll_itemWrites {db : Database} {zoneId : String} {b : ProviderBinding}
    (hb : b ∈ db.activeBindings zoneId) (items : List ChangesetItem) (σ : Contents)
    (key : RecordKey) :
    Write.execAll (items.flatMap (itemWrites db)) σ b.id key =
      referenceFold db items zoneId key (σ b.id key) := by
  induction items generalizing σ with
  | nil => rfl
  | cons item items ih =>
    rw [List.flatMap_cons, Write.execAll_append, ih, execAll_itemWrites_one hb,
      referenceFold_cons]

/-- Nothing is written on a binding that is not active in the zone of an item. -/
theorem not_touches_itemWrites {db : Database} {items : List ChangesetItem} {id : String}
    (h : ∀ item ∈ items, ∀ zoneId, db.zoneOf item.recordId = some zoneId →
      id ∉ (db.activeBindings zoneId).map (·.id)) (key : RecordKey) :
    ¬ Write.Touches (items.flatMap (itemWrites db)) id key := by
  rw [Write.touches_flatMap]
  rintro ⟨item, hitem, ht⟩
  unfold itemWrites at ht
  split at ht
  · next ctx hres =>
    -- an item that resolves is written on the bindings of the zone of its record
    have hzone : db.zoneOf item.recordId = some ctx.zoneId := by
      simp only [resolve, Option.bind_eq_bind, Option.bind_eq_some_iff] at hres
      obtain ⟨zoneId, hz, _, -, _, -, heq⟩ := hres
      cases heq
      exact hz
    unfold AppliedItemCtx.applyWrites Database.onBindings at ht
    split at ht
    · exact h item hitem _ hzone (Write.touches_broadcast.mp ht).1
    · exact Write.touches_nil _ _ ht
  · exact Write.touches_nil _ _ ht

end Reference

section Worker

variable [CryptoLib] [SerdeJson] (worker : ReconcileWorker)

/-- The plan of the contexts is the writes of the items. -/
theorem ItemsSucceed.applyPlan_eq {env : Env} {w : World} {items : List ChangesetItem}
    {ctxs : List AppliedItemCtx} (h : ItemsSucceed worker env w items ctxs) :
    applyPlan w.db ctxs = items.flatMap (itemWrites w.db) := by
  induction h with
  | nil w => rfl
  | @cons w item items ctx ctxs head tail ih =>
    obtain ⟨key, value, hr⟩ := head.ready
    have hitem : itemWrites w.db item = ctx.applyWrites w.db := by
      simp only [itemWrites, hr.resolved]
    rw [List.flatMap_cons, hitem, applyPlan_cons]
    exact congrArg _ ih

/-- An apply that returns `Ok` has performed the writes of all items in order. -/
theorem run_applyItems_ok {env : Env} {w w' : World} {items : List ChangesetItem}
    {ctxs : List AppliedItemCtx}
    (h : (worker.applyItems items []).run (handle env) w = (.ok ctxs, w')) :
    ItemsSucceed worker env w items ctxs ∧ w' = w.itemsApplied ctxs ∧
      w'.contents = Write.execAll (items.flatMap (itemWrites w.db)) w.contents := by
  rcases run_applyItems_cases worker env w items [] with
    ⟨ctxs', hs, hrun⟩ | ⟨_, _, _, _, _, _, -, -, -, hrun⟩
  · rw [List.nil_append] at hrun
    cases h.symm.trans hrun
    refine ⟨hs, rfl, ?_⟩
    rw [World.contents_itemsApplied, hs.applyPlan_eq]
  · exact nomatch h.symm.trans hrun

/-- When the items of an accepted change set are applied without an error, every active
    binding holds the reference fold of the items, in the order of the request, over what it
    held before, and every other binding is unchanged. A complete apply that follows an
    interrupted one ends in the same contents. -/
theorem applyItems_eq_referenceFold {db db' : Database} {id now : String}
    {body : CreateChangesetRequest} (hcreate : createChangeset db id now body = .ok db')
    {w : World} (hitems : w.db.items id = db'.items id) {env : Env}
    {ctxs : List AppliedItemCtx} {w' : World}
    (hrun : (worker.applyItems (w.db.items id) []).run (handle env) w = (.ok ctxs, w')) :
    ∃ rows, body.items.mapM (itemRow id) = .ok rows ∧
      (∀ zoneId, ∀ b ∈ w.db.activeBindings zoneId, ∀ key,
        w'.contents b.id key = referenceFold w.db rows zoneId key (w.contents b.id key)) ∧
      (∀ bindingId, (∀ item ∈ rows, ∀ zoneId, w.db.zoneOf item.recordId = some zoneId →
          bindingId ∉ (w.db.activeBindings zoneId).map (·.id)) →
        ∀ key, w'.contents bindingId key = w.contents bindingId key) ∧
      ∀ env₀ n env₁ ctxs₁ w₁, (worker.applyItems (w.db.items id) []).run (handle env₁)
          (Prog.runFor (handle env₀) n (worker.applyItems (w.db.items id) []) w) =
            (.ok ctxs₁, w₁) →
        w₁.contents = w'.contents := by
  have hcontents := (run_applyItems_ok worker hrun).2.2
  refine ⟨w.db.items id, hitems ▸ (createChangeset_ok hcreate).1, ?_, ?_, ?_⟩
  · intro zoneId b hb key
    rw [hcontents, execAll_itemWrites hb]
  · intro bindingId hno key
    rw [hcontents, Write.execAll_of_not_touches (not_touches_itemWrites hno key)]
  · intro env₀ n env₁ ctxs₁ w₁ hrun₁
    -- the interrupted run has left some of the same writes: replaying all of them covers it
    have hconf := runFor_applyItems worker env₀ n (w.db.items id) [] w
    rw [(run_applyItems_ok worker hrun₁).2.2, hcontents, hconf.db]
    exact Write.execAll_congr hconf.contents

end Worker

section Sample

open Sample

/-- Two items that write the same key. -/
private def twice : List CreateChangesetItemRequest :=
  [item "r1" "create" none (some (www "192.0.2.1")), item "r2" "create" none (some (www "192.0.2.2"))]

private def twiceWorld : World :=
  { db := created twice (by decide +kernel), contents := fun _ _ => none }

/-- Of two items that write the same key, the one the client gave last decides. -/
theorem applyItems_eq_referenceFold_twice :
    ((worker.applyItems (twiceWorld.db.items "c1") []).run (handle (env fun _ => .ok))
      twiceWorld).2.contents "b2" ⟨"www", .a⟩ = some (www "192.0.2.2") := by
  have hrun := eq_ok_get ((worker.applyItems (twiceWorld.db.items "c1") []).run
    (handle (env fun _ => .ok)) twiceWorld).1 (by decide +kernel)
  obtain ⟨rows, hrows, hbindings, -, -⟩ := applyItems_eq_referenceFold worker
    (eq_ok_get _ _) (rfl : twiceWorld.db.items "c1" = _) (Prod.ext hrun rfl)
  have hb : binding "b2" "Z2" ∈ twiceWorld.db.activeBindings "z1" := by decide +kernel
  obtain rfl : twiceWorld.db.items "c1" = rows :=
    Except.ok.inj ((createChangeset_ok (eq_ok_get _ _)).1.symm.trans hrows)
  exact (hbindings "z1" _ hb ⟨"www", .a⟩).trans (by decide +kernel)

end Sample

end DnsManager
