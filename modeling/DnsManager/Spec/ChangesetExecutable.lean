import DnsManager.Spec.ChangesetCreation
import DnsManager.Spec.ItemEffect
import DnsManager.Spec.Sample

/-!
# Which accepted change sets can be applied

`create_changeset` looks at the operation of an item and at the presence of its values;
`apply_one_item` reads the values as records and needs one for every operation. Between the
two, `validate_changeset` looks at neither.

## Key results
- `items_validateChangeset`: validation leaves the items alone.
- `exists_itemReady_iff`: an item with bindings can be written exactly when it is `Executable`.
- `accepted_executable_iff`: with usable bindings and calls that succeed, all items of an
  accepted change set are applied exactly when all of them are `Executable`.
-/

namespace DnsManager

section Executable

variable [SerdeJson]

/-- The worker reads the stored text of the value as a record. -/
def ReadsAsRecord (value : SerdeJson.Value) : Prop :=
  ∀ text, SerdeJson.valueToString value = .ok text →
    ∃ record, SerdeJson.recordFromStr text = .ok record

/-- What the worker needs of an item and the API does not check. -/
structure CreateChangesetItemRequest.Executable (item : CreateChangesetItemRequest) : Prop where
  updateAfter : item.operation = "update" → item.afterValue.isSome = true
  beforeReads : ∀ value ∈ item.beforeValue, ReadsAsRecord value
  afterReads : ∀ value ∈ item.afterValue, ReadsAsRecord value

/-- What the checks of `create_changeset` leave of an item. -/
theorem validateItem_ok {item : CreateChangesetItemRequest} (h : validateItem item = .ok ()) :
    item.operation ∈ ["create", "update", "delete"] ∧
      (item.operation = "create" → item.afterValue.isSome = true) ∧
      (item.operation = "delete" → item.beforeValue.isSome = true) := by
  unfold validateItem at h
  split at h
  · cases h
  next hop =>
  split at h
  · cases h
  next hafter =>
  split at h
  · cases h
  next hbefore =>
  refine ⟨not_not.mp hop, fun hcreate => ?_, fun hdelete => ?_⟩
  · exact Option.isSome_iff_ne_none.mpr fun hnone => hafter ⟨hcreate, by rw [hnone]; rfl⟩
  · exact Option.isSome_iff_ne_none.mpr fun hnone => hbefore ⟨hdelete, by rw [hnone]; rfl⟩

/-- A stored value is there when the submitted one was. -/
theorem isSome_of_serializeValue {column : String} {value : Option SerdeJson.Value}
    {text : Option String} (h : serializeValue column value = .ok text) :
    text.isSome = value.isSome := by
  cases value with
  | none =>
    cases h
    rfl
  | some v =>
    obtain ⟨t, -, rfl⟩ := Except.map_eq_ok.mp (Except.mapError_eq_ok.mp h)
    rfl

/-- A parsed record is there when its column was. -/
theorem isSome_of_parseRecord {column : String} {text : Option String}
    {record : Option ProviderRecord} (h : ReconcileWorker.parseRecord column text = .ok record) :
    record.isSome = text.isSome := by
  cases text with
  | none =>
    cases h
    rfl
  | some t =>
    obtain ⟨r, -, rfl⟩ := Except.map_eq_ok.mp (Except.mapError_eq_ok.mp h)
    rfl

/-- A value that was stored is parsed exactly when it reads as a record. -/
theorem parseRecord_serialized {column column' : String} {value : Option SerdeJson.Value}
    {text : Option String} (h : serializeValue column value = .ok text) :
    (∃ record, ReconcileWorker.parseRecord column' text = .ok record) ↔
      ∀ v ∈ value, ReadsAsRecord v := by
  cases value with
  | none =>
    cases h
    exact ⟨fun _ _ hv => (nomatch hv), fun _ => ⟨none, rfl⟩⟩
  | some v =>
    obtain ⟨t, ht, rfl⟩ := Except.map_eq_ok.mp (Except.mapError_eq_ok.mp h)
    -- both sides are about the one text `to_string` gives
    constructor
    · rintro ⟨record, hrecord⟩ v' hv' t' ht'
      cases hv'
      obtain rfl : t = t' := Except.ok.inj (ht.symm.trans ht')
      obtain ⟨r, hr, -⟩ := Except.map_eq_ok.mp (Except.mapError_eq_ok.mp hrecord)
      exact ⟨r, hr⟩
    · intro hreads
      obtain ⟨r, hr⟩ := hreads v rfl t ht
      exact ⟨some r, Except.mapError_eq_ok.mpr (Except.map_eq_ok.mpr ⟨r, hr, rfl⟩)⟩

omit [SerdeJson] in
/-- What a context writes is there when the value its operation takes is. -/
theorem AppliedItemCtx.write_ne_none_iff {ctx : AppliedItemCtx}
    (hop : ctx.operation ∈ ["create", "update", "delete"]) :
    ctx.write ≠ none ↔
      (ctx.operation ≠ "delete" → ctx.afterRecord.isSome = true) ∧
      (ctx.operation = "delete" → ctx.beforeRecord.isSome = true) := by
  simp only [List.mem_cons, List.not_mem_nil, or_false] at hop
  rcases hop with h | h | h <;> simp [AppliedItemCtx.write, h, Option.isSome_iff_ne_none]

/-- The stored row of an accepted item is resolved, with a write, exactly when the item is
    executable. -/
theorem exists_write_iff {db : Database} {id zoneId : String} {item : CreateChangesetItemRequest}
    {row : ChangesetItem} (hrow : itemRow id item = .ok row) (hvalid : validateItem item = .ok ())
    (hzone : db.zoneOf row.recordId = some zoneId) :
    (∃ ctx, resolve db row = some ctx ∧ ctx.zoneId = zoneId ∧ ctx.write ≠ none) ↔
      item.Executable := by
  obtain ⟨-, -, hop, hbefore, hafter⟩ := itemRow_ok hrow
  obtain ⟨hmem, hcreate, hdelete⟩ := validateItem_ok hvalid
  -- a parsed column holds a record exactly where the request has a value
  have hsome : ∀ {column column' value text record}, serializeValue column value = .ok text →
      ReconcileWorker.parseRecord column' text = .ok record → record.isSome = value.isSome :=
    fun hs hp => (isSome_of_parseRecord hp).trans (isSome_of_serializeValue hs)
  constructor
  · rintro ⟨ctx, hres, -, hwrite⟩
    simp only [resolve, hzone, Option.bind_eq_bind, Option.bind_some, Option.bind_eq_some_iff,
      Except.toOption_eq_some] at hres
    obtain ⟨after, hparse, before, hparse', heq⟩ := hres
    cases heq
    have hneed := (AppliedItemCtx.write_ne_none_iff (by rwa [← hop] at hmem)).mp hwrite
    refine ⟨fun hupdate => ?_, (parseRecord_serialized hbefore).mp ⟨_, hparse'⟩,
      (parseRecord_serialized hafter).mp ⟨_, hparse⟩⟩
    rw [← hsome hafter hparse]
    refine hneed.1 fun (hdel : row.operation = "delete") => ?_
    rw [hop, hupdate] at hdel
    exact absurd hdel (by decide)
  · intro h
    obtain ⟨before, hparse'⟩ : ∃ record, ReconcileWorker.parseRecord "before_value"
        row.beforeValue = .ok record := (parseRecord_serialized hbefore).mpr h.beforeReads
    obtain ⟨after, hparse⟩ : ∃ record, ReconcileWorker.parseRecord "after_value"
        row.afterValue = .ok record := (parseRecord_serialized hafter).mpr h.afterReads
    refine ⟨⟨zoneId, row.operation, before, after⟩, ?_, rfl, ?_⟩
    · simp [resolve, hzone, hparse, hparse', Except.toOption]
    · rw [AppliedItemCtx.write_ne_none_iff (by rw [hop]; exact hmem)]
      refine ⟨fun hne => ?_, fun hdel => ?_⟩
      · -- an operation other than `delete` is `create` or `update`
        rw [hsome hafter hparse]
        simp only [hop, List.mem_cons, List.not_mem_nil, or_false] at hne hmem
        rcases hmem with hc | hu | hd
        · exact hcreate hc
        · exact h.updateAfter hu
        · exact absurd hd hne
      · rw [hsome hbefore hparse']
        exact hdelete (hop ▸ hdel)

end Executable

/-! ## Validation -/

/-- No command touches the items. -/
theorem changesetItems_handle (env : Env) (c : Cmd) (w : World) :
    (handle env c w).2.db.changesetItems = w.db.changesetItems := by
  rcases handle_db env c w with hdb | ⟨id, guard, status, now, hdb⟩
  · rw [hdb]
  · rw [hdb]
    rfl

/-- Validation leaves the items alone, whatever its outcome. -/
theorem items_validateChangeset [SerdeJson] (env : Env) (id id' : String) (w : World) :
    ((validateChangeset id).run (handle env) w).2.db.items id' = w.db.items id' := by
  have hframe := Prog.run_frame (h := handle env) (f := fun w => w.db.changesetItems)
    (p := validateChangeset id) (s := w) fun c _ w' => changesetItems_handle env c w'
  simp only [Database.items, hframe]

/-! ## The items of an accepted change set -/

section Worker

variable [CryptoLib] [SerdeJson] (worker : ReconcileWorker)

/-- With queries and calls that succeed and usable bindings, an item is applied exactly when
    it is resolved and has a write. -/
theorem run_applyOneItem_ok_iff {env : Env} (hqueries : ∀ n, env.queries n = none)
    (hcalls : ∀ n, env.calls n = .ok) {w : World} {item : ChangesetItem} {zoneId : String}
    (hzone : w.db.zoneOf item.recordId = some zoneId) (hne : w.db.activeBindings zoneId ≠ [])
    (husable : ∀ b ∈ w.db.activeBindings zoneId, worker.Usable b) :
    (∃ ctx w', (worker.applyOneItem item).run (handle env) w = (.ok ctx, w')) ↔
      ∃ ctx, resolve w.db item = some ctx ∧ ctx.zoneId = zoneId ∧ ctx.write ≠ none := by
  constructor
  · rintro ⟨ctx, w', hrun⟩
    obtain ⟨key, value, hready⟩ := (run_applyOneItem_ok worker hrun).1.ready
    refine ⟨ctx, hready.resolved, ?_, by rw [hready.write]; exact Option.some_ne_none _⟩
    have hres := hready.resolved
    simp only [resolve, hzone, Option.bind_eq_bind, Option.bind_some, Option.bind_eq_some_iff] at hres
    obtain ⟨_, -, _, -, heq⟩ := hres
    cases heq
    rfl
  · rintro ⟨ctx, hres, rfl, hwrite⟩
    obtain ⟨⟨key, value⟩, hkv⟩ := Option.ne_none_iff_exists'.mp hwrite
    have hready : ItemReady env w item ctx key value := ⟨hqueries _, hqueries _, hres, hkv, hne⟩
    -- every binding can be used and every call succeeds
    have hwritten : AllWritten worker env w.calls (w.db.activeBindings ctx.zoneId) :=
      (allWritten_iff worker).mpr ⟨husable, fun _ _ => hcalls _⟩
    exact ⟨ctx, _, run_applyOneItem_of_succeeds worker ⟨⟨key, value, hready⟩, hwritten⟩⟩

omit [CryptoLib] [SerdeJson] in
/-- An item of a stored change set has a record, and so a zone. -/
theorem exists_zoneOf {db : Database} {id : String} {item : ChangesetItem}
    (hitem : item ∈ db.items id) : ∃ zoneId, db.zoneOf item.recordId = some zoneId := by
  have hmem : item ∈ db.changesetItems.rows := (Table.mem_select.mp hitem).1
  obtain ⟨row, hrow, hkey⟩ := Table.mem_keys.mp (db.itemRecord item hmem)
  exact ⟨row.zoneId, by simp [Database.zoneOf, Table.find?_eq_some.mpr ⟨hrow, hkey⟩]⟩

/-- The items of a change set that was accepted and validated are all applied, in every later
    world with usable bindings for them in which nothing fails, exactly when every update has an
    `after_value` and every value reads as a record. -/
theorem accepted_executable_iff {db db' : Database} {id now : String}
    {body : CreateChangesetRequest} (hcreate : createChangeset db id now body = .ok db')
    {env₀ : Env} {w₀ : World} (hcreated : w₀.db.items id = db'.items id) {w : World}
    (hitems : w.db.items id = ((validateChangeset id).run (handle env₀) w₀).2.db.items id)
    {env : Env} (hqueries : ∀ n, env.queries n = none) (hcalls : ∀ n, env.calls n = .ok)
    (hbindings : ∀ item ∈ w.db.items id, ∀ zoneId, w.db.zoneOf item.recordId = some zoneId →
      w.db.activeBindings zoneId ≠ [] ∧ ∀ b ∈ w.db.activeBindings zoneId, worker.Usable b) :
    (∀ item ∈ w.db.items id, ∃ ctx w',
        (worker.applyOneItem item).run (handle env) w = (.ok ctx, w')) ↔
      ∀ item ∈ body.items, item.Executable := by
  obtain ⟨hrows, hvalid, -⟩ := createChangeset_ok hcreate
  have hsame : w.db.items id = db'.items id := by
    rw [hitems, items_validateChangeset, hcreated]
  rw [← hsame] at hrows
  obtain ⟨hstore, hread⟩ := Except.mapM_eq_ok_mem hrows
  -- one stored row against the item of the request it was made from
  have hone : ∀ item ∈ body.items, ∀ row ∈ w.db.items id, itemRow id item = .ok row →
      ((∃ ctx w', (worker.applyOneItem row).run (handle env) w = (.ok ctx, w')) ↔
        item.Executable) := by
    intro item hitem row hrow hstored
    obtain ⟨zoneId, hzone⟩ := exists_zoneOf hrow
    obtain ⟨hne, husable⟩ := hbindings row hrow zoneId hzone
    rw [run_applyOneItem_ok_iff worker hqueries hcalls hzone hne husable]
    exact exists_write_iff hstored (hvalid item hitem) hzone
  constructor
  · intro happlied item hitem
    obtain ⟨row, hrow, hstored⟩ := hstore item hitem
    exact (hone item hitem row hrow hstored).mp (happlied row hrow)
  · intro hexec row hrow
    obtain ⟨item, hitem, hstored⟩ := hread row hrow
    exact (hone item hitem row hrow hstored).mpr (hexec item hitem)

end Worker

section Sample

open Sample

/-- An update without an `after_value`. -/
private def bareUpdate : List CreateChangesetItemRequest :=
  [item "r1" "update" (some (www "192.0.2.1")) none]

/-- The world after such a change set was created and validated. -/
private def bareUpdateWorld : World :=
  ((validateChangeset "c1").run (handle (env fun _ => .ok))
    { db := created bareUpdate (by decide +kernel), contents := fun _ _ => none }).2

/-- An update without an `after_value` is accepted and validated, and then it cannot be applied,
    although both bindings are usable and nothing fails. -/
theorem accepted_update_fails :
    bareUpdateWorld.db.statusOf "c1" = some .validated ∧
      bareUpdateWorld.db.activeBindings "z1" = [binding "b1" "Z1", binding "b2" "Z2"] ∧
      worker.Usable (binding "b1" "Z1") ∧ worker.Usable (binding "b2" "Z2") ∧
      (bareUpdateWorld.db.items "c1").map (fun item =>
        ((worker.applyOneItem item).run (handle (env fun _ => .ok)) bareUpdateWorld).1) =
          [.error "after_value is required for 'update' operation"] := by
  decide +kernel

/-- The world after the change set that creates `www` was validated. -/
private def createdWwwWorld : World :=
  ((validateChangeset "c1").run (handle (env fun _ => .ok))
    { db := createdWww, contents := fun _ _ => none }).2

/-- The change set that creates `www` can be applied. -/
theorem accepted_executable_iff_createdWww :
    ∃ row ctx w', createdWwwWorld.db.items "c1" = [row] ∧
      (worker.applyOneItem row).run (handle (env fun _ => .ok)) createdWwwWorld = (.ok ctx, w') := by
  have hone : ∃ row, createdWwwWorld.db.items "c1" = [row] := by
    rw [← List.length_eq_one_iff]
    decide +kernel
  obtain ⟨row, hrow⟩ := hone
  have hzone : (createdWwwWorld.db.items "c1").all (fun row =>
      createdWwwWorld.db.zoneOf row.recordId == some "z1") = true := by decide +kernel
  have hbindings : createdWwwWorld.db.activeBindings "z1" =
      [binding "b1" "Z1", binding "b2" "Z2"] := by decide +kernel
  have hitems : createdWwwWorld.db.items "c1" = ((validateChangeset "c1").run
      (handle (env fun _ => .ok)) { db := createdWww, contents := fun _ _ => none }).2.db.items
        "c1" := rfl
  have happlied : ∀ row ∈ createdWwwWorld.db.items "c1", ∃ ctx w',
      (worker.applyOneItem row).run (handle (env fun _ => .ok)) createdWwwWorld =
        (.ok ctx, w') := by
    refine (accepted_executable_iff worker (eq_ok_get _ _) rfl hitems (fun _ => rfl)
      (fun _ => rfl) fun row hrow zoneId hz => ?_).mpr fun item hitem => ?_
    · obtain rfl : "z1" = zoneId :=
        Option.some.inj ((beq_iff_eq.mp (List.all_eq_true.mp hzone row hrow)).symm.trans hz)
      rw [hbindings]
      exact ⟨List.cons_ne_nil _ _, by simp [usable]⟩
    · obtain rfl := List.mem_singleton.mp hitem
      refine ⟨fun h => absurd h (by decide), fun v hv => (nomatch hv), fun v hv text htext => ?_⟩
      cases hv
      cases htext
      exact ⟨www "192.0.2.1", by decide +kernel⟩
  obtain ⟨ctx, w', hrun⟩ := happlied row (by rw [hrow]; exact List.mem_singleton_self _)
  exact ⟨row, ctx, w', hrow, hrun⟩

end Sample

end DnsManager
