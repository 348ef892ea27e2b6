import DnsManager.Api.Changesets
import DnsManager.ForStd.Except

/-!
# What an accepted change set is made of

`create_changeset` inserts the items in the order of the request, and `ORDER BY rowid`
reads them back in that order. The worker relies on this: items that write the same
record are applied in the order the client gave them.

## Key results
- `createChangeset_ok`: the rows of an accepted change set are those of the request.
-/

namespace DnsManager

variable [SerdeJson]

/-- A row of an item belongs to its change set and keeps record and operation. -/
theorem itemRow_ok {id : String} {item : CreateChangesetItemRequest} {row : ChangesetItem}
    (h : itemRow id item = .ok row) :
    row.changesetId = id ∧ row.recordId = item.recordId ∧ row.operation = item.operation ∧
      serializeValue "before_value" item.beforeValue = .ok row.beforeValue ∧
      serializeValue "after_value" item.afterValue = .ok row.afterValue := by
  unfold itemRow at h
  obtain ⟨before, hbefore, h⟩ := Except.bind_eq_ok.mp h
  obtain ⟨after, hafter, h⟩ := Except.bind_eq_ok.mp h
  cases h
  exact ⟨rfl, rfl, rfl, hbefore, hafter⟩

/-- The loop over the items appends their rows in order. -/
theorem insertItems_ok {id : String} {items : List CreateChangesetItemRequest}
    {db db' : Database} (h : insertItems id db items = .ok db') :
    ∃ rows, items.mapM (itemRow id) = .ok rows ∧
      db'.changesetItems.rows = db.changesetItems.rows ++ rows ∧ db'.changesets = db.changesets ∧
      db'.bindings = db.bindings ∧ db'.desiredRecords = db.desiredRecords := by
  induction items generalizing db with
  | nil =>
    cases h
    exact ⟨[], rfl, (List.append_nil _).symm, rfl, rfl, rfl⟩
  | cons item items ih =>
    obtain ⟨row, hrow, h⟩ := Except.bind_eq_ok.mp h
    obtain ⟨db₁, hins, h⟩ := Except.bind_eq_ok.mp h
    obtain ⟨hi₁, hc₁, hb₁, hd₁⟩ := Database.insertChangesetItem_ok (Except.mapError_eq_ok.mp hins)
    obtain ⟨rows, hrows, hr, hc, hb, hd⟩ := ih h
    refine ⟨row :: rows, ?_, ?_, hc.trans hc₁, hb.trans hb₁, hd.trans hd₁⟩
    · rw [List.mapM_cons, hrow, hrows]
      rfl
    · rw [hr, (Table.insert_eq_some hi₁).1, List.append_assoc, List.singleton_append]

/-- Every row of a list of items belongs to the change set. -/
theorem changesetId_of_mem_rows {id : String} {items : List CreateChangesetItemRequest}
    {rows : List ChangesetItem} (h : items.mapM (itemRow id) = .ok rows) :
    ∀ row ∈ rows, row.changesetId = id := by
  intro row hrow
  obtain ⟨item, -, hitem⟩ := (Except.mapM_eq_ok_mem h).2 row hrow
  exact (itemRow_ok hitem).1

/-- The checks of all items pass. -/
private theorem forM_validateItem_ok {items : List CreateChangesetItemRequest}
    (h : items.forM validateItem = .ok ()) : ∀ item ∈ items, validateItem item = .ok () := by
  induction items with
  | nil => exact fun _ hi => (nomatch hi)
  | cons item items ih =>
    rw [List.forM_eq_forM, List.forM_cons] at h
    obtain ⟨_, hitem, h⟩ := Except.bind_eq_ok.mp h
    exact List.forall_mem_cons.mpr ⟨hitem, ih h⟩

/-- An accepted change set adds one row to the table, with the time of the request. -/
theorem changesets_createChangeset {db db' : Database} {id now : String}
    {body : CreateChangesetRequest} (h : createChangeset db id now body = .ok db') :
    db.changesets.insert
      { id, createdBy := "anonymous", description := body.description, status := .draft,
        rollbackPolicy := body.rollbackPolicy, createdAt := now, updatedAt := now } =
      some db'.changesets := by
  unfold createChangeset at h
  dsimp only at h
  split at h
  · cases h
  obtain ⟨_, -, h⟩ := Except.bind_eq_ok.mp h
  split at h
  · cases h
  obtain ⟨db₁, hins, h⟩ := Except.bind_eq_ok.mp h
  obtain ⟨hrow, -⟩ := Database.insertChangeset_ok (Except.mapError_eq_ok.mp hins)
  obtain ⟨rows, -, -, hchangesets, -⟩ := insertItems_ok h
  rw [hchangesets]
  exact hrow

/-- A change set that is accepted is a draft whose items, read in the order of their rowid,
    are the rows of the request in its order. Each item has passed the checks. -/
theorem createChangeset_ok {db db' : Database} {id now : String} {body : CreateChangesetRequest}
    (h : createChangeset db id now body = .ok db') :
    body.items.mapM (itemRow id) = .ok (db'.items id) ∧
      (∀ item ∈ body.items, validateItem item = .ok ()) ∧
      db'.statusOf id = some .draft ∧ db'.bindings = db.bindings ∧
      db'.desiredRecords = db.desiredRecords := by
  unfold createChangeset at h
  dsimp only at h
  split at h
  · cases h
  obtain ⟨_, hvalid, h⟩ := Except.bind_eq_ok.mp h
  split at h
  · cases h
  obtain ⟨db₁, hins, h⟩ := Except.bind_eq_ok.mp h
  obtain ⟨hc₁, hi₁, hb₁, hd₁⟩ := Database.insertChangeset_ok (Except.mapError_eq_ok.mp hins)
  obtain ⟨rows, hrows, hr, hc, hb, hd⟩ := insertItems_ok h
  -- the id is new, so no item had it before
  have hfresh : ∀ item ∈ db.changesetItems.rows, item.changesetId ≠ id := by
    intro item hitem heq
    have hnone := (Table.insert_eq_some hc₁).2
    obtain ⟨c, hc, hk⟩ := Table.mem_keys.mp (db.itemChangeset item hitem)
    exact Table.find?_eq_none.mp hnone c hc (hk.trans heq)
  have hitems : db'.items id = rows := by
    rw [Database.items, Table.select, hr, hi₁, List.filter_append,
      List.filter_eq_nil_iff.mpr (by simpa using hfresh), List.nil_append,
      List.filter_eq_self.mpr (by simpa using changesetId_of_mem_rows hrows)]
  refine ⟨hitems ▸ hrows, forM_validateItem_ok hvalid, ?_, hb.trans hb₁, hd.trans hd₁⟩
  have hmem : _ ∈ db₁.changesets := (Table.mem_insert hc₁).mpr (Or.inr rfl)
  rw [Database.statusOf, hc, Table.find?_eq_some.mpr ⟨hmem, rfl⟩]
  rfl

end DnsManager
