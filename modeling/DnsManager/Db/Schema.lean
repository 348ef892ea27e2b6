import DnsManager.Core.ChangeSet
import DnsManager.ForStd.Table

/-!
# The database schema (`db/migrations/0001_initial.sql`)

One structure per table and one `Database` of all of them. A primary key is the key of
a `Table`, and the other constraints are fields of `Database`. A column with a
`CHECK (… IN (…))` has the enumeration of its texts as its type, except where the program
compares the text itself (`operation`, `rollback_policy`, `record_type`). Rows are in
the order of their rowid.
-/

namespace DnsManager

/-- The `Display` text of a database error. -/
abbrev DbError := String

/-- A row of `zones`. -/
structure Zone where
  id : String
  name : String
  defaultTtl : Int
  ownerTeamId : Option String
  createdAt : String
  updatedAt : String
deriving DecidableEq, Repr

/-- `provider_bindings.status` -/
inductive BindingStatus where
  | active | paused | error
deriving DecidableEq, Repr

/-- A row of `provider_bindings`. -/
structure ProviderBinding where
  id : String
  zoneId : String
  providerType : String
  providerZoneId : String
  credentialsBlob : String
  credentialsDek : String
  status : BindingStatus
  createdAt : String
  updatedAt : String
deriving DecidableEq, Repr

/-- A row of `desired_records`; `recordValues` is a JSON array. -/
structure DesiredRecord where
  id : String
  zoneId : String
  name : String
  recordType : String
  recordValues : String
  ttl : Int64
  desiredHash : String
  deletedAt : Option String
  createdAt : String
  updatedAt : String
deriving DecidableEq, Repr

/-- A row of `changesets`. -/
structure Changeset where
  id : String
  createdBy : String
  description : Option String
  status : ChangeSetStatus
  rollbackPolicy : String
  createdAt : String
  updatedAt : String
deriving DecidableEq, Repr

/-- A row of `changeset_items`; both values are JSON. -/
structure ChangesetItem where
  changesetId : String
  recordId : String
  operation : String
  beforeValue : Option String
  afterValue : Option String
deriving DecidableEq, Repr

/-- `PRIMARY KEY (changeset_id, record_id)` -/
def ChangesetItem.key (item : ChangesetItem) : String × String := (item.changesetId, item.recordId)

/-- `sync_states.status` -/
inductive SyncStatus where
  | inSync | drift | syncFailed | syncing
deriving DecidableEq, Repr

/-- A row of `sync_states`. A retry count above the i64 range stands for the REAL that SQLite makes
    of it. -/
structure SyncState where
  recordId : String
  providerBindingId : String
  lastObservedValue : Option String
  lastObservedAt : Option String
  status : SyncStatus
  lastError : Option String
  retryCount : Int
  createdAt : String
  updatedAt : String
deriving DecidableEq, Repr

/-- `PRIMARY KEY (record_id, provider_binding_id)` -/
def SyncState.key (s : SyncState) : String × String := (s.recordId, s.providerBindingId)

/-- `DO UPDATE SET` of `upsert_sync_state`: `excluded` is the row that was to be inserted,
    `row` the one that is there. -/
def SyncState.onConflict (excluded row : SyncState) : SyncState :=
  { row with
    lastObservedValue := excluded.lastObservedValue
    lastObservedAt := excluded.lastObservedAt
    status := excluded.status
    lastError := excluded.lastError
    -- the column counts the failures in a row after the first
    retryCount :=
      if excluded.status ≠ .syncFailed then 0
      else if row.status = .syncFailed then row.retryCount + 1
      else 0
    updatedAt := excluded.updatedAt }

/-- The texts `CHECK` admits for `changesets.rollback_policy`. -/
def rollbackPolicies : List String := ["auto", "manual", "frozen_on_failure"]

/-- The texts `CHECK` admits for `changeset_items.operation`. -/
def operations : List String := ["create", "update", "delete"]

/-- The texts `CHECK` admits for `desired_records.record_type`. -/
def recordTypes : List String := ["A", "AAAA", "CNAME", "MX", "TXT", "NS", "SRV", "CAA"]

/-- The columns of the unique index on the active desired records. -/
def DesiredRecord.activeKey (r : DesiredRecord) : String × String × String :=
  (r.zoneId, r.name, r.recordType)

/-- The rows of the unique index `idx_desired_records_unique_active`. -/
def activeKeys (rows : List DesiredRecord) : List (String × String × String) :=
  (rows.filter fun r => r.deletedAt.isNone).map (·.activeKey)

/-- The database, with its foreign keys, checks and unique index. -/
structure Database where
  zones : Table Zone Zone.id
  bindings : Table ProviderBinding ProviderBinding.id
  desiredRecords : Table DesiredRecord DesiredRecord.id
  changesets : Table Changeset Changeset.id
  changesetItems : Table ChangesetItem ChangesetItem.key
  syncStates : Table SyncState SyncState.key
  zoneNameUnique : (zones.rows.map (·.name)).Nodup
  bindingZone : ∀ b ∈ bindings.rows, b.zoneId ∈ zones.keys
  recordZone : ∀ r ∈ desiredRecords.rows, r.zoneId ∈ zones.keys
  recordTypeCheck : ∀ r ∈ desiredRecords.rows, r.recordType ∈ recordTypes
  recordUnique : (activeKeys desiredRecords.rows).Nodup
  policyCheck : ∀ c ∈ changesets.rows, c.rollbackPolicy ∈ rollbackPolicies
  itemChangeset : ∀ item ∈ changesetItems.rows, item.changesetId ∈ changesets.keys
  itemRecord : ∀ item ∈ changesetItems.rows, item.recordId ∈ desiredRecords.keys
  operationCheck : ∀ item ∈ changesetItems.rows, item.operation ∈ operations
  syncRecord : ∀ s ∈ syncStates.rows, s.recordId ∈ desiredRecords.keys
  syncBinding : ∀ s ∈ syncStates.rows, s.providerBindingId ∈ bindings.keys

/-- The constraint a statement violates. -/
inductive Violation where
  | primaryKey (columns : String)
  | unique (columns : String)
  | foreignKey
  | check (table : String)
deriving DecidableEq, Repr

/-- The `Display` text of the database error. -/
def Violation.display : Violation → DbError
  | primaryKey columns =>
    s!"error returned from database: (code: 1555) UNIQUE constraint failed: {columns}"
  | unique columns =>
    s!"error returned from database: (code: 2067) UNIQUE constraint failed: {columns}"
  | foreignKey => "error returned from database: (code: 787) FOREIGN KEY constraint failed"
  | check table => s!"error returned from database: (code: 275) CHECK constraint failed: {table}"

/-- `is_unique_violation`: a primary key is unique too. -/
def Violation.isUniqueViolation : Violation → Bool
  | primaryKey _ | unique _ => true
  | foreignKey | check _ => false

namespace Database

/-- `SELECT … FROM provider_bindings WHERE zone_id = ? AND status = 'active'` -/
def activeBindings (db : Database) (zoneId : String) : List ProviderBinding :=
  db.bindings.select fun b => b.zoneId == zoneId && b.status == .active

/-- `SELECT zone_id FROM desired_records WHERE id = ?` -/
def zoneOf (db : Database) (recordId : String) : Option String :=
  (db.desiredRecords.find? recordId).map (·.zoneId)

/-- `SELECT … FROM desired_records WHERE zone_id = (SELECT zone_id FROM provider_bindings
    WHERE id = ?) AND deleted_at IS NULL` -/
def desiredOf (db : Database) (bindingId : String) : List DesiredRecord :=
  match db.bindings.find? bindingId with
  | none => []
  | some b => db.desiredRecords.select fun r => r.zoneId == b.zoneId && r.deletedAt.isNone

/-- `SELECT … FROM changeset_items WHERE changeset_id = ? ORDER BY rowid` -/
def items (db : Database) (changesetId : String) : List ChangesetItem :=
  db.changesetItems.select fun item => item.changesetId == changesetId

/-- The status of a changeset. -/
def statusOf (db : Database) (id : String) : Option ChangeSetStatus :=
  (db.changesets.find? id).map (·.status)

/-- `UPDATE changesets SET status = ?, updated_at = ? WHERE id = ?`, and the further
    condition `guard` on the row. -/
def setStatus (db : Database) (id : String) (guard : Changeset → Bool) (status : ChangeSetStatus)
    (now : String) : Database :=
  { db with
    changesets := db.changesets.modify (fun row => row.id == id && guard row)
      (fun row => { row with status, updatedAt := now }) fun _ => rfl
    policyCheck := by
      intro c hc
      obtain ⟨a, ha, rfl⟩ := Table.mem_modify hc
      split <;> exact db.policyCheck a ha
    itemChangeset := by rw [Table.keys_modify]; exact db.itemChangeset }

/-- `INSERT INTO zones` -/
def insertZone (db : Database) (row : Zone) : Except Violation Database :=
  match h : db.zones.insert row with
  | none => .error (.primaryKey "zones.id")
  | some zones =>
    if hn : ((db.zones.rows ++ [row]).map (·.name)).Nodup then
      have keys_subset : ∀ {id}, id ∈ db.zones.keys → id ∈ zones.keys :=
        fun hid => by rw [Table.keys_insert h]; exact List.mem_append_left _ hid
      .ok { db with
        zones
        zoneNameUnique := by rw [(Table.insert_eq_some h).1]; exact hn
        bindingZone := fun b hb => keys_subset (db.bindingZone b hb)
        recordZone := fun r hr => keys_subset (db.recordZone r hr) }
    else .error (.unique "zones.name")

/-- `INSERT INTO provider_bindings` -/
def insertBinding (db : Database) (row : ProviderBinding) : Except Violation Database :=
  match h : db.bindings.insert row with
  | none => .error (.primaryKey "provider_bindings.id")
  | some bindings =>
    if hz : row.zoneId ∈ db.zones.keys then
      .ok { db with
        bindings
        bindingZone := by
          intro b hb
          rcases (Table.mem_insert h).mp hb with hb | rfl
          · exact db.bindingZone b hb
          · exact hz
        syncBinding := fun s hs => by
          rw [Table.keys_insert h]
          exact List.mem_append_left _ (db.syncBinding s hs) }
    else .error .foreignKey

/-- `INSERT INTO desired_records` -/
def insertRecord (db : Database) (row : DesiredRecord) : Except Violation Database :=
  match h : db.desiredRecords.insert row with
  | none => .error (.primaryKey "desired_records.id")
  | some desiredRecords =>
    if hc : row.recordType ∉ recordTypes then .error (.check "desired_records")
    else if hu : ¬ (activeKeys (db.desiredRecords.rows ++ [row])).Nodup then
      .error (.unique
        "desired_records.zone_id, desired_records.name, desired_records.record_type")
    else if hz : row.zoneId ∉ db.zones.keys then .error .foreignKey
    else
      have keys_subset : ∀ {id}, id ∈ db.desiredRecords.keys → id ∈ desiredRecords.keys :=
        fun hid => by rw [Table.keys_insert h]; exact List.mem_append_left _ hid
      .ok { db with
        desiredRecords
        recordZone := by
          intro r hr
          rcases (Table.mem_insert h).mp hr with hr | rfl
          · exact db.recordZone r hr
          · exact not_not.mp hz
        recordTypeCheck := by
          intro r hr
          rcases (Table.mem_insert h).mp hr with hr | rfl
          · exact db.recordTypeCheck r hr
          · exact not_not.mp hc
        recordUnique := by rw [(Table.insert_eq_some h).1]; exact not_not.mp hu
        itemRecord := fun item hi => keys_subset (db.itemRecord item hi)
        syncRecord := fun s hs => keys_subset (db.syncRecord s hs) }

/-- `INSERT INTO changesets` -/
def insertChangeset (db : Database) (row : Changeset) : Except Violation Database :=
  match h : db.changesets.insert row with
  | none => .error (.primaryKey "changesets.id")
  | some changesets =>
    if hp : row.rollbackPolicy ∈ rollbackPolicies then
      .ok { db with
        changesets
        policyCheck := by
          intro c hc
          rcases (Table.mem_insert h).mp hc with hc | rfl
          · exact db.policyCheck c hc
          · exact hp
        itemChangeset := fun item hi => by
          rw [Table.keys_insert h]
          exact List.mem_append_left _ (db.itemChangeset item hi) }
    else .error (.check "changesets")

/-- `INSERT INTO changeset_items` -/
def insertChangesetItem (db : Database) (row : ChangesetItem) : Except Violation Database :=
  match h : db.changesetItems.insert row with
  | none => .error (.primaryKey "changeset_items.changeset_id, changeset_items.record_id")
  | some changesetItems =>
    if ho : row.operation ∉ operations then .error (.check "changeset_items")
    else if hf : ¬ (row.changesetId ∈ db.changesets.keys ∧
        row.recordId ∈ db.desiredRecords.keys) then .error .foreignKey
    else
      .ok { db with
        changesetItems
        itemChangeset := by
          intro item hi
          rcases (Table.mem_insert h).mp hi with hi | rfl
          · exact db.itemChangeset item hi
          · exact (not_not.mp hf).1
        itemRecord := by
          intro item hi
          rcases (Table.mem_insert h).mp hi with hi | rfl
          · exact db.itemRecord item hi
          · exact (not_not.mp hf).2
        operationCheck := by
          intro item hi
          rcases (Table.mem_insert h).mp hi with hi | rfl
          · exact db.operationCheck item hi
          · exact not_not.mp ho }

/-- `INSERT INTO sync_states … ON CONFLICT(record_id, provider_binding_id) DO UPDATE` -/
def upsertSyncState (db : Database) (row : SyncState) : Except Violation Database :=
  if hf : row.recordId ∈ db.desiredRecords.keys ∧ row.providerBindingId ∈ db.bindings.keys then
    .ok { db with
      syncStates := db.syncStates.upsert row (SyncState.onConflict row) fun _ => rfl
      syncRecord := by
        intro s hs
        rcases Table.key_of_mem_upsert hs with heq | hmem
        · rw [(Prod.mk.inj heq).1]
          exact hf.1
        · obtain ⟨s', hs', heq⟩ := Table.mem_keys.mp hmem
          rw [← (Prod.mk.inj heq).1]
          exact db.syncRecord s' hs'
      syncBinding := by
        intro s hs
        rcases Table.key_of_mem_upsert hs with heq | hmem
        · rw [(Prod.mk.inj heq).2]
          exact hf.2
        · obtain ⟨s', hs', heq⟩ := Table.mem_keys.mp hmem
          rw [← (Prod.mk.inj heq).2]
          exact db.syncBinding s' hs' }
  else .error .foreignKey

/-! ## What the statements leave -/

@[simp] theorem mem_activeBindings {db : Database} {zoneId : String} {b : ProviderBinding} :
    b ∈ db.activeBindings zoneId ↔ b ∈ db.bindings ∧ b.zoneId = zoneId ∧ b.status = .active := by
  simp [activeBindings]

theorem mem_desiredOf {db : Database} {b : ProviderBinding} (hb : b ∈ db.bindings)
    {r : DesiredRecord} :
    r ∈ db.desiredOf b.id ↔ r ∈ db.desiredRecords ∧ r.zoneId = b.zoneId ∧ r.deletedAt = none := by
  simp [desiredOf, Table.find?_eq_some.mpr ⟨hb, rfl⟩]

/-- The desired records of a binding's zone are desired records. -/
theorem mem_desiredRecords_of_mem_desiredOf {db : Database} {bindingId : String}
    {r : DesiredRecord} (h : r ∈ db.desiredOf bindingId) : r ∈ db.desiredRecords := by
  unfold desiredOf at h
  split at h
  · cases h
  · exact (Table.mem_select.mp h).1

@[simp] theorem bindings_setStatus (db : Database) (id : String) (guard : Changeset → Bool)
    (status : ChangeSetStatus) (now : String) :
    (db.setStatus id guard status now).bindings = db.bindings := rfl

@[simp] theorem activeBindings_setStatus (db : Database) (id : String) (guard : Changeset → Bool)
    (status : ChangeSetStatus) (now : String) :
    (db.setStatus id guard status now).activeBindings = db.activeBindings := rfl

@[simp] theorem zoneOf_setStatus (db : Database) (id : String) (guard : Changeset → Bool)
    (status : ChangeSetStatus) (now : String) :
    (db.setStatus id guard status now).zoneOf = db.zoneOf := rfl

@[simp] theorem items_setStatus (db : Database) (id : String) (guard : Changeset → Bool)
    (status : ChangeSetStatus) (now : String) :
    (db.setStatus id guard status now).items = db.items := rfl

/-- An `UPDATE` of the status changes the row it names, if its guard admits the row, and
    no other row's status. -/
theorem statusOf_setStatus (db : Database) (id id' : String) (guard : Changeset → Bool)
    (status : ChangeSetStatus) (now : String) :
    (db.setStatus id guard status now).statusOf id' =
      (db.changesets.find? id').map fun row =>
        if row.id == id && guard row then status else row.status := by
  simp only [statusOf, setStatus, Table.find?_modify, Option.map_map]
  congr 1
  funext row
  simp only [Function.comp]
  split <;> rfl

/-- What an inserted zone changes. -/
theorem insertZone_ok {db db' : Database} {row : Zone} (h : db.insertZone row = .ok db') :
    db.zones.insert row = some db'.zones ∧ db'.changesetItems = db.changesetItems := by
  unfold insertZone at h
  split at h
  · cases h
  next hi =>
  split at h
  · cases h
    exact ⟨hi, rfl⟩
  · cases h

/-- What an inserted binding changes. -/
theorem insertBinding_ok {db db' : Database} {row : ProviderBinding}
    (h : db.insertBinding row = .ok db') :
    db.bindings.insert row = some db'.bindings ∧ db'.zones = db.zones ∧
      db'.changesetItems = db.changesetItems := by
  unfold insertBinding at h
  split at h
  · cases h
  next hi =>
  split at h
  · cases h
    exact ⟨hi, rfl, rfl⟩
  · cases h

/-- A desired record is inserted when it violates no constraint. -/
theorem exists_insertRecord_ok_iff {db : Database} {row : DesiredRecord} :
    (∃ db', db.insertRecord row = .ok db') ↔
      row.id ∉ db.desiredRecords.keys ∧ row.recordType ∈ recordTypes ∧
        (activeKeys (db.desiredRecords.rows ++ [row])).Nodup ∧ row.zoneId ∈ db.zones.keys := by
  unfold insertRecord
  split
  · next hkey =>
    constructor
    · rintro ⟨db', h⟩
      cases h
    · rintro ⟨hnew, -⟩
      exact absurd (Table.insert_eq_none.mp hkey) hnew
  next hinsert =>
  have hkey : row.id ∉ db.desiredRecords.keys := fun hmem => by
    rw [Table.insert_eq_none.mpr hmem] at hinsert
    cases hinsert
  by_cases htype : row.recordType ∈ recordTypes
  · by_cases hunique : (activeKeys (db.desiredRecords.rows ++ [row])).Nodup
    · by_cases hzone : row.zoneId ∈ db.zones.keys
      · simp [hkey, htype, hunique, hzone]
      · simp [htype, hunique, hzone]
    · simp [htype, hunique]
  · simp [htype]

/-- What an inserted desired record changes. -/
theorem insertRecord_ok {db db' : Database} {row : DesiredRecord}
    (h : db.insertRecord row = .ok db') :
    db.desiredRecords.insert row = some db'.desiredRecords ∧ db'.bindings = db.bindings ∧
      db'.zones = db.zones := by
  unfold insertRecord at h
  split at h
  · cases h
  next hi =>
  split at h
  · cases h
  split at h
  · cases h
  split at h
  · cases h
  · cases h
    exact ⟨hi, rfl, rfl⟩

/-- What an inserted change set changes. -/
theorem insertChangeset_ok {db db' : Database} {row : Changeset}
    (h : db.insertChangeset row = .ok db') :
    db.changesets.insert row = some db'.changesets ∧ db'.changesetItems = db.changesetItems ∧
      db'.bindings = db.bindings ∧ db'.desiredRecords = db.desiredRecords := by
  unfold insertChangeset at h
  split at h
  · cases h
  next hi =>
  split at h
  · cases h
    exact ⟨hi, rfl, rfl, rfl⟩
  · cases h

/-- What an inserted item changes. -/
theorem insertChangesetItem_ok {db db' : Database} {row : ChangesetItem}
    (h : db.insertChangesetItem row = .ok db') :
    db.changesetItems.insert row = some db'.changesetItems ∧ db'.changesets = db.changesets ∧
      db'.bindings = db.bindings ∧ db'.desiredRecords = db.desiredRecords := by
  unfold insertChangesetItem at h
  split at h
  · cases h
  next hi =>
  split at h
  · cases h
  split at h
  · cases h
  · cases h
    exact ⟨hi, rfl, rfl, rfl⟩

/-- The sync state of a pair after an upsert: the one of the row's own pair is inserted or
    updated, every other is kept. -/
theorem find?_upsertSyncState {db db' : Database} {row : SyncState}
    (h : db.upsertSyncState row = .ok db') (key : String × String) :
    db'.syncStates.find? key = if row.key = key then
      some ((db.syncStates.find? key).elim row (SyncState.onConflict row))
    else db.syncStates.find? key := by
  unfold upsertSyncState at h
  split at h
  · cases h
    exact Table.find?_upsert ..
  · cases h

/-- Only the sync states change. -/
theorem upsertSyncState_frame {db db' : Database} {row : SyncState}
    (h : db.upsertSyncState row = .ok db') :
    db'.bindings = db.bindings ∧ db'.desiredRecords = db.desiredRecords := by
  unfold upsertSyncState at h
  split at h
  · cases h
    exact ⟨rfl, rfl⟩
  · cases h

/-- The foreign keys are all that can be violated. -/
theorem upsertSyncState_ok {db : Database} (row : SyncState)
    (hr : row.recordId ∈ db.desiredRecords.keys) (hb : row.providerBindingId ∈ db.bindings.keys) :
    ∃ db', db.upsertSyncState row = .ok db' :=
  ⟨_, dif_pos ⟨hr, hb⟩⟩

end Database

end DnsManager
