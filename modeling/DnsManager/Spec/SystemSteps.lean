import DnsManager.Api.Server
import DnsManager.ForStd.Except
import DnsManager.ForStd.TableGrowth
import DnsManager.ForStd.Trail
import DnsManager.Spec.BindingLoop

/-!
# What a command of the process does to the database

`handleSystem_effect` says it for every command at once: it has made one of the writes there
are, and its reply tells, or it has left the database as it was. All writes let the database
grow: no row of any table is ever removed, and none of a zone, a binding, a desired record or an
item is ever changed, and no change set gets further items.

## Key results
- `handleSystem_effect`: the writes of the commands.
- `guarantee_keeps`: every command lets the database grow, and keeps the items of every change set.
-/

namespace DnsManager

variable [SerdeJson]

/-- An entry of a trail of the process. -/
abbrev SystemEntry := Prog.Pool.Entry SystemCmd SystemCmd.Reply SystemState

/-! ## The writes -/

/-- The reply tells that the command has written. -/
def SystemCmd.committed : (c : SystemCmd) → c.Reply → Bool
  | .apply (.updateStatus ..), .ok (_ + 1) => true
  | .apply (.txUpdate ..), .ok _ => true
  | .sync (.upsertSyncState _), .ok _ => true
  | .api (.insertZone _), .ok _ => true
  | .api (.insertRecord _), .ok _ => true
  | .api (.insertBinding _), .ok _ => true
  | .api (.txCreateChangeset ..), .ok _ => true
  | _, _ => false

/-- The write a command has made on the database of a state, and what it has left. -/
inductive Wrote (env : SystemEnv) (s : SystemState) : SystemCmd → Database → Prop where
  | updateStatus {id : String} {source target : ChangeSetStatus}
      (hstatus : s.db.statusOf id = some source) :
      Wrote env s (.apply (.updateStatus id source target))
        (s.db.setStatus id (·.status == source) target (env.apply.now s.world.writes))
  | txUpdate {id : String} {target : ChangeSetStatus} :
      Wrote env s (.apply (.txUpdate id target s.world.commits))
        (s.db.setStatus id (fun _ => true) target (env.apply.now s.world.writes))
  | syncState {row : SyncState} {db : Database} (hdb : s.db.upsertSyncState row = .ok db) :
      Wrote env s (.sync (.upsertSyncState row)) db
  | zone {row : Zone} {db : Database} (hdb : s.db.insertZone row = .ok db) :
      Wrote env s (.api (.insertZone row)) db
  | record {row : DesiredRecord} {db : Database} (hdb : s.db.insertRecord row = .ok db) :
      Wrote env s (.api (.insertRecord row)) db
  | binding {row : ProviderBinding} {db : Database} (hdb : s.db.insertBinding row = .ok db) :
      Wrote env s (.api (.insertBinding row)) db
  | changeset {row : Changeset} {items : List CreateChangesetItemRequest} {db : Database}
      (hdb : insertWithItems s.db row items = .ok db) :
      Wrote env s (.api (.txCreateChangeset row items)) db

/-- The command has written, or it has left the database and the commits as they were. -/
structure Effect (env : SystemEnv) (c : SystemCmd) (s : SystemState) : Prop where
  wrote : c.committed (handleSystem env c s).1 = true →
    Wrote env s c (handleSystem env c s).2.db ∧
      (handleSystem env c s).2.world.commits = s.world.commits + 1
  quiet : c.committed (handleSystem env c s).1 = false →
    (handleSystem env c s).2.db = s.db ∧
      (handleSystem env c s).2.world.commits = s.world.commits

omit [SerdeJson] in
private theorem commits_query {α : Type} (env : Env) (w : World) (answer : Database → α) :
    (w.query env answer).2.commits = w.commits := by
  unfold World.query
  split <;> rfl

omit [SerdeJson] in
private theorem commits_call (env : Env) (w : World) (b : ProviderBinding) (key : RecordKey)
    (value : Option ProviderRecord) : (w.call env b key value).2.commits = w.commits := by
  unfold World.call
  split <;> rfl

omit [SerdeJson] in
/-- A write statement has taken effect exactly when it is answered so. -/
private theorem world_write (env : Env) (w : World) (statement : Database → Except Violation Database) :
    ((w.write env statement).1 = .ok () ∧ statement w.db = .ok (w.write env statement).2.db ∧
        (w.write env statement).2.commits = w.commits + 1) ∨
      ((∃ e, (w.write env statement).1 = .error e) ∧ (w.write env statement).2.db = w.db ∧
        (w.write env statement).2.commits = w.commits) := by
  unfold World.write
  split
  · exact .inr ⟨⟨_, rfl⟩, rfl, rfl⟩
  · split
    · exact .inr ⟨⟨_, rfl⟩, rfl, rfl⟩
    · next hdb => exact .inl ⟨rfl, hdb, rfl⟩

/-- The transaction has taken effect exactly when it is answered so. -/
private theorem world_createChangeset (env : Env) (w : World) (row : Changeset)
    (items : List CreateChangesetItemRequest) :
    ((w.createChangeset env row items).1 = .ok () ∧
        insertWithItems w.db row items = .ok (w.createChangeset env row items).2.db ∧
        (w.createChangeset env row items).2.commits = w.commits + 1) ∨
      ((∃ e, (w.createChangeset env row items).1 = .error e) ∧
        (w.createChangeset env row items).2.db = w.db ∧
        (w.createChangeset env row items).2.commits = w.commits) := by
  unfold World.createChangeset
  split
  · exact .inr ⟨⟨_, rfl⟩, rfl, rfl⟩
  · split
    · exact .inr ⟨⟨_, rfl⟩, rfl, rfl⟩
    · next hdb => exact .inl ⟨rfl, hdb, rfl⟩

omit [SerdeJson] in
private theorem syncWorld_write (env : SyncEnv) (w : SyncWorld)
    (statement : Database → Except Violation Database) :
    ((w.write env statement).1 = .ok () ∧ statement w.db = .ok (w.write env statement).2.db) ∨
      ((∃ e, (w.write env statement).1 = .error e) ∧ (w.write env statement).2.db = w.db) := by
  unfold SyncWorld.write
  split
  · exact .inr ⟨⟨_, rfl⟩, rfl⟩
  · split
    · exact .inr ⟨⟨_, rfl⟩, rfl⟩
    · next hdb => exact .inl ⟨rfl, hdb⟩

omit [SerdeJson] in
private theorem syncWorld_query {α : Type} (env : SyncEnv) (w : SyncWorld) (answer : Database → α) :
    (w.query env answer).2.db = w.db := by
  unfold SyncWorld.query
  split <;> rfl

/-- The command is a write. -/
def SystemCmd.isWrite : SystemCmd → Bool
  | .apply (.updateStatus ..) | .apply (.txUpdate ..) | .sync (.upsertSyncState _)
  | .api (.insertZone _) | .api (.insertRecord _) | .api (.insertBinding _)
  | .api (.txCreateChangeset ..) => true
  | _ => false

private theorem handle_quiet (env : Env) (w : World) {c : Cmd}
    (hc : (SystemCmd.apply c).isWrite = false) :
    (handle env c w).2.db = w.db ∧ (handle env c w).2.commits = w.commits := by
  cases c with
  | instant => exact ⟨rfl, rfl⟩
  | updateStatus | txUpdate => cases hc
  | upsertRecord | deleteRecord => exact ⟨World.db_call .., commits_call ..⟩
  | _ => exact ⟨World.db_query .., commits_query ..⟩

private theorem handleSync_quiet (env : SyncEnv) (w : SyncWorld) {c : SyncCmd}
    (hc : (SystemCmd.sync c).isWrite = false) : (handleSync env c w).2.db = w.db := by
  cases c with
  | utcNow | listRecords => rfl
  | upsertSyncState => cases hc
  | _ => exact syncWorld_query ..

private theorem handleApi_quiet (env : Env) (w : World) {c : ApiCmd}
    (hc : (SystemCmd.api c).isWrite = false) :
    (handleApi env c w).2.db = w.db ∧ (handleApi env c w).2.commits = w.commits := by
  cases c with
  | insertZone | insertRecord | insertBinding | txCreateChangeset => cases hc
  | respond => exact ⟨rfl, rfl⟩
  | _ => exact ⟨World.db_query .., commits_query ..⟩

/-- Any other command leaves the database as it was. -/
theorem quiet_of_isWrite {c : SystemCmd} (hc : c.isWrite = false) (env : SystemEnv)
    (s : SystemState) : (handleSystem env c s).2.db = s.db ∧
      (handleSystem env c s).2.world.commits = s.world.commits := by
  cases c with
  | apply c => exact handle_quiet env.apply s.world hc
  | sync c =>
    refine ⟨handleSync_quiet env.sync s.syncWorld hc, ?_⟩
    cases c with
    | upsertSyncState => cases hc
    | _ => rfl
  | api c => exact handleApi_quiet env.apply s.world hc

/-- Only a write is answered as one. -/
theorem committed_of_isWrite {c : SystemCmd} (hc : c.isWrite = false) (r : c.Reply) :
    c.committed r = false := by
  rcases c with c | c | c <;> cases c <;> first | rfl | cases hc

section Writes

variable (env : SystemEnv) (s : SystemState)

/-- A write that is answered by an error. -/
private theorem Effect.failed {env : SystemEnv} {s : SystemState} {c : SystemCmd}
    (hreply : c.committed (handleSystem env c s).1 = false)
    (hdb : (handleSystem env c s).2.db = s.db)
    (hcommits : (handleSystem env c s).2.world.commits = s.world.commits) : Effect env c s where
  wrote hyes := absurd (hreply.symm.trans hyes) (by decide)
  quiet _ := ⟨hdb, hcommits⟩

/-- A write that is answered by `Ok`. -/
private theorem Effect.done {env : SystemEnv} {s : SystemState} {c : SystemCmd}
    (hreply : c.committed (handleSystem env c s).1 = true)
    (hwrote : Wrote env s c (handleSystem env c s).2.db)
    (hcommits : (handleSystem env c s).2.world.commits = s.world.commits + 1) : Effect env c s where
  wrote _ := ⟨hwrote, hcommits⟩
  quiet hno := absurd (hno.symm.trans hreply) (by decide)

private theorem effect_updateStatus (id : String) (source target : ChangeSetStatus) :
    Effect env (.apply (.updateStatus id source target)) s := by
  cases hw : env.apply.writes s.world.writes with
  | some e =>
    have hrun : handleSystem env (.apply (.updateStatus id source target)) s =
        (.error e, { s with world := { s.world with writes := s.world.writes + 1 } }) := by
      simp only [handleSystem, handle, updateStatusWhere, hw]
    exact .failed (by rw [hrun]; rfl) (by rw [hrun]) (by rw [hrun])
  | none =>
    by_cases hs : s.db.statusOf id = some source
    · have hrun : handleSystem env (.apply (.updateStatus id source target)) s =
          (.ok 1, { s with world := s.world.commit (s.db.setStatus id (·.status == source)
            target (env.apply.now s.world.writes)) }) := by
        simp only [handleSystem, handle, updateStatusWhere, hw, if_pos hs]
      exact .done (by rw [hrun]; rfl) (by rw [hrun]; exact .updateStatus hs) (by rw [hrun]; rfl)
    · have hrun : handleSystem env (.apply (.updateStatus id source target)) s =
          (.ok 0, { s with world := { s.world with writes := s.world.writes + 1 } }) := by
        simp only [handleSystem, handle, updateStatusWhere, hw, if_neg hs]
      exact .failed (by rw [hrun]; rfl) (by rw [hrun]) (by rw [hrun])

private theorem effect_txUpdate (id : String) (target : ChangeSetStatus) (snapshot : Nat) :
    Effect env (.apply (.txUpdate id target snapshot)) s := by
  cases hw : env.apply.writes s.world.writes with
  | some e =>
    have hrun : handleSystem env (.apply (.txUpdate id target snapshot)) s =
        (.error e, { s with world := { s.world with writes := s.world.writes + 1 } }) := by
      simp only [handleSystem, handle, updateStatusTx, hw]
    exact .failed (by rw [hrun]; rfl) (by rw [hrun]) (by rw [hrun])
  | none =>
    by_cases hs : s.world.commits = snapshot
    · subst hs
      have hrun : handleSystem env (.apply (.txUpdate id target s.world.commits)) s =
          (.ok (), { s with world := s.world.commit (s.db.setStatus id (fun _ => true)
            target (env.apply.now s.world.writes)) }) := by
        simp only [handleSystem, handle, updateStatusTx, hw, if_true]
      exact .done (by rw [hrun]; rfl) (by rw [hrun]; exact .txUpdate) (by rw [hrun]; rfl)
    · have hrun : handleSystem env (.apply (.txUpdate id target snapshot)) s =
          (.error "database is locked",
            { s with world := { s.world with writes := s.world.writes + 1 } }) := by
        simp only [handleSystem, handle, updateStatusTx, hw, if_neg hs]
      exact .failed (by rw [hrun]; rfl) (by rw [hrun]) (by rw [hrun])

private theorem effect_upsertSyncState (row : SyncState) :
    Effect env (.sync (.upsertSyncState row)) s := by
  have hcommits : (handleSystem env (.sync (.upsertSyncState row)) s).2.world.commits =
      s.world.commits + SyncCmd.committed (.upsertSyncState row)
        (s.syncWorld.write env.sync (·.upsertSyncState row)).1 := rfl
  rcases syncWorld_write env.sync s.syncWorld (·.upsertSyncState row) with
    ⟨hok, hdb⟩ | ⟨⟨e, herror⟩, hdb⟩
  · have hreply : (handleSystem env (.sync (.upsertSyncState row)) s).1 = .ok () := hok
    rw [hok] at hcommits
    exact .done (by rw [hreply]; rfl) (.syncState hdb) hcommits
  · have hreply : (handleSystem env (.sync (.upsertSyncState row)) s).1 = .error e := herror
    rw [herror] at hcommits
    exact .failed (by rw [hreply]; rfl) hdb hcommits

/-- The `INSERT`s of the handlers are one statement each. -/
private theorem effect_insert {c : ApiCmd} (statement : Database → Except Violation Database)
    (r : Except StatementError Unit → c.Reply)
    (hrun : handleApi env.apply c s.world = (r (s.world.write env.apply statement).1,
      (s.world.write env.apply statement).2))
    (hok : (SystemCmd.api c).committed (r (.ok ())) = true)
    (herror : ∀ e, (SystemCmd.api c).committed (r (.error e)) = false)
    (hwrote : ∀ db, statement s.db = .ok db → Wrote env s (.api c) db) :
    Effect env (.api c) s := by
  have hsystem : handleSystem env (.api c) s = (r (s.world.write env.apply statement).1,
      { s with world := (s.world.write env.apply statement).2 }) := by
    simp only [handleSystem, hrun]
  rcases world_write env.apply s.world statement with
    ⟨hreply, hdb, hcommits⟩ | ⟨⟨e, hreply⟩, hdb, hcommits⟩
  · exact .done (by rw [hsystem, hreply]; exact hok) (by rw [hsystem]; exact hwrote _ hdb)
      (by rw [hsystem]; exact hcommits)
  · exact .failed (by rw [hsystem, hreply]; exact herror e) (by rw [hsystem]; exact hdb)
      (by rw [hsystem]; exact hcommits)

private theorem effect_txCreateChangeset (row : Changeset)
    (items : List CreateChangesetItemRequest) :
    Effect env (.api (.txCreateChangeset row items)) s := by
  rcases world_createChangeset env.apply s.world row items with
    ⟨hok, hdb, hcommits⟩ | ⟨⟨e, herror⟩, hdb, hcommits⟩
  · have hreply : (handleSystem env (.api (.txCreateChangeset row items)) s).1 = .ok () := hok
    exact .done (by rw [hreply]; rfl) (.changeset hdb) hcommits
  · have hreply : (handleSystem env (.api (.txCreateChangeset row items)) s).1 = .error e :=
      herror
    exact .failed (by rw [hreply]; rfl) hdb hcommits

end Writes

/-- What a command has done to the database. -/
theorem handleSystem_effect (env : SystemEnv) (c : SystemCmd) (s : SystemState) :
    Effect env c s := by
  cases hc : c.isWrite with
  | false =>
    obtain ⟨hdb, hcommits⟩ := quiet_of_isWrite hc env s
    exact .failed (committed_of_isWrite hc _) hdb hcommits
  | true =>
    cases c with
    | apply c =>
      cases c with
      | updateStatus id source target => exact effect_updateStatus env s id source target
      | txUpdate id target snapshot => exact effect_txUpdate env s id target snapshot
      | _ => cases hc
    | sync c =>
      cases c with
      | upsertSyncState row => exact effect_upsertSyncState env s row
      | _ => cases hc
    | api c =>
      cases c with
      | insertZone row =>
        exact effect_insert env s (·.insertZone row) id rfl rfl (fun _ => rfl) fun _ => .zone
      | insertRecord row =>
        exact effect_insert env s (·.insertRecord row) id rfl rfl (fun _ => rfl) fun _ => .record
      | insertBinding row =>
        exact effect_insert env s (·.insertBinding row) id rfl rfl (fun _ => rfl) fun _ => .binding
      | txCreateChangeset row items => exact effect_txCreateChangeset env s row items
      | _ => cases hc

/-! ## Growth -/

omit [SerdeJson]

/-- A change set may only move on in its status, with the time of the move. -/
def Changeset.Evolves (a b : Changeset) : Prop :=
  b = { a with status := b.status, updatedAt := b.updatedAt }

/-- A sync state keeps its pair and the time it was created. -/
def SyncState.Evolves (a b : SyncState) : Prop := b.key = a.key ∧ b.createdAt = a.createdAt

/-- Nothing was removed, and nothing was changed but the statuses of change sets and what the
    synchronisation loops have observed. -/
structure Database.Grows (db db' : Database) : Prop where
  zones : Table.Extends Eq db.zones db'.zones
  bindings : Table.Extends Eq db.bindings db'.bindings
  desiredRecords : Table.Extends Eq db.desiredRecords db'.desiredRecords
  changesets : Table.Extends Changeset.Evolves db.changesets db'.changesets
  changesetItems : Table.Extends Eq db.changesetItems db'.changesetItems
  syncStates : Table.Extends SyncState.Evolves db.syncStates db'.syncStates

theorem Changeset.Evolves.refl (a : Changeset) : a.Evolves a := rfl

theorem Changeset.Evolves.trans {a b c : Changeset} (h : a.Evolves b) (h' : b.Evolves c) :
    a.Evolves c := by
  unfold Changeset.Evolves at *
  rw [h'.trans (by rw [h])]

theorem Changeset.Evolves.id_eq {a b : Changeset} (h : a.Evolves b) : b.id = a.id := by
  rw [h]

theorem SyncState.Evolves.refl (a : SyncState) : a.Evolves a := ⟨rfl, rfl⟩

theorem SyncState.Evolves.trans {a b c : SyncState} (h : a.Evolves b) (h' : b.Evolves c) :
    a.Evolves c := ⟨h'.1.trans h.1, h'.2.trans h.2⟩

namespace Database.Grows

theorem refl (db : Database) : db.Grows db where
  zones := .refl (fun _ => rfl) _
  bindings := .refl (fun _ => rfl) _
  desiredRecords := .refl (fun _ => rfl) _
  changesets := .refl .refl _
  changesetItems := .refl (fun _ => rfl) _
  syncStates := .refl .refl _

theorem trans {db db' db'' : Database} (h : db.Grows db') (h' : db'.Grows db'') : db.Grows db'' where
  zones := h.zones.trans Eq.trans h'.zones
  bindings := h.bindings.trans Eq.trans h'.bindings
  desiredRecords := h.desiredRecords.trans Eq.trans h'.desiredRecords
  changesets := h.changesets.trans .trans h'.changesets
  changesetItems := h.changesetItems.trans Eq.trans h'.changesetItems
  syncStates := h.syncStates.trans .trans h'.syncStates

/-- The rest of a database in which one table has changed is the same. -/
theorem setStatus (db : Database) (id : String) (guard : Changeset → Bool)
    (status : ChangeSetStatus) (now : String) : db.Grows (db.setStatus id guard status now) := by
  let move : Changeset → Changeset := fun row => { row with status, updatedAt := now }
  have hmove : ∀ row : Changeset, row.Evolves (move row) := fun _ => rfl
  exact { refl db with changesets := .of_modify Changeset.Evolves.refl (f := move) (fun _ => rfl) hmove }

theorem insertZone {db db' : Database} {row : Zone} (h : db.insertZone row = .ok db') :
    db.Grows db' := by
  unfold Database.insertZone at h
  split at h
  · cases h
  · next hi =>
    split at h
    · cases h
      exact { refl db with zones := .of_insert (fun _ => rfl) hi }
    · cases h

theorem insertBinding {db db' : Database} {row : ProviderBinding}
    (h : db.insertBinding row = .ok db') : db.Grows db' := by
  unfold Database.insertBinding at h
  split at h
  · cases h
  · next hi =>
    split at h
    · cases h
      exact { refl db with bindings := .of_insert (fun _ => rfl) hi }
    · cases h

theorem insertRecord {db db' : Database} {row : DesiredRecord}
    (h : db.insertRecord row = .ok db') : db.Grows db' := by
  unfold Database.insertRecord at h
  split at h
  · cases h
  · next hi =>
    split at h
    · cases h
    split at h
    · cases h
    split at h
    · cases h
    · cases h
      exact { refl db with desiredRecords := .of_insert (fun _ => rfl) hi }

theorem insertChangeset {db db' : Database} {row : Changeset}
    (h : db.insertChangeset row = .ok db') : db.Grows db' := by
  unfold Database.insertChangeset at h
  split at h
  · cases h
  · next hi =>
    split at h
    · cases h
      exact { refl db with changesets := .of_insert .refl hi }
    · cases h

theorem insertChangesetItem {db db' : Database} {row : ChangesetItem}
    (h : db.insertChangesetItem row = .ok db') : db.Grows db' := by
  unfold Database.insertChangesetItem at h
  split at h
  · cases h
  · next hi =>
    split at h
    · cases h
    split at h
    · cases h
    · cases h
      exact { refl db with changesetItems := .of_insert (fun _ => rfl) hi }

theorem upsertSyncState {db db' : Database} {row : SyncState}
    (h : db.upsertSyncState row = .ok db') : db.Grows db' := by
  unfold Database.upsertSyncState at h
  split at h
  · cases h
    exact { refl db with syncStates := .of_upsert .refl row fun _ => ⟨rfl, rfl⟩ }
  · cases h

variable [SerdeJson]

theorem insertItems {db db' : Database} {id : String} {items : List CreateChangesetItemRequest}
    (h : DnsManager.insertItems id db items = .ok db') : db.Grows db' := by
  induction items generalizing db with
  | nil =>
    cases h
    exact refl _
  | cons item items ih =>
    obtain ⟨row, -, h⟩ := Except.bind_eq_ok.mp h
    obtain ⟨db₁, hinsert, h⟩ := Except.bind_eq_ok.mp h
    exact (insertChangesetItem (Except.mapError_eq_ok.mp hinsert)).trans (ih h)

theorem insertWithItems {db db' : Database} {row : Changeset}
    {items : List CreateChangesetItemRequest}
    (h : DnsManager.insertWithItems db row items = .ok db') : db.Grows db' := by
  obtain ⟨db₁, hinsert, hitems⟩ := Except.bind_eq_ok.mp h
  exact (insertChangeset (Except.mapError_eq_ok.mp hinsert)).trans (insertItems hitems)

end Database.Grows

/-- The database has grown, and no change set that was there has got or lost an item. -/
structure Database.Keeps (db db' : Database) : Prop where
  grows : db.Grows db'
  items : ∀ id ∈ db.changesets.keys, db'.items id = db.items id

namespace Database.Keeps

theorem refl (db : Database) : db.Keeps db := ⟨.refl db, fun _ _ => rfl⟩

theorem trans {db db' db'' : Database} (h : db.Keeps db') (h' : db'.Keeps db'') : db.Keeps db'' where
  grows := h.grows.trans h'.grows
  items id hid := (h'.items id (h.grows.changesets.mem_keys Changeset.Evolves.id_eq hid)).trans
    (h.items id hid)

/-- A write that leaves the items alone. -/
theorem of_items_eq {db db' : Database} (h : db.Grows db')
    (hitems : db'.changesetItems = db.changesetItems) : db.Keeps db' where
  grows := h
  items id _ := by
    unfold Database.items
    rw [hitems]

theorem insertZone {db db' : Database} {row : Zone} (h : db.insertZone row = .ok db') :
    db.Keeps db' := .of_items_eq (.insertZone h) (Database.insertZone_ok h).2

theorem insertRecord {db db' : Database} {row : DesiredRecord} (h : db.insertRecord row = .ok db') :
    db.Keeps db' := by
  refine .of_items_eq (.insertRecord h) ?_
  unfold Database.insertRecord at h
  split at h
  · cases h
  split at h
  · cases h
  split at h
  · cases h
  split at h <;> cases h
  rfl

theorem upsertSyncState {db db' : Database} {row : SyncState}
    (h : db.upsertSyncState row = .ok db') : db.Keeps db' := by
  refine .of_items_eq (.upsertSyncState h) ?_
  unfold Database.upsertSyncState at h
  split at h <;> cases h
  rfl

variable [SerdeJson]

/-- The items that are inserted belong to their change set. -/
private theorem items_insertItems {db db' : Database} {id : String}
    {items : List CreateChangesetItemRequest} (h : insertItems id db items = .ok db')
    {id' : String} (hne : id' ≠ id) : db'.items id' = db.items id' := by
  induction items generalizing db with
  | nil =>
    cases h
    rfl
  | cons item items ih =>
    obtain ⟨row, hrow, h⟩ := Except.bind_eq_ok.mp h
    obtain ⟨db₁, hinsert, h⟩ := Except.bind_eq_ok.mp h
    have hrows := (Table.insert_eq_some
      (Database.insertChangesetItem_ok (Except.mapError_eq_ok.mp hinsert)).1).1
    have hid : row.changesetId = id := by
      obtain ⟨before, -, hrow⟩ := Except.bind_eq_ok.mp hrow
      obtain ⟨after, -, hrow⟩ := Except.bind_eq_ok.mp hrow
      cases hrow
      rfl
    rw [ih h]
    simp [Database.items, Table.select, hrows, List.filter_append, hid, Ne.symm hne]

theorem insertWithItems {db db' : Database} {row : Changeset}
    {items : List CreateChangesetItemRequest}
    (h : DnsManager.insertWithItems db row items = .ok db') : db.Keeps db' where
  grows := .insertWithItems h
  items id hid := by
    obtain ⟨db₁, hinsert, hitems⟩ := Except.bind_eq_ok.mp h
    obtain ⟨hrow, hsame⟩ := Database.insertChangeset_ok (Except.mapError_eq_ok.mp hinsert)
    -- the id of the new change set was free
    have hne : id ≠ row.id := by
      rintro rfl
      have hfree := (Table.insert_eq_some hrow).2
      exact absurd (Table.find?_eq_none.mp hfree) (by
        obtain ⟨a, ha, heq⟩ := Table.mem_keys.mp hid
        exact fun hall => hall a ha heq)
    rw [items_insertItems hitems hne]
    unfold Database.items
    rw [hsame.1]

end Database.Keeps

variable [SerdeJson]

/-- Every command lets the database grow and leaves the items of every change set as they are. -/
theorem guarantee_keeps (env : SystemEnv) :
    Prog.Pool.Guarantee (handleSystem env) fun s t : SystemState => s.db.Keeps t.db where
  refl s := .refl s.db
  trans := .trans
  step c s := by
    have heffect := handleSystem_effect env c s
    cases hcommitted : c.committed (handleSystem env c s).1 with
    | false =>
      rw [(heffect.quiet hcommitted).1]
      exact .refl _
    | true =>
      obtain ⟨hwrote, -⟩ := heffect.wrote hcommitted
      generalize (handleSystem env c s).2.db = db at hwrote
      cases hwrote with
      | updateStatus => exact .of_items_eq (.setStatus ..) rfl
      | txUpdate => exact .of_items_eq (.setStatus ..) rfl
      | syncState h => exact .upsertSyncState h
      | zone h => exact .insertZone h
      | record h => exact .insertRecord h
      | binding h => exact .of_items_eq (.insertBinding h) (Database.insertBinding_ok h).2.2
      | changeset h => exact .insertWithItems h

end DnsManager
