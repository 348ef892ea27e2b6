import DnsManager.Spec.BindingCreation
import DnsManager.Spec.ChangesetCreation
import DnsManager.Spec.Justified

/-!
# Where the rows of the database come from

Over every run of the process, each zone, binding, desired record and change set was there at the
start or was inserted for a request whose checks it had passed, with the columns the request says;
and a change set has the items of its request and no others. With what is known of the calls, this
leads every write to a provider back to the requests it was made for.

## Key results
- `process_rows_requested`: every row comes from the start or from a request.
-/

namespace DnsManager

open Prog (Pool)

/-! ## What a command adds -/

section Adds

variable [SerdeJson]

/-- A row after a command is one of before, as it may have evolved, or the one the command
    inserts. -/
structure Database.Adds (db db' : Database) (c : SystemCmd) : Prop where
  zones : ∀ z ∈ db'.zones, z ∈ db.zones ∨ c = .api (.insertZone z)
  bindings : ∀ b ∈ db'.bindings, b ∈ db.bindings ∨ c = .api (.insertBinding b)
  desiredRecords : ∀ r ∈ db'.desiredRecords, r ∈ db.desiredRecords ∨ c = .api (.insertRecord r)
  changesets : ∀ row ∈ db'.changesets, (∃ old ∈ db.changesets, old.Evolves row) ∨
    ∃ items, c = .api (.txCreateChangeset row items) ∧
      items.mapM (itemRow row.id) = .ok (db'.items row.id)
  syncStates : db'.syncStates = db.syncStates ∨
    ∃ row, c = .sync (.upsertSyncState row) ∧ db.upsertSyncState row = .ok db'

namespace Database.Adds

theorem refl (db : Database) (c : SystemCmd) : db.Adds db c where
  zones _ hz := .inl hz
  bindings _ hb := .inl hb
  desiredRecords _ hr := .inl hr
  changesets row hrow := .inl ⟨row, hrow, .refl row⟩
  syncStates := .inl rfl

theorem setStatus (db : Database) (id : String) (guard : Changeset → Bool)
    (status : ChangeSetStatus) (now : String) (c : SystemCmd) :
    db.Adds (db.setStatus id guard status now) c where
  zones _ hz := .inl hz
  bindings _ hb := .inl hb
  desiredRecords _ hr := .inl hr
  changesets row hrow := by
    have hmodify : row ∈ db.changesets.modify (fun row => row.id == id && guard row)
      (fun row => { row with status, updatedAt := now }) fun _ => rfl := hrow
    obtain ⟨old, hold, rfl⟩ := Table.mem_modify hmodify
    refine .inl ⟨old, hold, ?_⟩
    split
    · rfl
    · exact .refl old
  syncStates := .inl rfl

theorem upsertSyncState {db db' : Database} {row : SyncState}
    (h : db.upsertSyncState row = .ok db') : db.Adds db' (.sync (.upsertSyncState row)) := by
  have hrow := h
  unfold Database.upsertSyncState at h
  split at h
  · cases h
    exact { refl db _ with syncStates := .inr ⟨row, rfl, hrow⟩ }
  · cases h

theorem insertZone {db db' : Database} {row : Zone} (h : db.insertZone row = .ok db') :
    db.Adds db' (.api (.insertZone row)) := by
  have hrows : ∀ z ∈ db'.zones, z ∈ db.zones ∨
      (SystemCmd.api (.insertZone row)) = .api (.insertZone z) := fun z hz =>
    ((Table.mem_insert (insertZone_ok h).1).mp hz).imp id fun heq => by rw [heq]
  unfold Database.insertZone at h
  split at h
  · cases h
  · split at h
    · cases h
      exact { refl db _ with zones := hrows, syncStates := .inl rfl }
    · cases h

theorem insertBinding {db db' : Database} {row : ProviderBinding}
    (h : db.insertBinding row = .ok db') : db.Adds db' (.api (.insertBinding row)) := by
  have hrows : ∀ b ∈ db'.bindings, b ∈ db.bindings ∨
      (SystemCmd.api (.insertBinding row)) = .api (.insertBinding b) := fun b hb =>
    ((Table.mem_insert (insertBinding_ok h).1).mp hb).imp id fun heq => by rw [heq]
  unfold Database.insertBinding at h
  split at h
  · cases h
  · split at h
    · cases h
      exact { refl db _ with bindings := hrows, syncStates := .inl rfl }
    · cases h

theorem insertRecord {db db' : Database} {row : DesiredRecord} (h : db.insertRecord row = .ok db') :
    db.Adds db' (.api (.insertRecord row)) := by
  have hrows : ∀ r ∈ db'.desiredRecords, r ∈ db.desiredRecords ∨
      (SystemCmd.api (.insertRecord row)) = .api (.insertRecord r) := fun r hr =>
    ((Table.mem_insert (insertRecord_ok h).1).mp hr).imp id fun heq => by rw [heq]
  unfold Database.insertRecord at h
  split at h
  · cases h
  · split at h
    · cases h
    split at h
    · cases h
    split at h
    · cases h
    · cases h
      exact { refl db _ with desiredRecords := hrows, syncStates := .inl rfl }

omit [SerdeJson] in
/-- A statement of the transaction of `create_changeset` leaves the other tables alone. -/
private theorem frame_insertChangeset {db db' : Database} {row : Changeset}
    (h : db.insertChangeset row = .ok db') :
    db'.zones = db.zones ∧ db'.syncStates = db.syncStates := by
  unfold Database.insertChangeset at h
  split at h
  · cases h
  · split at h
    · cases h
      exact ⟨rfl, rfl⟩
    · cases h

private theorem frame_insertItems {db db' : Database} {id : String}
    {items : List CreateChangesetItemRequest} (h : insertItems id db items = .ok db') :
    db'.zones = db.zones ∧ db'.syncStates = db.syncStates := by
  induction items generalizing db with
  | nil =>
    cases h
    exact ⟨rfl, rfl⟩
  | cons item items ih =>
    obtain ⟨row, -, h⟩ := Except.bind_eq_ok.mp h
    obtain ⟨db₁, hinsert, h⟩ := Except.bind_eq_ok.mp h
    rw [(ih h).1, (ih h).2]
    replace hinsert := Except.mapError_eq_ok.mp hinsert
    unfold Database.insertChangesetItem at hinsert
    split at hinsert
    · cases hinsert
    · split at hinsert
      · cases hinsert
      split at hinsert
      · cases hinsert
      · cases hinsert
        exact ⟨rfl, rfl⟩

omit [SerdeJson] in
/-- A change set that is not there has no items. -/
theorem items_eq_nil {db : Database} {id : String} (h : id ∉ db.changesets.keys) :
    db.items id = [] := by
  refine List.filter_eq_nil_iff.mpr fun item hitem heq => h ?_
  rw [← of_decide_eq_true heq]
  exact db.itemChangeset item hitem

theorem insertWithItems {db db' : Database} {row : Changeset}
    {items : List CreateChangesetItemRequest} (h : DnsManager.insertWithItems db row items = .ok db') :
    db.Adds db' (.api (.txCreateChangeset row items)) := by
  obtain ⟨db₁, hinsert, hitems⟩ := Except.bind_eq_ok.mp h
  replace hinsert := Except.mapError_eq_ok.mp hinsert
  obtain ⟨hrow, hsame, hbindings, hrecords⟩ := Database.insertChangeset_ok hinsert
  obtain ⟨rows, hrows, happend, hchangesets, hbindings', hrecords'⟩ := insertItems_ok hitems
  have hfree : row.id ∉ db.changesets.keys := fun hmem => by
    rw [Table.insert_eq_none.mpr hmem] at hrow
    cases hrow
  -- the change set had no items, so its items are the ones that were appended
  have hnew : db'.items row.id = rows := by
    have hnone : db.items row.id = [] := items_eq_nil hfree
    have hall : rows.filter (fun item => item.changesetId == row.id) = rows :=
      List.filter_eq_self.mpr fun item hitem =>
        decide_eq_true (changesetId_of_mem_rows hrows item hitem)
    unfold Database.items Table.select at hnone ⊢
    rw [happend, hsame, List.filter_append, hnone, hall, List.nil_append]
  obtain ⟨hzones, hsync⟩ := frame_insertChangeset hinsert
  obtain ⟨hzones', hsync'⟩ := frame_insertItems hitems
  refine ⟨fun z hz => .inl ?_, fun b hb => .inl ?_, fun r hr => .inl ?_, fun c hc => ?_,
    .inl (hsync'.trans hsync)⟩
  · rwa [hzones', hzones] at hz
  · rwa [hbindings', hbindings] at hb
  · rwa [hrecords', hrecords] at hr
  · rw [hchangesets] at hc
    rcases (Table.mem_insert hrow).mp hc with hc | rfl
    · exact .inl ⟨c, hc, .refl c⟩
    · exact .inr ⟨items, rfl, hnew ▸ hrows⟩

end Database.Adds

/-- What a command of the process adds. -/
theorem handleSystem_adds (env : SystemEnv) (c : SystemCmd) (s : SystemState) :
    s.db.Adds (handleSystem env c s).2.db c := by
  have heffect := handleSystem_effect env c s
  cases hcommitted : c.committed (handleSystem env c s).1 with
  | false =>
    rw [(heffect.quiet hcommitted).1]
    exact .refl _ c
  | true =>
    have hwrote := (heffect.wrote hcommitted).1
    generalize (handleSystem env c s).2.db = db at hwrote
    cases hwrote with
    | updateStatus => exact .setStatus ..
    | txUpdate => exact .setStatus ..
    | syncState h => exact .upsertSyncState h
    | zone h => exact .insertZone h
    | record h => exact .insertRecord h
    | binding h => exact .insertBinding h
    | changeset h => exact .insertWithItems h

end Adds

/-! ## Runs of the process -/

section Runs

variable [SerdeJson] [CryptoLib] [Sha256]

/-- Every row is one of the start, or was made for a request. -/
structure Provenance (state : AppState) (requests : List Request) (start db : Database) : Prop where
  zones : ∀ z ∈ db.zones, z ∈ start.zones ∨
    ∃ request ∈ requests, request.Makes state (.api (.insertZone z))
  bindings : ∀ b ∈ db.bindings, b ∈ start.bindings ∨
    ∃ request ∈ requests, request.Makes state (.api (.insertBinding b))
  desiredRecords : ∀ r ∈ db.desiredRecords, r ∈ start.desiredRecords ∨
    ∃ request ∈ requests, request.Makes state (.api (.insertRecord r))
  /-- A change set has moved on since, and has the items it was created with. -/
  changesets : ∀ row ∈ db.changesets,
    (∃ old ∈ start.changesets, old.Evolves row ∧ db.items row.id = start.items row.id) ∨
      ∃ request ∈ requests, ∃ new items, request.Makes state (.api (.txCreateChangeset new items)) ∧
        new.Evolves row ∧ items.mapM (itemRow row.id) = .ok (db.items row.id)

variable [UnicodeData] [Chrono]
variable {state : AppState} {requests : List Request} {runs : List WorkerRun} {env : SystemEnv}
  {start : Database}

namespace Provenance

omit [UnicodeData] [Chrono] in
theorem refl (db : Database) : Provenance state requests db db where
  zones _ hz := .inl hz
  bindings _ hb := .inl hb
  desiredRecords _ hr := .inl hr
  changesets row hrow := .inl ⟨row, hrow, .refl row, rfl⟩

/-- A sanctioned insertion comes from a request: the worker inserts nothing. -/
private theorem request_of_api {log : List (Sigma SystemCmd.Reply)} {c : ApiCmd}
    (h : Sanctioned state requests runs log (.api c)) :
    ∃ request ∈ requests, request.Makes state (.api c) := by
  rcases h with h | ⟨run, -, h⟩
  · exact h
  · exact h.elim

/-- Every sanctioned command keeps the provenance. -/
theorem step {log : List (Sigma SystemCmd.Reply)} {c : SystemCmd} {s : SystemState}
    (h : Provenance state requests start s.db) (hc : Sanctioned state requests runs log c) :
    Provenance state requests start (handleSystem env c s).2.db := by
  have hadds := handleSystem_adds env c s
  have hkeeps := (guarantee_keeps env).step c s
  refine ⟨fun z hz => ?_, fun b hb => ?_, fun r hr => ?_, fun row hrow => ?_⟩
  · rcases hadds.zones z hz with hz | rfl
    · exact h.zones z hz
    · exact .inr (request_of_api hc)
  · rcases hadds.bindings b hb with hb | rfl
    · exact h.bindings b hb
    · exact .inr (request_of_api hc)
  · rcases hadds.desiredRecords r hr with hr | rfl
    · exact h.desiredRecords r hr
    · exact .inr (request_of_api hc)
  · rcases hadds.changesets row hrow with ⟨old, hold, hevolves⟩ | ⟨items, rfl, hitems⟩
    · -- the items of a change set that was there are what they were
      have hsame : (handleSystem env c s).2.db.items row.id = s.db.items row.id :=
        hkeeps.items row.id (Table.mem_keys.mpr ⟨old, hold, hevolves.id_eq.symm⟩)
      rw [hsame, hevolves.id_eq]
      rcases h.changesets old hold with ⟨first, hfirst, hevolved, hitems⟩ |
        ⟨request, hrequest, new, items, hmakes, hevolved, hitems⟩
      · exact .inl ⟨first, hfirst, hevolved.trans hevolves, hitems⟩
      · exact .inr ⟨request, hrequest, new, items, hmakes, hevolved.trans hevolves, hitems⟩
    · obtain ⟨request, hrequest, hmakes⟩ := request_of_api hc
      exact .inr ⟨request, hrequest, row, items, hmakes, .refl row, hitems⟩

end Provenance

/-- At every moment of every run, each row of the database is one of the start or was made for a
    request that was sent, and a change set has exactly the items of its request. -/
theorem process_rows_requested (state : AppState) (requests : List Request) (runs : List WorkerRun)
    (env : SystemEnv) (s : SystemState) (schedule : List Nat) :
    Provenance state requests s.db
      ((process state requests runs s).exec (handleSystem env) schedule).state.db :=
  Pool.trail_invariant (J := fun _ t => Provenance state requests s.db t.db)
    (obeys_process_sanctioned state requests runs s) (.refl s.db)
    (fun _ _ _ _ h hc => h.step hc) schedule

end Runs

end DnsManager
