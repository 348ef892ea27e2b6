import DnsManager.Spec.Custody
import DnsManager.Spec.Responses

/-!
# What a client can rely on

Over every run of the process: what a response shows is in the database and stays there, whatever
happens afterwards. A row that was reported as created is the only one under its unique key, so
of concurrent requests for one record or one zone at most one is told that it was created. A
listing that is asked for after that shows the row. A request that is answered with a client error
has written nothing.

## Key results
- `responses_durable`: the database holds what a response shows, then and for ever.
- `created_once`: two responses do not report the same zone name or record as created.
- `zones_listed_after_created`, `records_listed_after_created`: later listings show the row.
- `clientError_untouched`: a client error comes without a write.
-/

namespace DnsManager

open Prog (Obeys Only Pool)

section Database

variable [SerdeJson]

/-! ## What a body shows -/

/-- The database holds what the body of a response shows. -/
def Database.Shows (db : Database) : ResponseBody → Prop
  | .zones zones => ∀ z ∈ zones, z ∈ db.zones
  | .zone z => z ∈ db.zones
  | .records views => ∀ v ∈ views, ∃ row ∈ db.desiredRecords, intoRecord row = .ok v
  | .record v => ∃ row ∈ db.desiredRecords, intoRecord row = .ok v
  | .binding v => ∃ row ∈ db.bindings, ProviderBindingView.ofRow row = v
  | .syncStates states => ∀ st ∈ states, ∃ row ∈ db.syncStates, st.Evolves row
  | .changeset v => ∃ row ∈ db.changesets, v.row.Evolves row ∧
      ∃ items : List ChangesetItem, items.Perm (db.items row.id) ∧ items.mapM itemView = .ok v.items
  | .empty | .error _ | .health _ => True

/-- What is shown stays. -/
theorem Database.Shows.mono {db db' : Database} (hkeeps : db.Keeps db') {body : ResponseBody}
    (h : db.Shows body) : db'.Shows body := by
  cases body with
  | empty => trivial
  | error message => trivial
  | health status => trivial
  | zones zones => exact fun z hz => hkeeps.grows.zones.mem (h z hz)
  | zone z => exact hkeeps.grows.zones.mem h
  | records views =>
    exact fun v hv => (h v hv).imp fun row hrow => ⟨hkeeps.grows.desiredRecords.mem hrow.1, hrow.2⟩
  | record v => exact h.imp fun row hrow => ⟨hkeeps.grows.desiredRecords.mem hrow.1, hrow.2⟩
  | binding v => exact h.imp fun row hrow => ⟨hkeeps.grows.bindings.mem hrow.1, hrow.2⟩
  | syncStates states =>
    intro st hst
    obtain ⟨row, hrow, hevolves⟩ := h st hst
    obtain ⟨row', hrow', hevolves'⟩ := hkeeps.grows.syncStates.exists_mem hrow
    exact ⟨row', hrow', hevolves.trans hevolves'⟩
  | changeset v =>
    obtain ⟨row, hrow, hevolves, items, hperm, hviews⟩ := h
    obtain ⟨row', hrow', hevolves'⟩ := hkeeps.grows.changesets.exists_mem hrow
    refine ⟨row', hrow', hevolves.trans hevolves', items, ?_, hviews⟩
    rw [hevolves'.id_eq, hkeeps.items row.id (Table.mem_keys.mpr ⟨row, hrow, rfl⟩)]
    exact hperm

/-- The replies of a log were given before the state, one after the other. -/
structure RepliedBefore (env : SystemEnv) (log : SystemLog) (s : SystemState) : Prop where
  replied : ∀ c r, ⟨c, r⟩ ∈ log → ∃ t, r = (handleSystem env c t).1 ∧
    (handleSystem env c t).2.db.Keeps s.db
  after : ∀ pre c r post c' r', log = pre ++ ⟨c, r⟩ :: post → ⟨c', r'⟩ ∈ post →
    ∃ t t', r = (handleSystem env c t).1 ∧ r' = (handleSystem env c' t').1 ∧
      (handleSystem env c t).2.db.Keeps t'.db ∧ (handleSystem env c' t').2.db.Keeps s.db

namespace RepliedBefore

variable {env : SystemEnv} {log : SystemLog} {s : SystemState}

/-- A query was answered from a database before this one. -/
theorem read (h : RepliedBefore env log s) {c : ApiCmd}
    (hc : (SystemCmd.api c).isWrite = false) {r : c.Reply} (hr : ⟨.api c, r⟩ ∈ log) :
    ∃ t : SystemState, r = (handleApi env.apply c t.world).1 ∧ t.db.Keeps s.db := by
  obtain ⟨t, hreply, hkeeps⟩ := h.replied (.api c) r hr
  rw [(quiet_of_isWrite hc env t).1] at hkeeps
  exact ⟨t, hreply, hkeeps⟩

/-- A write that was answered by `Ok` was made before. -/
theorem wrote (h : RepliedBefore env log s) {c : SystemCmd} {r : c.Reply} (hr : ⟨c, r⟩ ∈ log)
    (hcommitted : c.committed r = true) : ∃ t db, Wrote env t c db ∧ db.Keeps s.db := by
  obtain ⟨t, rfl, hkeeps⟩ := h.replied c r hr
  exact ⟨t, _, ((handleSystem_effect env c t).wrote hcommitted).1, hkeeps⟩

omit [SerdeJson] in
/-- What was found under an id is still there. -/
private theorem mem_of_found {α κ : Type} [DecidableEq κ] {key : α → κ} {t t' : Table α key}
    (h : Table.Extends Eq t t') {k : κ} {a : α} (ha : some a = t.find? k) : a ∈ t' :=
  h.mem (Table.find?_eq_some.mp ha.symm).1

/-- A change set that was read is shown with the items it has. -/
private theorem shows_changeset (h : RepliedBefore env log s) {id : String}
    {view : ChangesetView} (hshown : ShownChangeset log id view) :
    s.db.Shows (.changeset view) := by
  obtain ⟨pre, post, rows, hlog, hrows, hviews⟩ := hshown
  obtain ⟨t, t', hreply, hreply', hkeeps, hkeeps'⟩ := h.after _ _ _ _ _ _ hlog hrows
  rw [(quiet_of_isWrite rfl env t).1] at hkeeps
  rw [(quiet_of_isWrite rfl env t').1] at hkeeps'
  replace hreply : .ok (some view.row) = (handle env.apply (.selectChangeset id) t.world).1 := hreply
  replace hreply' : .ok rows = (handle env.apply (.selectItemsByRecord id) t'.world).1 := hreply'
  have hfound : some view.row = t.db.changesets.find? id := World.query_eq_ok hreply.symm
  have hitems : rows = (t'.db.items id).insertionSort fun x y => x.recordId ≤ y.recordId :=
    World.query_eq_ok hreply'.symm
  obtain ⟨hmem, hid⟩ := Table.find?_eq_some.mp hfound.symm
  -- the change set was there when its items were read, so they have not changed since
  obtain ⟨row', hrow', hevolves'⟩ := hkeeps.grows.changesets.exists_mem hmem
  obtain ⟨row, hrow, hevolves⟩ := hkeeps'.grows.changesets.exists_mem hrow'
  have hkey : id ∈ t'.db.changesets.keys :=
    Table.mem_keys.mpr ⟨row', hrow', hevolves'.id_eq.trans hid⟩
  refine ⟨row, hrow, hevolves'.trans hevolves, rows, ?_, hviews⟩
  rw [hevolves.id_eq, hevolves'.id_eq, hid, hkeeps'.items id hkey, hitems]
  exact List.perm_insertionSort _ _

/-- What a response rests on, the database shows. -/
theorem shows (h : RepliedBefore env log s) {response : Response}
    (hanswers : Answers log response) : s.db.Shows response.body := by
  cases hanswers with
  | @error e =>
    cases e <;> trivial
  | health => trivial
  | unimplemented => trivial
  | @zones rows hread =>
    obtain ⟨t, hreply, hkeeps⟩ := h.read rfl hread
    have hrows : rows = t.db.zones.rows.insertionSort fun x y => x.name ≤ y.name :=
      World.query_eq_ok hreply.symm
    intro z hz
    rw [hrows, List.mem_insertionSort] at hz
    -- the zones that were read are still there
    exact hkeeps.grows.zones.mem hz
  | @zone row row' _ hread =>
    obtain ⟨t, hreply, hkeeps⟩ := h.read rfl hread
    have hfound : some row' = t.db.zones.find? row.id := World.query_eq_ok hreply.symm
    exact mem_of_found hkeeps.grows.zones hfound
  | @records zoneId rows views hread hviews =>
    obtain ⟨t, hreply, hkeeps⟩ := h.read rfl hread
    have hrows : rows = (t.db.desiredRecords.select fun r =>
        r.zoneId == zoneId && r.deletedAt.isNone).insertionSort fun x y =>
          x.name < y.name ∨ x.name = y.name ∧ x.recordType ≤ y.recordType :=
      World.query_eq_ok hreply.symm
    intro v hv
    obtain ⟨row, hrow, hview⟩ := (Except.mapM_eq_ok_mem hviews).2 v hv
    rw [hrows, List.mem_insertionSort] at hrow
    exact ⟨row, hkeeps.grows.desiredRecords.mem (Table.mem_select.mp hrow).1, hview⟩
  | @record row row' view _ hread hview =>
    obtain ⟨t, hreply, hkeeps⟩ := h.read rfl hread
    have hfound : some row' = t.db.desiredRecords.find? row.id := World.query_eq_ok hreply.symm
    exact ⟨row', mem_of_found hkeeps.grows.desiredRecords hfound, hview⟩
  | @binding row view _ hread =>
    obtain ⟨t, hreply, hkeeps⟩ := h.read rfl hread
    have hfound : some view = (t.db.bindings.find? row.id).map .ofRow :=
      World.query_eq_ok hreply.symm
    obtain ⟨row', hrow, hview⟩ := Option.map_eq_some_iff.mp hfound.symm
    exact ⟨row', mem_of_found hkeeps.grows.bindings hrow.symm, hview⟩
  | @syncStates bindingId rows hread =>
    obtain ⟨t, hreply, hkeeps⟩ := h.read rfl hread
    have hrows : rows = (t.db.syncStates.select fun st =>
        st.providerBindingId == bindingId).insertionSort fun x y => x.recordId ≤ y.recordId :=
      World.query_eq_ok hreply.symm
    intro st hst
    rw [hrows, List.mem_insertionSort] at hst
    exact hkeeps.grows.syncStates.exists_mem (Table.mem_select.mp hst).1
  | changesetCreated _ hread => exact h.shows_changeset hread
  | changeset hread => exact h.shows_changeset hread

end RepliedBefore

end Database

/-! ## Runs of the process -/

section Inserts

variable {db db' : Database}

private theorem mem_of_insertZone {row : Zone} (h : db.insertZone row = .ok db') :
    row ∈ db'.zones := (Table.mem_insert (Database.insertZone_ok h).1).mpr (.inr rfl)

/-- The id of a zone was free before it is inserted. -/
private theorem key_of_insertZone {row : Zone} (h : db.insertZone row = .ok db') :
    row.id ∉ db.zones.keys ∧ row.id ∈ db'.zones.keys := by
  have hinsert := (Database.insertZone_ok h).1
  refine ⟨fun hmem => ?_, Table.mem_keys.mpr ⟨row, mem_of_insertZone h, rfl⟩⟩
  rw [Table.insert_eq_none.mpr hmem] at hinsert
  cases hinsert

private theorem mem_of_insertRecord {row : DesiredRecord} (h : db.insertRecord row = .ok db') :
    row ∈ db'.desiredRecords := (Table.mem_insert (Database.insertRecord_ok h).1).mpr (.inr rfl)

/-- The id of a record was free before it is inserted. -/
private theorem key_of_insertRecord {row : DesiredRecord} (h : db.insertRecord row = .ok db') :
    row.id ∉ db.desiredRecords.keys ∧ row.id ∈ db'.desiredRecords.keys := by
  have hinsert := (Database.insertRecord_ok h).1
  refine ⟨fun hmem => ?_, Table.mem_keys.mpr ⟨row, mem_of_insertRecord h, rfl⟩⟩
  rw [Table.insert_eq_none.mpr hmem] at hinsert
  cases hinsert

private theorem activeKey_of_intoRecord [SerdeJson] {row : DesiredRecord} {v : RecordView}
    (h : intoRecord row = .ok v) : row.activeKey = (v.zoneId, v.name, v.recordType) := by
  obtain ⟨values, -, h⟩ := Except.bind_eq_ok.mp h
  cases h
  rfl

end Inserts

/-- Two bodies that show rows of which the database has one at most. -/
inductive ResponseBody.Clash [SerdeJson] : ResponseBody → ResponseBody → Prop where
  | zone {z z' : Zone} (h : z.name = z'.name) : Clash (.zone z) (.zone z')
  | record {v v' : RecordView}
      (h : (v.zoneId, v.name, v.recordType) = (v'.zoneId, v'.name, v'.recordType)) :
      Clash (.record v) (.record v')

section Runs

variable [SerdeJson] [CryptoLib] [Sha256] [UnicodeData] [Chrono]
variable {state : AppState} {requests : List Request} {runs : List WorkerRun} {env : SystemEnv}
  {s : SystemState} {schedule : List Nat} {pre post : List SystemEntry} {x : SystemEntry}

/-- The replies of a thread were given before what it does next. -/
private theorem repliedBefore_of_split
    (hsplit : (process state requests runs s).trail (handleSystem env) schedule = pre ++ x :: post) :
    RepliedBefore env (Pool.own x.event.thread pre) x.state where
  replied _ _ he := (guarantee_keeps env).replied hsplit he
  after _ _ _ _ _ _ hlog he := (guarantee_keeps env).replied_after hsplit hlog he

private theorem answersAllow_of_split
    (hsplit : (process state requests runs s).trail (handleSystem env) schedule = pre ++ x :: post) :
    AnswersAllow (Pool.own x.event.thread pre) x.event.cmd := by
  have hmem : x ∈ (process state requests runs s).trail (handleSystem env) schedule := by
    rw [hsplit]
    exact List.mem_append_right _ List.mem_cons_self
  obtain ⟨t, ht⟩ := Pool.exists_thread_of_mem_trail hmem
  exact Pool.obeys_trail hsplit ht
    (obeys_process_answers state requests runs s t (List.mem_of_getElem? ht))

/-- What a response shows is in the database when it is sent, and at the end of the run. -/
theorem responses_durable {response : Response}
    (hx : x ∈ (process state requests runs s).trail (handleSystem env) schedule)
    (hresponse : x.event.cmd = .api (.respond response)) :
    x.state.db.Shows response.body ∧
      ((process state requests runs s).exec (handleSystem env) schedule).state.db.Shows
        response.body := by
  obtain ⟨pre, post, hsplit⟩ := List.append_of_mem hx
  have hshows := (repliedBefore_of_split hsplit).shows
    ((answersAllow_of_split hsplit).answers response hresponse)
  have hkeeps := (guarantee_keeps env).step x.event.cmd x.state
  exact ⟨hshows, hshows.mono (hkeeps.trans ((guarantee_keeps env).trail_exec hx))⟩

/-- A thread ends with its response. -/
private theorem thread_ne_of_response {y : SystemEntry} {mid : List SystemEntry}
    (hsplit : (process state requests runs s).trail (handleSystem env) schedule =
      pre ++ x :: (mid ++ y :: post)) {response : Response}
    (hresponse : x.event.cmd = .api (.respond response)) : y.event.thread ≠ x.event.thread := by
  intro hthread
  have hsplit' : (process state requests runs s).trail (handleSystem env) schedule =
      (pre ++ x :: mid) ++ y :: post := by
    rw [hsplit, List.append_assoc]
    rfl
  have hlast : x.event.cmd.isResponse = false :=
    (answersAllow_of_split hsplit').unanswered ⟨x.event.cmd, x.event.reply⟩
      (Pool.mem_own.mpr ⟨x, by simp, hthread.symm, rfl⟩)
  rw [hresponse] at hlast
  cases hlast

/-- A request that is answered with a client error writes nothing, before or after. -/
theorem clientError_untouched {response : Response}
    (hx : x ∈ (process state requests runs s).trail (handleSystem env) schedule)
    (hresponse : x.event.cmd = .api (.respond response))
    (herror : response.status.isClientError = true) :
    ∀ y ∈ (process state requests runs s).trail (handleSystem env) schedule,
      y.event.thread = x.event.thread → y.event.cmd.committed y.event.reply = false := by
  intro y hy hthread
  obtain ⟨pre, post, hsplit⟩ := List.append_of_mem hx
  have huntouched := ((answersAllow_of_split hsplit).answers response hresponse).untouched herror
  rw [hsplit] at hy
  rcases List.mem_append.mp hy with hy | hy
  · exact huntouched ⟨y.event.cmd, y.event.reply⟩ (Pool.mem_own.mpr ⟨y, hy, hthread, rfl⟩)
  · rcases List.mem_cons.mp hy with rfl | hy
    · exact committed_of_isWrite (by rw [hresponse]; rfl) _
    · obtain ⟨mid, rest, rfl⟩ := List.append_of_mem hy
      exact absurd hthread (thread_ne_of_response hsplit hresponse)

/-! ### Unique rows -/

/-- Two threads do not both insert a row under one key: what the first has done the second would
    have to have found undone. -/
private theorem not_both_insert {u v : SystemEntry} {P : Database → Prop}
    (hmono : ∀ db db' : Database, db.Keeps db' → P db → P db')
    (hu : u ∈ (process state requests runs s).trail (handleSystem env) schedule)
    (hv : v ∈ (process state requests runs s).trail (handleSystem env) schedule)
    (hdone : ∀ w : SystemEntry, w = u ∨ w = v → ¬ P w.state.db ∧ P (w.after (handleSystem env)).db) :
    u.event.thread = v.event.thread := by
  by_contra hne
  rcases (guarantee_keeps env).comparable hu hv hne with hkeeps | hkeeps
  · exact (hdone v (.inr rfl)).1 (hmono _ _ hkeeps (hdone u (.inl rfl)).2)
  · exact (hdone u (.inl rfl)).1 (hmono _ _ hkeeps (hdone v (.inr rfl)).2)

/-- A write of a thread stands in the trail, and was made before what the thread does next. -/
private theorem exists_wrote {i : Nat} {c : SystemCmd} {r : c.Reply}
    (hsplit : (process state requests runs s).trail (handleSystem env) schedule = pre ++ x :: post)
    (he : ⟨c, r⟩ ∈ Pool.own i pre) (hcommitted : c.committed r = true) :
    ∃ u ∈ (process state requests runs s).trail (handleSystem env) schedule,
      u.event.thread = i ∧ u.event.cmd = c ∧
        Wrote env u.state c (u.after (handleSystem env)).db ∧
        (u.after (handleSystem env)).db.Keeps x.state.db := by
  obtain ⟨u, hu, hthread, heq⟩ := Pool.mem_own.mp he
  have hmem : u ∈ (process state requests runs s).trail (handleSystem env) schedule := by
    rw [hsplit]
    exact List.mem_append_left _ hu
  have hreply := Pool.reply_of_mem_trail hmem
  have hpairs := (guarantee_keeps env).pairwise_trail (process state requests runs s) schedule
  rw [hsplit] at hpairs
  have hkeeps := (List.pairwise_append.mp hpairs).2.2 u hu x List.mem_cons_self
  obtain ⟨t, j, d, q⟩ := u
  cases heq
  exact ⟨_, hmem, hthread, rfl, ((handleSystem_effect env _ t).wrote (hreply ▸ hcommitted)).1,
    hkeeps⟩

/-- The rows of requests are active. -/
private theorem deletedAt_of_mem_trail {u : SystemEntry} {row : DesiredRecord}
    (hu : u ∈ (process state requests runs s).trail (handleSystem env) schedule)
    (hcmd : u.event.cmd = .api (.insertRecord row)) : row.deletedAt = none := by
  obtain ⟨pre, post, hsplit⟩ := List.append_of_mem hu
  have hsanctioned := sanctioned_of_split hsplit
  rw [hcmd] at hsanctioned
  rcases hsanctioned with ⟨request, -, hmakes⟩ | ⟨run, -, hmakes⟩
  · cases request with
    | createRecord draws zoneId body =>
      obtain ⟨json, -, hrow⟩ := Except.bind_eq_ok.mp hmakes.2
      cases hrow
      rfl
    | _ => exact Bool.noConfusion hmakes
  · exact hmakes.elim

/-- The zone that is reported as created is the row that was inserted. -/
private theorem created_zone {z : Zone}
    (hx : x ∈ (process state requests runs s).trail (handleSystem env) schedule)
    (hresponse : x.event.cmd = .api (.respond ⟨.created, .zone z⟩)) :
    ∃ u ∈ (process state requests runs s).trail (handleSystem env) schedule,
      u.event.thread = x.event.thread ∧
        u.state.db.insertZone z = .ok (u.after (handleSystem env)).db := by
  obtain ⟨pre, post, hsplit⟩ := List.append_of_mem hx
  obtain ⟨row, hwrite, hread⟩ :=
    ((answersAllow_of_split hsplit).answers _ hresponse).created_zone
  obtain ⟨u, hu, hthread, -, hwrote, hkeeps⟩ := exists_wrote hsplit hwrite rfl
  obtain ⟨t, hreply, hkeeps'⟩ := (repliedBefore_of_split hsplit).read rfl hread
  have hfound : some z = t.db.zones.find? row.id := World.query_eq_ok hreply.symm
  obtain ⟨hz, hid⟩ := Table.find?_eq_some.mp hfound.symm
  refine ⟨u, hu, hthread, ?_⟩
  generalize (u.after (handleSystem env)).db = db at hwrote hkeeps
  cases hwrote with
  | zone hinsert =>
    have hrow : row ∈ db.zones :=
      (Table.mem_insert (Database.insertZone_ok hinsert).1).mpr (.inr rfl)
    rwa [Table.eq_of_key_eq (hkeeps'.grows.zones.mem hz) (hkeeps.grows.zones.mem hrow) hid]

/-- The record that is reported as created is the row that was inserted. -/
private theorem created_record {v : RecordView}
    (hx : x ∈ (process state requests runs s).trail (handleSystem env) schedule)
    (hresponse : x.event.cmd = .api (.respond ⟨.created, .record v⟩)) :
    ∃ u ∈ (process state requests runs s).trail (handleSystem env) schedule, ∃ row,
      u.event.thread = x.event.thread ∧ intoRecord row = .ok v ∧ row.deletedAt = none ∧
        u.state.db.insertRecord row = .ok (u.after (handleSystem env)).db ∧
        (u.after (handleSystem env)).db.Keeps x.state.db := by
  obtain ⟨pre, post, hsplit⟩ := List.append_of_mem hx
  obtain ⟨row, row', hwrite, hread, hview⟩ :=
    ((answersAllow_of_split hsplit).answers _ hresponse).created_record
  obtain ⟨u, hu, hthread, hcmd, hwrote, hkeeps⟩ := exists_wrote hsplit hwrite rfl
  obtain ⟨t, hreply, hkeeps'⟩ := (repliedBefore_of_split hsplit).read rfl hread
  have hfound : some row' = t.db.desiredRecords.find? row.id := World.query_eq_ok hreply.symm
  obtain ⟨hmem, hid⟩ := Table.find?_eq_some.mp hfound.symm
  have hactive : row.deletedAt = none := deletedAt_of_mem_trail hu hcmd
  refine ⟨u, hu, row, hthread, ?_, hactive, ?_, hkeeps⟩
  · generalize (u.after (handleSystem env)).db = db at hwrote hkeeps
    cases hwrote with
    | record hinsert =>
      have hrow : row ∈ db.desiredRecords :=
        (Table.mem_insert (Database.insertRecord_ok hinsert).1).mpr (.inr rfl)
      rwa [← Table.eq_of_key_eq (hkeeps'.grows.desiredRecords.mem hmem)
        (hkeeps.grows.desiredRecords.mem hrow) hid]
  · generalize (u.after (handleSystem env)).db = db at hwrote
    cases hwrote with
    | record hinsert => exact hinsert

/-- Two zones with one name, or two active records with one name and type in a zone, are not both
    reported as created. -/
theorem created_once {y : SystemEntry} {mid : List SystemEntry} {body body' : ResponseBody}
    (hsplit : (process state requests runs s).trail (handleSystem env) schedule =
      pre ++ x :: (mid ++ y :: post))
    (hx : x.event.cmd = .api (.respond ⟨.created, body⟩))
    (hy : y.event.cmd = .api (.respond ⟨.created, body'⟩)) : ¬ body.Clash body' := by
  intro hclash
  have hne := thread_ne_of_response hsplit hx
  have hmem : ∀ w, w = x ∨ w = y →
      w ∈ (process state requests runs s).trail (handleSystem env) schedule := by
    rw [hsplit]
    rintro w (rfl | rfl) <;> simp
  -- the row of a clash would have been inserted by both threads
  suffices hthreads : y.event.thread = x.event.thread from hne hthreads
  cases hclash with
  | @zone z z' hname =>
    obtain ⟨u, hu, hxu, hinsert⟩ := created_zone (hmem x (.inl rfl)) hx
    obtain ⟨v, hv, hyv, hinsert'⟩ := created_zone (hmem y (.inr rfl)) hy
    have hz := ((guarantee_keeps env).trail_exec hu).grows.zones.mem (mem_of_insertZone hinsert)
    have hz' := ((guarantee_keeps env).trail_exec hv).grows.zones.mem (mem_of_insertZone hinsert')
    obtain rfl := List.inj_on_of_nodup_map (Database.zoneNameUnique _) hz hz' hname
    rw [← hxu, ← hyv]
    refine (not_both_insert (P := fun db => z.id ∈ db.zones.keys)
      (fun db db' hkeeps => hkeeps.grows.zones.mem_keys fun h => congrArg _ h.symm) hv hu ?_)
    rintro w (rfl | rfl)
    · exact key_of_insertZone hinsert'
    · exact key_of_insertZone hinsert
  | @record w w' hkey =>
    obtain ⟨u, hu, row, hxu, hview, hactive, hinsert, -⟩ := created_record (hmem x (.inl rfl)) hx
    obtain ⟨v, hv, row', hyv, hview', hactive', hinsert', -⟩ :=
      created_record (hmem y (.inr rfl)) hy
    have hrow := ((guarantee_keeps env).trail_exec hu).grows.desiredRecords.mem
      (mem_of_insertRecord hinsert)
    have hrow' := ((guarantee_keeps env).trail_exec hv).grows.desiredRecords.mem
      (mem_of_insertRecord hinsert')
    have hkeys : row.activeKey = row'.activeKey := by
      rw [activeKey_of_intoRecord hview, activeKey_of_intoRecord hview']
      exact hkey
    obtain rfl := List.inj_on_of_nodup_map (Database.recordUnique _)
      (List.mem_filter.mpr ⟨hrow, by rw [hactive]; rfl⟩)
      (List.mem_filter.mpr ⟨hrow', by rw [hactive']; rfl⟩) hkeys
    rw [← hxu, ← hyv]
    refine (not_both_insert (P := fun db => row.id ∈ db.desiredRecords.keys)
      (fun db db' hkeeps => hkeeps.grows.desiredRecords.mem_keys fun h => congrArg _ h.symm)
      hv hu ?_)
    rintro w (rfl | rfl)
    · exact key_of_insertRecord hinsert'
    · exact key_of_insertRecord hinsert

/-! ### Reading one's writes -/

/-- A thread that starts after a response reads from a database that has come after it. -/
private theorem read_after {y : SystemEntry} {mid : List SystemEntry}
    (hsplit : (process state requests runs s).trail (handleSystem env) schedule =
      pre ++ x :: (mid ++ y :: post)) (hne : y.event.thread ≠ x.event.thread)
    (hstart : Pool.own y.event.thread pre = []) {c : ApiCmd} {r : c.Reply}
    (hr : ⟨.api c, r⟩ ∈ Pool.own y.event.thread (pre ++ x :: mid)) :
    ∃ t : SystemState, r = (handleApi env.apply c t.world).1 ∧ x.state.db.Keeps t.db := by
  obtain ⟨w, hw, hthread, heq⟩ := Pool.mem_own.mp hr
  have hmid : w ∈ mid := by
    rcases List.mem_append.mp hw with hw | hw
    · have hown := Pool.mem_own.mpr ⟨w, hw, hthread, rfl⟩
      rw [hstart] at hown
      cases hown
    · rcases List.mem_cons.mp hw with rfl | hw
      · exact absurd hthread (Ne.symm hne)
      · exact hw
  have hmem : w ∈ (process state requests runs s).trail (handleSystem env) schedule := by
    rw [hsplit]
    simp [hmid]
  have hreply := Pool.reply_of_mem_trail hmem
  have hpairs := (guarantee_keeps env).pairwise_trail (process state requests runs s) schedule
  rw [hsplit] at hpairs
  have hlater := (List.pairwise_cons.mp (List.pairwise_append.mp hpairs).2.1).1 w
    (List.mem_append_left _ hmid)
  obtain ⟨t, j, d, q⟩ := w
  cases heq
  exact ⟨t, hreply, ((guarantee_keeps env).step x.event.cmd x.state).trans hlater⟩

/-- A zone that was reported as created is in every list of zones that is asked for later. -/
theorem zones_listed_after_created {y : SystemEntry} {mid : List SystemEntry} {z : Zone}
    {zones : List Zone}
    (hsplit : (process state requests runs s).trail (handleSystem env) schedule =
      pre ++ x :: (mid ++ y :: post))
    (hx : x.event.cmd = .api (.respond ⟨.created, .zone z⟩))
    (hstart : Pool.own y.event.thread pre = [])
    (hy : y.event.cmd = .api (.respond ⟨.ok, .zones zones⟩)) : z ∈ zones := by
  have hsplit' : (process state requests runs s).trail (handleSystem env) schedule =
      (pre ++ x :: mid) ++ y :: post := by
    rw [hsplit, List.append_assoc]
    rfl
  have hread := ((answersAllow_of_split hsplit').answers _ hy).listed_zones
  obtain ⟨t, hreply, hkeeps⟩ := read_after hsplit (thread_ne_of_response hsplit hx) hstart hread
  have hrows : zones = t.db.zones.rows.insertionSort fun x y => x.name ≤ y.name :=
    World.query_eq_ok hreply.symm
  have hshown : z ∈ x.state.db.zones :=
    (responses_durable (by rw [hsplit]; simp) hx).1
  rw [hrows, List.mem_insertionSort]
  exact hkeeps.grows.zones.mem hshown

/-- A request for the records of a zone reads those of this zone. -/
private theorem zoneId_of_listRecords {i : Nat} {zoneId zoneId' : String}
    {rows : Except DbError (List DesiredRecord)}
    (hsplit : (process state requests runs s).trail (handleSystem env) schedule = pre ++ x :: post)
    (hrequest : requests[i]? = some (.listRecords zoneId))
    (hread : ⟨.api (.selectRecords zoneId'), rows⟩ ∈ Pool.own i pre) : zoneId' = zoneId := by
  have honly : Only (fun c => ∀ z, c = .api (.selectRecords z) → z = zoneId)
      (serve state (.listRecords zoneId)) := by
    refine .bind (.attempt (.bind ?_ fun _ => .pure _)) fun _ => .perform_bind nofun fun _ => .pure _
    refine .bind (.perform_bind nofun fun r => .liftExcept_bind fun zoneCount => ?_) fun _ => ?_
    · split
      · exact .throw _
      · exact .pure _
    · refine .perform_bind (fun z hz => ?_) fun _ => .liftExcept_bind fun rows => .liftExcept _
      cases hz
      rfl
  have ht : (process state requests runs s).threads[i]? = some (serve state (.listRecords zoneId)) := by
    have hlt := (List.getElem?_eq_some_iff.mp hrequest).1
    change (requests.map (serve state) ++ _)[i]? = _
    rw [List.getElem?_append_left (by rwa [List.length_map]), List.getElem?_map, hrequest]
    rfl
  obtain ⟨t', -, hpath⟩ := Pool.path_trail (h := handleSystem env) schedule ht
  rw [hsplit, Pool.own_append] at hpath
  exact honly.path hpath _ (List.mem_append_left _ hread) zoneId' rfl

/-- A record that was reported as created is in every list of its zone that is asked for later. -/
theorem records_listed_after_created {y : SystemEntry} {mid : List SystemEntry} {v : RecordView}
    {views : List RecordView}
    (hsplit : (process state requests runs s).trail (handleSystem env) schedule =
      pre ++ x :: (mid ++ y :: post))
    (hx : x.event.cmd = .api (.respond ⟨.created, .record v⟩))
    (hstart : Pool.own y.event.thread pre = [])
    (hrequest : requests[y.event.thread]? = some (.listRecords v.zoneId))
    (hy : y.event.cmd = .api (.respond ⟨.ok, .records views⟩)) : v ∈ views := by
  have hsplit' : (process state requests runs s).trail (handleSystem env) schedule =
      (pre ++ x :: mid) ++ y :: post := by
    rw [hsplit, List.append_assoc]
    rfl
  obtain ⟨zoneId, rows, hread, hviews⟩ :=
    ((answersAllow_of_split hsplit').answers _ hy).listed_records
  obtain rfl : zoneId = v.zoneId := zoneId_of_listRecords hsplit' hrequest hread
  obtain ⟨t, hreply, hkeeps⟩ := read_after hsplit (thread_ne_of_response hsplit hx) hstart hread
  have hrows : rows = (t.db.desiredRecords.select fun r =>
      r.zoneId == v.zoneId && r.deletedAt.isNone).insertionSort fun x y =>
        x.name < y.name ∨ x.name = y.name ∧ x.recordType ≤ y.recordType :=
    World.query_eq_ok hreply.symm
  obtain ⟨u, -, row, -, hview, hactive, hinsert, hkeeps'⟩ :=
    created_record (x := x) (v := v) (by rw [hsplit]; simp) hx
  have hmem := hkeeps.grows.desiredRecords.mem
    (hkeeps'.grows.desiredRecords.mem (mem_of_insertRecord hinsert))
  have hzone : row.zoneId = v.zoneId := congrArg Prod.fst (activeKey_of_intoRecord hview)
  have hlisted : row ∈ rows := by
    rw [hrows, List.mem_insertionSort, Table.mem_select]
    exact ⟨hmem, by simp [hzone, hactive]⟩
  obtain ⟨v', hv', hview'⟩ := (Except.mapM_eq_ok_mem hviews).1 row hlisted
  rwa [Except.ok.inj (hview.symm.trans hview')]

end Runs

/-! ## A run of the sample -/

namespace Sample

/-- An `A` record `blog`. -/
private def blogRequest (id : String) : Request :=
  .createRecord ⟨id, "2024-01-15T12:30:00+00:00"⟩ "z1"
    { name := "blog", recordType := .a, ttl := 300, values := ["192.0.2.1"] }

private def zoneRequest (id name : String) : Request :=
  .createZone ⟨id, "2024-01-15T12:30:00+00:00"⟩ { name, defaultTtl := 300 }

/-- Two zones and a record are created, and both are listed; the record is asked for twice. -/
private def clientRequests : List Request :=
  [zoneRequest "z2" "example.org", .listZones, blogRequest "r3", .listRecords "z1",
    blogRequest "r4", zoneRequest "z3" "example.net"]

/-- The requests are served one after the other. -/
private def inTurn : List Nat :=
  List.replicate 3 0 ++ List.replicate 2 1 ++ List.replicate 4 2 ++ List.replicate 3 3 ++
    List.replicate 3 4 ++ List.replicate 3 5

private abbrev clientTrail : List SystemEntry :=
  (process appState clientRequests [] systemState).trail (handleSystem systemEnv) inTurn

private theorem length_clientTrail : clientTrail.length = 18 := by decide +kernel

/-- The entry with a number. -/
private abbrev entry (i : Fin 18) : SystemEntry := clientTrail.get (i.cast length_clientTrail.symm)

private theorem clientTrail_split (i j : Fin 18) (h : i < j) :
    clientTrail = clientTrail.take i ++
      entry i :: ((clientTrail.drop (i + 1)).take (j - i - 1) ++
        entry j :: clientTrail.drop (j + 1)) := by
  have hlen := length_clientTrail
  have hij : (i : Nat) + 1 + (j - i - 1) = j := by omega
  have hi : clientTrail.drop i = entry i :: clientTrail.drop (i + 1) :=
    List.drop_eq_getElem_cons (by omega)
  have hj : (clientTrail.drop (i + 1)).drop (j - i - 1) = entry j :: clientTrail.drop (j + 1) := by
    rw [List.drop_drop, hij]
    exact List.drop_eq_getElem_cons (by omega)
  rw [← hj, List.take_append_drop, ← hi, List.take_append_drop]

private theorem entry_mem (i : Fin 18) : entry i ∈ clientTrail := List.get_mem _ _

/-- Two bodies with rows of zones or records are the same. -/
private def sameRows : ResponseBody → ResponseBody → Bool
  | .zone z, .zone z' => z = z'
  | .zones zones, .zones zones' => zones = zones'
  | .record v, .record v' => v = v'
  | .records views, .records views' => views = views'
  | .error message, .error message' => message = message'
  | _, _ => false

/-- The command answers a request with this response. -/
private def answered (c : SystemCmd) (response : Response) : Bool :=
  match c with
  | .api (.respond r) => r.status = response.status && sameRows r.body response.body
  | _ => false

private theorem eq_of_answered {c : SystemCmd} {response : Response}
    (h : answered c response = true) : c = .api (.respond response) := by
  unfold answered at h
  split at h
  · next r =>
    obtain ⟨hstatus, hbody⟩ := Bool.and_eq_true_iff.mp h
    obtain ⟨status, body⟩ := r
    obtain ⟨status', body'⟩ := response
    obtain rfl := of_decide_eq_true hstatus
    dsimp only at hbody
    unfold sameRows at hbody
    split at hbody
    · cases of_decide_eq_true hbody
      rfl
    · cases of_decide_eq_true hbody
      rfl
    · cases of_decide_eq_true hbody
      rfl
    · cases of_decide_eq_true hbody
      rfl
    · cases of_decide_eq_true hbody
      rfl
    · cases hbody
  · cases h

private def createdZone (id name : String) : Zone :=
  zoneRow ⟨id, "2024-01-15T12:30:00+00:00"⟩ { name, defaultTtl := 300 }

private def blogView : RecordView where
  id := "r3"
  zoneId := "z1"
  name := "blog"
  recordType := "A"
  ttl := 300
  values := ["192.0.2.1"]
  desiredHash := "b4f64e9cf917e73b20462794c400608f8f9b367fc51ce08599df3e6d1d7beec1"
  createdAt := "2024-01-15T12:30:00+00:00"
  updatedAt := "2024-01-15T12:30:00+00:00"

/-- A record that was there from the start. -/
private def oldView (id name : String) : RecordView where
  id
  zoneId := "z1"
  name
  recordType := "A"
  ttl := 300
  values := ["192.0.2.1"]
  desiredHash := ""
  createdAt := "2024-01-15T12:00:00+00:00"
  updatedAt := "2024-01-15T12:00:00+00:00"

private theorem entry_two :
    (entry 2).event.cmd = .api (.respond ⟨.created, .zone (createdZone "z2" "example.org")⟩) :=
  eq_of_answered (by decide +kernel)

private theorem entry_eight :
    (entry 8).event.cmd = .api (.respond ⟨.created, .record blogView⟩) :=
  eq_of_answered (by decide +kernel)

private theorem entry_fourteen : (entry 14).event.cmd =
    .api (.respond ⟨.conflict, .error "conflict: resource already exists"⟩) :=
  eq_of_answered (by decide +kernel)

theorem responses_durable_blog :
    (entry 8).state.db.Shows (.record blogView) ∧
      ((process appState clientRequests [] systemState).exec (handleSystem systemEnv)
        inTurn).state.db.Shows (.record blogView) :=
  responses_durable (entry_mem 8) entry_eight

/-- The insertion for the second request, before its response, does not take effect. -/
theorem clientError_untouched_conflict :
    (entry 13).event.cmd.isWrite = true ∧
      (entry 13).event.cmd.committed (entry 13).event.reply = false :=
  ⟨by decide +kernel, clientError_untouched (entry_mem 14) entry_fourteen (by decide) (entry 13)
    (entry_mem 13) (by decide +kernel)⟩

theorem created_once_zones : ¬ (ResponseBody.zone (createdZone "z2" "example.org")).Clash
    (.zone (createdZone "z3" "example.net")) :=
  created_once (clientTrail_split 2 17 (by decide)) entry_two (eq_of_answered (by decide +kernel))

theorem zones_listed_after_created_org :
    createdZone "z2" "example.org" ∈ [zone, createdZone "z2" "example.org"] :=
  zones_listed_after_created (clientTrail_split 2 4 (by decide)) entry_two (by decide +kernel)
    (eq_of_answered (by decide +kernel))

theorem records_listed_after_created_blog :
    blogView ∈ [oldView "r2" "api", blogView, oldView "r1" "www"] :=
  records_listed_after_created (clientTrail_split 8 11 (by decide)) entry_eight
    (by decide +kernel) rfl (eq_of_answered (by decide +kernel))

end Sample

end DnsManager
