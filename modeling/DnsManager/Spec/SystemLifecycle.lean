import DnsManager.Spec.AtMostOnce
import DnsManager.Spec.RequestWrites

/-!
# The life cycle of change sets in the whole process

Requests of all kinds, the apply loop and the synchronisation loops run on one database. The
automaton of the life cycle reads the commands of the apply loop and of `validate` among all
others, and its invariant is kept by the others too: they leave the statuses alone, and a new
change set is a draft that nobody has claimed.

## Key results
- `SystemClaims.step`: every allowed command of the process keeps the invariant.
- `process_history`: over every run the database only grows, and the statuses move along the life
  cycle.
- `process_appliedOnce`: over every run `apply_items` is called at most once for every change set.
-/

namespace DnsManager

open Prog (Event Monitor Obeys Only Pool)

section

variable [SerdeJson]

/-! ## The automaton among the other commands -/

/-- An event of the process. -/
abbrev SystemEvent := Event SystemCmd SystemCmd.Reply

/-- The event of the apply loop or of `validate` that an event is. -/
def changeEvent : SystemEvent → Option CmdEvent
  | ⟨i, .apply c, r⟩ => some ⟨i, c, r⟩
  | _ => none

/-- The events of the apply loops and of `validate`. -/
def changeLog (log : List SystemEvent) : List CmdEvent := log.filterMap changeEvent

theorem changeLog_concat (log : List SystemEvent) (e : SystemEvent) :
    changeLog (log ++ [e]) = changeLog log ++ (changeEvent e).toList := by
  unfold changeLog
  rw [List.filterMap_append]
  cases he : changeEvent e <;> simp [he]

/-- The automaton of the life cycle, which lets all other commands pass. A new change set has to
    be a draft. -/
def systemLifecycle : Monitor SystemCmd SystemCmd.Reply where
  State := Phase
  init := .idle
  allows phase c :=
    match c with
    | .apply c => phase.Allows c
    | .api (.txCreateChangeset row _) => row.status = .draft
    | _ => True
  next phase c r :=
    match c, r with
    | .apply c, r => phase.next c r
    | _, _ => phase

/-- It is in the phase that the commands it reads lead to. -/
theorem systemLifecycle_after (i : Nat) (log : List SystemEvent) :
    systemLifecycle.after i log = phaseOf i (changeLog log) := by
  induction log using List.reverseRecOn with
  | nil => rfl
  | append_singleton log e ih =>
    rw [systemLifecycle.after_concat, changeLog_concat, ih]
    obtain ⟨j, c, r⟩ := e
    cases c with
    | apply c =>
      simp only [changeEvent, Option.toList_some]
      rw [phaseOf_concat]
      rfl
    | sync c =>
      simp only [changeEvent, Option.toList_none, List.append_nil]
      exact ite_self _
    | api c =>
      simp only [changeEvent, Option.toList_none, List.append_nil]
      exact ite_self _

/-- A program of the apply loop or of `validate` keeps to the automaton among the others. -/
theorem obeys_embed_apply {ε α : Type} {p : Prog Cmd Cmd.Reply ε α} {phase : Phase}
    (hp : Obeys lifecycle p phase fun _ _ => True) :
    Obeys systemLifecycle (p.embed applyCommands) phase fun _ _ => True := by
  let part : systemLifecycle.State → lifecycle.State := fun phase => phase
  refine Obeys.embed (m := lifecycle) (Q := fun _ _ => True) part ?_ ?_ hp
  · exact fun _ _ h => h
  · exact fun _ _ _ => rfl

/-- A command that the automaton lets pass: one of the other parts, or a plain read of a change
    set. -/
def SystemCmd.IsPlain : SystemCmd → Prop
  | .apply (.selectChangeset _) | .apply (.selectItemsByRecord _) => True
  | .apply _ => False
  | .api (.txCreateChangeset row _) => row.status = .draft
  | .sync _ | .api _ => True

/-- A program of such commands. -/
structure Plain {ε α : Type} (p : Prog SystemCmd SystemCmd.Reply ε α) : Prop where
  only : Only SystemCmd.IsPlain p

/-- It keeps to the automaton. -/
theorem Plain.obeys {ε α : Type} {p : Prog SystemCmd SystemCmd.Reply ε α} (hp : Plain p)
    (phase : Phase) : Obeys systemLifecycle p phase fun _ _ => True := by
  refine (Prog.Only.obeys (m := systemLifecycle) (hp.only.mono fun c hc => ?_)).mono
    fun _ _ _ => trivial
  cases c with
  | apply c =>
    cases c with
    | selectChangeset id => exact ⟨trivial, fun _ => rfl⟩
    | selectItemsByRecord id => exact ⟨trivial, fun _ => rfl⟩
    | _ => exact hc.elim
  | sync c => exact ⟨trivial, fun _ => rfl⟩
  | api c =>
    cases c with
    | txCreateChangeset row items => exact ⟨hc, fun _ => rfl⟩
    | _ => exact ⟨trivial, fun _ => rfl⟩

/-! ## The threads of the process -/

theorem plain_fetchChangeset (id : String) : Plain ((fetchChangeset id).embed applyCommands) :=
  ⟨Only.embed (P := fun c => (SystemCmd.apply c).IsPlain) (fun _ hc => hc)
    (only_fetchChangeset trivial trivial)⟩

theorem plain_requireZone (zoneId : String) : Plain (Handler.requireZone zoneId) := by
  refine ⟨.perform_bind trivial fun r => .liftExcept_bind fun zoneCount => ?_⟩
  split
  · exact .throw _
  · exact .pure _

theorem plain_listZones : Plain Handler.listZones :=
  ⟨.perform_bind trivial fun _ => .liftExcept _⟩

theorem plain_createZone (draws : Draws) (body : CreateZoneRequest) :
    Plain (Handler.createZone draws body) := by
  refine ⟨.liftExcept_bind fun _ => ?_⟩
  refine .perform_bind trivial fun _ => .liftExcept_bind fun _ => ?_
  exact .perform_bind trivial fun _ => .liftExcept _

theorem plain_listRecords (zoneId : String) : Plain (Handler.listRecords zoneId) := by
  refine ⟨.bind (plain_requireZone zoneId).only fun _ => ?_⟩
  exact .perform_bind trivial fun _ => .liftExcept_bind fun rows => .liftExcept _

theorem plain_createRecord [Sha256] (draws : Draws) (zoneId : String) (body : CreateRecordRequest) :
    Plain (Handler.createRecord draws zoneId body) := by
  refine ⟨.liftExcept_bind fun _ => .bind (plain_requireZone zoneId).only fun _ => ?_⟩
  refine .liftExcept_bind fun row => .perform_bind trivial fun _ => .liftExcept_bind fun _ => ?_
  exact .perform_bind trivial fun _ => .liftExcept_bind fun row => .liftExcept _

theorem plain_createProvider [CryptoLib] (state : AppState) (draws : ProviderDraws)
    (body : CreateProviderRequest) : Plain (Handler.createProvider state draws body) := by
  refine ⟨.liftExcept_bind fun _ => .bind (plain_requireZone _).only fun _ => ?_⟩
  refine .liftExcept_bind fun row => .perform_bind trivial fun _ => .liftExcept_bind fun _ => ?_
  exact .perform_bind trivial fun _ => .liftExcept _

theorem plain_getSyncState (providerId : String) : Plain (Handler.getSyncState providerId) := by
  refine ⟨.perform_bind trivial fun _ => .liftExcept_bind fun bindingCount => ?_⟩
  split
  · exact .throw _
  · exact .perform_bind trivial fun _ => .liftExcept _

theorem plain_createChangeset (draws : Draws) (body : CreateChangesetRequest) :
    Plain (Handler.createChangeset draws body) := by
  refine ⟨.liftExcept_bind fun _ => .perform_bind rfl fun _ => .liftExcept_bind fun _ => ?_⟩
  refine .bind (plain_fetchChangeset _).only fun changeset => ?_
  cases changeset with
  | none => exact .throw _
  | some changeset => exact .pure _

theorem plain_getChangeset (changesetId : String) : Plain (Handler.getChangeset changesetId) := by
  refine ⟨.bind (plain_fetchChangeset _).only fun changeset => ?_⟩
  cases changeset with
  | none => exact .throw _
  | some changeset => exact .pure _

variable [CryptoLib] [Sha256]

/-- All handlers but that of `validate` issue such commands only. -/
theorem plain_handler (state : AppState) {request : Request}
    (hrequest : ∀ id, request ≠ .validateChangeset id) : Plain (request.handler state) := by
  have answers : ∀ {α : Type} {status : StatusCode} {body : α → ResponseBody} {p : HandlerM α},
      Plain p → Plain (respondWith status body p) := fun hp => ⟨.bind hp.only fun _ => .pure _⟩
  cases request with
  | getHealth => exact ⟨.pure _⟩
  | listZones => exact answers plain_listZones
  | createZone draws body => exact answers (plain_createZone draws body)
  | listRecords zoneId => exact answers (plain_listRecords zoneId)
  | createRecord draws zoneId body => exact answers (plain_createRecord draws zoneId body)
  | createProvider draws body => exact answers (plain_createProvider state draws body)
  | getSyncState providerId => exact answers (plain_getSyncState providerId)
  | createChangeset draws body => exact answers (plain_createChangeset draws body)
  | getChangeset changesetId => exact answers (plain_getChangeset changesetId)
  | validateChangeset changesetId => exact absurd rfl (hrequest changesetId)
  | unimplemented handler => exact ⟨.pure _⟩

/-- A request is served within the life cycle. -/
theorem obeys_serve (state : AppState) (request : Request) :
    Obeys systemLifecycle (serve state request) .idle fun _ _ => True := by
  have hrespond : ∀ (result : Except ApiError Response) (phase : Phase),
      Obeys systemLifecycle ((ApiCmd.respond (intoResponse result)).issue :
        Prog.Thread SystemCmd SystemCmd.Reply) phase fun _ _ => True :=
    fun result phase => ⟨trivial, fun _ => trivial⟩
  refine Obeys.bind (Obeys.attempt ?_)
  suffices hhandler : Obeys systemLifecycle (request.handler state) Phase.idle fun _ _ => True from
    hhandler.mono fun x phase _ => hrespond x phase
  by_cases hvalidate : ∃ id, request = .validateChangeset id
  · obtain ⟨id, rfl⟩ := hvalidate
    refine Obeys.bind ((obeys_embed_apply (obeys_validateChangeset .idle id)).mono fun x phase _ => ?_)
    cases x <;> trivial
  · exact (plain_handler state fun id hid => hvalidate ⟨id, hid⟩).obeys _

variable [UnicodeData] [Chrono]

omit [Sha256] in
/-- The loops of the worker run within the life cycle. -/
theorem obeys_workerRun (run : WorkerRun) :
    ∀ t ∈ run.threads, Obeys systemLifecycle t .idle fun _ _ => True := by
  have hsync : ∀ p : SyncM Unit, Obeys systemLifecycle ((p.embed syncCommands).detach) .idle
      fun _ _ => True := fun p =>
    Obeys.detach (Plain.obeys ⟨Only.embed (fun _ _ => trivial) (Only.all p)⟩ .idle)
  have happly : Obeys lifecycle (run.worker.runApplyLoop run.applyTicks) .idle fun _ _ => True := by
    refine Obeys.forM (m := lifecycle) (fun _ => True) trivial fun _ _ phase _ => ?_
    exact Obeys.bind (Obeys.attempt
      ((obeys_processApplyBatch run.worker phase).mono fun _ _ _ => trivial))
  intro t ht
  simp only [WorkerRun.threads, List.mem_cons, List.not_mem_nil, or_false] at ht
  rcases ht with rfl | rfl | rfl
  · exact Obeys.detach (obeys_embed_apply happly)
  · exact hsync _
  · exact hsync _

/-- Every thread of the process keeps to the life cycle. -/
theorem obeys_process (state : AppState) (requests : List Request) (runs : List WorkerRun)
    (s : SystemState) : ∀ t ∈ (process state requests runs s).threads,
      Obeys systemLifecycle t systemLifecycle.init fun _ _ => True := by
  intro t ht
  rcases List.mem_append.mp ht with ht | ht
  · obtain ⟨request, -, rfl⟩ := List.mem_map.mp ht
    exact obeys_serve state request
  · obtain ⟨run, -, ht⟩ := List.mem_flatMap.mp ht
    exact obeys_workerRun run t ht

end

/-! ## The statuses after a command of another part -/

/-- The statuses change sets have before and after a step. -/
def StatusStep (x y : Option ChangeSetStatus) : Prop :=
  x = y ∨ (x = none ∧ y = some .draft) ∨
    ∃ s t, x = some s ∧ y = some t ∧ s.canTransitionTo t = true

/-- The statuses are as they were, but for new change sets, which are drafts. -/
def DraftsAdded (db db' : Database) : Prop :=
  ∀ id, db'.statusOf id = db.statusOf id ∨ db.statusOf id = none ∧ db'.statusOf id = some .draft

namespace DraftsAdded

theorem of_changesets_eq {db db' : Database} (h : db'.changesets = db.changesets) :
    DraftsAdded db db' := by
  intro id
  unfold Database.statusOf
  rw [h]
  exact .inl rfl

theorem insertZone {db db' : Database} {row : Zone} (h : db.insertZone row = .ok db') :
    DraftsAdded db db' := by
  unfold Database.insertZone at h
  split at h
  · cases h
  · split at h
    · cases h
      exact of_changesets_eq rfl
    · cases h

theorem insertBinding {db db' : Database} {row : ProviderBinding}
    (h : db.insertBinding row = .ok db') : DraftsAdded db db' := by
  unfold Database.insertBinding at h
  split at h
  · cases h
  · split at h
    · cases h
      exact of_changesets_eq rfl
    · cases h

theorem insertRecord {db db' : Database} {row : DesiredRecord}
    (h : db.insertRecord row = .ok db') : DraftsAdded db db' := by
  unfold Database.insertRecord at h
  split at h
  · cases h
  split at h
  · cases h
  split at h
  · cases h
  split at h
  · cases h
  · cases h
    exact of_changesets_eq rfl

theorem upsertSyncState {db db' : Database} {row : SyncState}
    (h : db.upsertSyncState row = .ok db') : DraftsAdded db db' := by
  unfold Database.upsertSyncState at h
  split at h
  · cases h
    exact of_changesets_eq rfl
  · cases h

theorem insertChangeset {db db' : Database} {row : Changeset} (hdraft : row.status = .draft)
    (h : db.insertChangeset row = .ok db') : DraftsAdded db db' := by
  intro id
  obtain ⟨hinsert, -⟩ := Database.insertChangeset_ok h
  obtain ⟨hrows, hnone⟩ := Table.insert_eq_some hinsert
  have hfind : db'.changesets.find? id =
      (db.changesets.find? id).or (if row.id = id then some row else none) := by
    simp only [Table.find?, hrows, List.find?_append]
    congr 1
    by_cases hid : row.id = id <;> simp [hid]
  unfold Database.statusOf
  rw [hfind]
  by_cases hid : row.id = id
  · -- the id was free, so the row found under it is the new one
    subst hid
    rw [hnone]
    exact .inr ⟨rfl, by simp [hdraft]⟩
  · simp [hid]

end DraftsAdded

variable [SerdeJson]

/-- The items leave the change sets alone. -/
theorem changesets_insertItems {db db' : Database} {id : String}
    {items : List CreateChangesetItemRequest} (h : insertItems id db items = .ok db') :
    db'.changesets = db.changesets := by
  induction items generalizing db with
  | nil =>
    cases h
    rfl
  | cons item items ih =>
    obtain ⟨row, -, h⟩ := Except.bind_eq_ok.mp h
    obtain ⟨db₁, hinsert, h⟩ := Except.bind_eq_ok.mp h
    rw [ih h]
    exact (Database.insertChangesetItem_ok (Except.mapError_eq_ok.mp hinsert)).2.1

/-- A transaction of `create_changeset` adds a draft. -/
theorem DraftsAdded.insertWithItems {db db' : Database} {row : Changeset}
    {items : List CreateChangesetItemRequest} (hdraft : row.status = .draft)
    (h : DnsManager.insertWithItems db row items = .ok db') : DraftsAdded db db' := by
  obtain ⟨db₁, hinsert, hitems⟩ := Except.bind_eq_ok.mp h
  intro id
  have hadded := DraftsAdded.insertChangeset hdraft (Except.mapError_eq_ok.mp hinsert) id
  unfold Database.statusOf at *
  rwa [changesets_insertItems hitems]

/-- A command of another part leaves the statuses alone, and when it writes, it commits. -/
theorem draftsAdded_of_allowed (env : SystemEnv) (s : SystemState) {c : SystemCmd} {phase : Phase}
    (hallowed : systemLifecycle.allows phase c) (hother : ∀ c', c ≠ .apply c') :
    DraftsAdded s.db (handleSystem env c s).2.db ∧
      (s.world.commits < (handleSystem env c s).2.world.commits ∨
        (handleSystem env c s).2.world.commits = s.world.commits ∧
          (handleSystem env c s).2.db = s.db) := by
  have heffect := handleSystem_effect env c s
  cases hcommitted : c.committed (handleSystem env c s).1 with
  | false =>
    obtain ⟨hdb, hcommits⟩ := heffect.quiet hcommitted
    rw [hdb]
    exact ⟨.of_changesets_eq rfl, .inr ⟨hcommits, rfl⟩⟩
  | true =>
    obtain ⟨hwrote, hcommits⟩ := heffect.wrote hcommitted
    refine ⟨?_, .inl (by omega)⟩
    generalize (handleSystem env c s).2.db = db at hwrote
    cases hwrote with
    | updateStatus => exact absurd rfl (hother _)
    | txUpdate => exact absurd rfl (hother _)
    | syncState h => exact .upsertSyncState h
    | zone h => exact .insertZone h
    | record h => exact .insertRecord h
    | binding h => exact .insertBinding h
    | changeset h => exact .insertWithItems hallowed h

/-! ## The invariant -/

/-- The invariant of the life cycle, and that every change set a thread has claimed or queried is
    in the table. -/
structure SystemClaims (s : SystemState) (log : List SystemEvent) : Prop where
  claims : Claims s.world (changeLog log)
  known : ∀ id, (∃ i, phaseOf i (changeLog log) = .claimed id) ∨ Queried id (changeLog log) →
    s.db.statusOf id ≠ none

namespace SystemClaims

variable {env : SystemEnv} {s : SystemState} {log : List SystemEvent} {i : Nat} {c : SystemCmd}

omit [SerdeJson] in
/-- Commands of another part keep the invariant of the life cycle. -/
private theorem claims_transfer {w w' : World} {log : List CmdEvent} (h : Claims w log)
    (hadded : DraftsAdded w.db w'.db)
    (hcommits : w.commits < w'.commits ∨ w'.commits = w.commits ∧ w'.db = w.db)
    (hnew : ∀ id, w.db.statusOf id = none →
      (∀ i, phaseOf i log ≠ .claimed id) ∧ ¬ Queried id log) : Claims w' log where
  reading i id status snapshot hphase := by
    obtain ⟨hle, hstatus⟩ := h.reading i id status snapshot hphase
    rcases hcommits with hlt | ⟨heq, hdb⟩
    -- after a commit the snapshot is no longer the current one
    · exact ⟨by omega, fun hsnapshot => absurd hsnapshot (by omega)⟩
    · rw [heq, hdb]
      exact ⟨hle, hstatus⟩
  fresh id status hs hrank := by
    rcases hadded id with hsame | ⟨hnone, -⟩
    · exact h.fresh id status (hsame ▸ hs) hrank
    · exact hnew id hnone
  unique := h.unique
  unused := h.unused
  once := h.once

omit [SerdeJson] in
/-- A change set that is claimed or queried now was known before. -/
private theorem known_issued {env : Env} {w : World} {log : List CmdEvent}
    (hknown : ∀ id, (∃ i, phaseOf i log = .claimed id) ∨ Queried id log → w.db.statusOf id ≠ none)
    {i : Nat} {c : Cmd} (hc : (phaseOf i log).Allows c) (id : String)
    (hid : (∃ j, phaseOf j (log ++ [issued env w i c]) = .claimed id) ∨
      Queried id (log ++ [issued env w i c])) : w.db.statusOf id ≠ none := by
  rw [queried_concat] at hid
  rcases hid with ⟨j, hj⟩ | hqueried | hcmd
  · rw [phaseOf_concat] at hj
    split at hj
    · -- the thread has claimed the change set with this command, or had claimed it before
      rcases (phaseOf j log).next_cases c (handle env c w).1 with
        ⟨id', hclaim, hnext⟩ | ⟨id', s, n, -, hnext⟩ | ⟨id', -, hnext⟩ | ⟨-, hnext | hnext⟩
      · obtain rfl := Phase.claimed.inj (hnext.symm.trans hj)
        rw [(moved_of_claimOf hclaim).source]
        exact Option.some_ne_none _
      · exact nomatch hnext.symm.trans hj
      · exact nomatch hnext.symm.trans hj
      · exact nomatch hnext.symm.trans hj
      · exact hknown id (.inl ⟨j, hnext.symm.trans hj⟩)
    · exact hknown id (.inl ⟨j, hj⟩)
  · exact hknown id (.inr hqueried)
  · obtain rfl : c = .selectItems id := hcmd
    exact hknown id (.inl ⟨i, hc⟩)

variable (env) in
/-- The status of every change set after a command. -/
theorem statusStep (h : SystemClaims s log)
    (hc : systemLifecycle.allows (systemLifecycle.after i log) c) (id : String) :
    StatusStep (s.db.statusOf id) ((handleSystem env c s).2.db.statusOf id) := by
  by_cases hother : ∀ c', c ≠ .apply c'
  · rcases (draftsAdded_of_allowed env s hc hother).1 id with
      hsame | ⟨hnone, hdraft⟩
    · exact .inl hsame.symm
    · exact .inr (.inl ⟨hnone, hdraft⟩)
  · obtain ⟨c, rfl⟩ : ∃ c', c = .apply c' := by
      simpa using hother
    rw [systemLifecycle_after] at hc
    have hmoves : Quiet s.world (handle env.apply c s.world).2 ∨ ∃ id x y,
        Moved s.world (handle env.apply c s.world).2 id x y ∧ x.canTransitionTo y = true :=
      h.claims.moves hc
    rcases hmoves with hquiet | ⟨id', x, y, hmoved, hcan⟩
    · have hdb : (handleSystem env (.apply c) s).2.db = s.db := hquiet.db
      rw [hdb]
      exact .inl rfl
    · by_cases hid : id = id'
      · subst hid
        exact .inr (.inr ⟨x, y, hmoved.source, hmoved.target, hcan⟩)
      · exact .inl (hmoved.others id hid).symm

variable (env) in
/-- A change set that is there stays there. -/
theorem statusOf_ne_none (h : SystemClaims s log)
    (hc : systemLifecycle.allows (systemLifecycle.after i log) c) {id : String}
    (hid : s.db.statusOf id ≠ none) : (handleSystem env c s).2.db.statusOf id ≠ none := by
  rcases h.statusStep env hc id with hsame | ⟨hnone, -⟩ | ⟨x, y, -, hy, -⟩
  · rwa [← hsame]
  · exact absurd hnone hid
  · rw [hy]
    exact Option.some_ne_none _

/-- Every allowed command keeps the invariant. -/
theorem step (h : SystemClaims s log)
    (hc : systemLifecycle.allows (systemLifecycle.after i log) c) :
    SystemClaims (handleSystem env c s).2 (log ++ [⟨i, c, (handleSystem env c s).1⟩]) := by
  have hstays : ∀ id, s.db.statusOf id ≠ none →
      (handleSystem env c s).2.db.statusOf id ≠ none := fun _ => h.statusOf_ne_none env hc
  by_cases hother : ∀ c', c ≠ .apply c'
  · obtain ⟨hadded, hcommits⟩ := draftsAdded_of_allowed env s hc hother
    have hlog : changeLog (log ++ [⟨i, c, (handleSystem env c s).1⟩]) = changeLog log := by
      rw [changeLog_concat]
      cases c with
      | apply c => exact absurd rfl (hother c)
      | sync c => exact List.append_nil _
      | api c => exact List.append_nil _
    constructor
    · rw [hlog]
      refine claims_transfer h.claims hadded hcommits fun id hnone => ⟨fun i hphase => ?_, fun hq => ?_⟩
      · exact h.known id (.inl ⟨i, hphase⟩) hnone
      · exact h.known id (.inr hq) hnone
    · rw [hlog]
      exact fun id hid => hstays id (h.known id hid)
  · obtain ⟨c, rfl⟩ : ∃ c', c = .apply c' := by
      simpa using hother
    have hphase : (phaseOf i (changeLog log)).Allows c := by
      rw [systemLifecycle_after] at hc
      exact hc
    have hlog : changeLog (log ++ [⟨i, .apply c, (handleSystem env (.apply c) s).1⟩]) =
        changeLog log ++ [issued env.apply s.world i c] := changeLog_concat ..
    constructor
    · rw [hlog]
      exact h.claims.step hphase
    · rw [hlog]
      exact fun id hid => hstays id (known_issued h.known hphase id hid)

/-- The invariant holds before anything has happened. -/
theorem start (s : SystemState) : SystemClaims s [] where
  claims := .start s.world
  known := by
    rintro id (⟨i, h⟩ | ⟨e, he, -⟩)
    · exact nomatch h
    · exact nomatch he

end SystemClaims

/-! ## Runs of the process -/

section Runs

variable [CryptoLib] [Sha256] [UnicodeData] [Chrono]
variable (state : AppState) (requests : List Request) (runs : List WorkerRun) (env : SystemEnv)
  (s : SystemState) (schedule : List Nat)

theorem process_invariant :
    Pool.Invariant systemLifecycle SystemClaims (process state requests runs s) :=
  .start (.start s) (obeys_process state requests runs s)

/-- At every moment of a run the invariant holds. -/
theorem systemClaims_exec :
    SystemClaims ((process state requests runs s).exec (handleSystem env) schedule).state
      ((process state requests runs s).exec (handleSystem env) schedule).log :=
  (Pool.invariant_exec (fun _ _ _ _ h hc => h.step hc)
    (process_invariant state requests runs s) schedule).holds

/-- Over every run of the process, in whatever order the threads of the requests and of the
    worker are scheduled and whichever statements fail, the database only grows, the items of a
    change set are those it was created with, and its status is `draft` at first and then moves
    along the life cycle. -/
theorem process_history :
    ((process state requests runs s).history (handleSystem env) schedule).IsChain fun s t =>
      s.db.Keeps t.db ∧ ∀ id, StatusStep (s.db.statusOf id) (t.db.statusOf id) := by
  refine Pool.isChain_history (fun _ _ _ _ h hc => SystemClaims.step h hc)
    (fun s => ⟨.refl _, fun id => .inl rfl⟩) (fun s log i c h hc => ?_)
    (process_invariant state requests runs s) schedule
  exact ⟨(guarantee_keeps env).step c s, fun id => h.statusStep env hc id⟩

omit [CryptoLib] [Sha256] [UnicodeData] [Chrono] in
/-- The commands of the apply loop that a thread has issued. -/
theorem ownLog_changeLog (i : Nat) (log : List SystemEvent) :
    Pool.ownLog i (changeLog log) = applyPart (Pool.ownLog i log) := by
  refine Pool.ownLog_filterMap (fun e => ?_) i log
  obtain ⟨j, c, r⟩ := e
  cases c <;> rfl

/-- The run of the worker whose apply loop a thread is, for every thread of the process. -/
def applyRuns : List (Option WorkerRun) :=
  requests.map (fun _ => none) ++ runs.flatMap fun run => [some run, none, none]

/-- The calls of `apply_items` that the threads have come to by the end of a log. -/
def processCalls (log : List CmdEvent) (i : Nat) : List ApplyCall :=
  match (applyRuns requests runs)[i]? with
  | some (some run) =>
    run.worker.applyCalls (run.worker.runApplyLoopCalls run.applyTicks) (Pool.ownLog i log)
  | _ => []

/-- The thread is the apply loop of the run, or else it writes to no provider. -/
def PlaysRole (t : Prog.Thread SystemCmd SystemCmd.Reply) : Option WorkerRun → Prop
  | some run => t = ((run.worker.runApplyLoop run.applyTicks).embed applyCommands).detach
  | none => Only (fun c => ∀ c', c = .apply c' → c'.isProviderWrite = false) t

omit [UnicodeData] [Chrono] in
private theorem playsRole_serve (request : Request) : PlaysRole (serve state request) none := by
  refine (only_serve state request).mono fun c hc c' happly => ?_
  subst happly
  -- a command of a request that calls a provider is none it may issue
  refine Bool.eq_false_iff.mpr fun hwrite => ?_
  exact Request.not_makes_call (c := .apply c') hwrite hc

omit [Sha256] [UnicodeData] [Chrono] in
private theorem playsRole_sync (p : SyncM Unit) :
    PlaysRole (p.embed syncCommands).detach none :=
  Only.detach (Only.embed (fun _ _ _ h => (nomatch h)) (Only.all p))

/-- What each thread of the process is. -/
private theorem playsRole_process :
    List.Forall₂ PlaysRole (process state requests runs s).threads (applyRuns requests runs) := by
  refine List.rel_append ?_ ?_
  · rw [List.forall₂_map_left_iff, List.forall₂_map_right_iff, List.forall₂_same]
    exact fun request _ => playsRole_serve state request
  · induction runs with
    | nil => exact .nil
    | cons run runs ih =>
      rw [List.flatMap_cons, List.flatMap_cons]
      have hthreads : List.Forall₂ PlaysRole run.threads [some run, none, none] :=
        .cons (.refl _) (.cons (playsRole_sync _) (.cons (playsRole_sync _) .nil))
      exact List.rel_append hthreads ih

/-- A thread of the process has its role. -/
private theorem role_of_thread {i : Nat} {t : Prog.Thread SystemCmd SystemCmd.Reply}
    (ht : (process state requests runs s).threads[i]? = some t) :
    ∃ role, (applyRuns requests runs)[i]? = some role ∧ PlaysRole t role := by
  obtain ⟨hlength, hroles⟩ := List.forall₂_iff_get.mp (playsRole_process state requests runs s)
  obtain ⟨hi, rfl⟩ := List.getElem?_eq_some_iff.mp ht
  exact ⟨_, List.getElem?_eq_getElem (hlength ▸ hi), hroles i hi (hlength ▸ hi)⟩

/-- In every run of the process the calls are paid for. -/
private theorem callsPaid_process :
    CallsPaid (processCalls requests runs)
      (changeLog ((process state requests runs s).exec (handleSystem env) schedule).log) where
  paid id i := by
    unfold processCalls
    split
    · exact (calling_runApplyLoopCalls _ _).countP_le id _
    · exact Nat.zero_le _
  grow pre post i hlog := by
    unfold processCalls
    split
    · rw [hlog, Pool.ownLog_append]
      exact applyCalls_prefix ..
    · exact List.nil_prefix
  writes pre e post hlog hwrite := by
    have hmem : e ∈ changeLog
        ((process state requests runs s).exec (handleSystem env) schedule).log := by
      rw [hlog]
      exact List.mem_append_right pre List.mem_cons_self
    obtain ⟨⟨i, c, r⟩, hx, hevent⟩ := List.mem_filterMap.mp hmem
    obtain ⟨c, rfl⟩ : ∃ c', c = .apply c' := by
      cases c with
      | apply c => exact ⟨c, rfl⟩
      | _ => cases hevent
    cases hevent
    obtain ⟨t, t', ht, hpath⟩ := Pool.path_of_mem_log rfl hx
    obtain ⟨role, hrole, hplays⟩ := role_of_thread state requests runs s ht
    cases role with
    | none =>
      -- a thread that is no apply loop writes to no provider
      have hquiet := Only.path hplays hpath ⟨.apply c, r⟩ (Pool.mem_ownLog.mpr ⟨_, hx, rfl, rfl⟩) c rfl
      rw [hwrite] at hquiet
      cases hquiet
    | some run =>
      cases hplays
      obtain ⟨p, hp⟩ := hpath.of_detach
      have hloop : ∃ q, Prog.Path (run.worker.runApplyLoop run.applyTicks)
          (applyPart (Pool.ownLog i
            ((process state requests runs s).exec (handleSystem env) schedule).log)) q :=
        hp.of_embed fun _ _ => rfl
      obtain ⟨q, hq⟩ := hloop
      have hown : Pool.ownLog i (pre ++ (⟨i, c, r⟩ : CmdEvent) :: post) =
          Pool.ownLog i pre ++ ⟨c, r⟩ :: Pool.ownLog i post :=
        Pool.ownLog_split pre post ⟨i, c, r⟩
      rw [← ownLog_changeLog, hlog, hown, ← inline_runApplyLoopCalls] at hq
      unfold processCalls
      simp only [hrole]
      exact (calling_runApplyLoopCalls run.worker run.applyTicks).ne_nil hq hwrite

/-- Over every run of the process `apply_items` is called at most once for every change set, by one
    run of the worker, and no other thread writes to providers for it. -/
theorem process_appliedOnce :
    AppliedOnce (processCalls requests runs) (changeLog
      ((process state requests runs s).exec (handleSystem env) schedule).log) :=
  (systemClaims_exec state requests runs env s schedule).claims.appliedOnce
    (callsPaid_process state requests runs env s schedule)

end Runs

end DnsManager
