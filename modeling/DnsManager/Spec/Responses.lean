import DnsManager.Spec.RequestWrites

/-!
# What a response rests on

A handler answers with what the database has told it, and reports a row as created only after it
has inserted it. `Answers` relates a response to the statements before it; the thread of every
request keeps to it and answers once.

## Key results
- `serves_handler`: what the outcome of a handler rests on.
- `obeys_process_answers`: every response of the process rests on the statements of its thread.
-/

namespace DnsManager

open Prog (Obeys Only)

section

variable [SerdeJson]

/-- The statements of a thread with their replies. -/
abbrev SystemLog := List (Sigma SystemCmd.Reply)

/-- No statement has written. -/
def Untouched (log : SystemLog) : Prop := ∀ e ∈ log, e.1.committed e.2 = false

/-- A change set was read, and then its items. -/
def ShownChangeset (log : SystemLog) (id : String) (view : ChangesetView) : Prop :=
  ∃ pre post rows, log = pre ++ ⟨.apply (.selectChangeset id), .ok (some view.row)⟩ :: post ∧
    ⟨.apply (.selectItemsByRecord id), .ok rows⟩ ∈ post ∧ rows.mapM itemView = .ok view.items

/-- What a response rests on. -/
inductive Answers (log : SystemLog) : Response → Prop where
  | error {e : ApiError} (h : e.intoResponse.status.isClientError = true → Untouched log) :
      Answers log e.intoResponse
  | health (h : Untouched log) : Answers log ⟨.ok, .health "ok"⟩
  | unimplemented (h : Untouched log) : Answers log ⟨.notImplemented, .empty⟩
  | zones {rows : List Zone} (hread : ⟨.api .selectZones, .ok rows⟩ ∈ log) :
      Answers log ⟨.ok, .zones rows⟩
  | zone {row row' : Zone} (hwrite : ⟨.api (.insertZone row), .ok ()⟩ ∈ log)
      (hread : ⟨.api (.selectZone row.id), .ok (some row')⟩ ∈ log) :
      Answers log ⟨.created, .zone row'⟩
  | records {zoneId : String} {rows : List DesiredRecord} {views : List RecordView}
      (hread : ⟨.api (.selectRecords zoneId), .ok rows⟩ ∈ log)
      (hviews : rows.mapM intoRecord = .ok views) : Answers log ⟨.ok, .records views⟩
  | record (row : DesiredRecord) {row' : DesiredRecord} {view : RecordView}
      (hwrite : ⟨.api (.insertRecord row), .ok ()⟩ ∈ log)
      (hread : ⟨.api (.selectRecord row.id), .ok (some row')⟩ ∈ log)
      (hview : intoRecord row' = .ok view) : Answers log ⟨.created, .record view⟩
  | binding (row : ProviderBinding) {view : ProviderBindingView}
      (hwrite : ⟨.api (.insertBinding row), .ok ()⟩ ∈ log)
      (hread : ⟨.api (.selectBinding row.id), .ok (some view)⟩ ∈ log) :
      Answers log ⟨.created, .binding view⟩
  | syncStates {bindingId : String} {rows : List SyncState}
      (hread : ⟨.api (.selectSyncStates bindingId), .ok rows⟩ ∈ log) :
      Answers log ⟨.ok, .syncStates rows⟩
  | changesetCreated {row : Changeset} {items : List CreateChangesetItemRequest}
      {view : ChangesetView} (hwrite : ⟨.api (.txCreateChangeset row items), .ok ()⟩ ∈ log)
      (hread : ShownChangeset log row.id view) : Answers log ⟨.created, .changeset view⟩
  | changeset {id : String} {view : ChangesetView} (hread : ShownChangeset log id view) :
      Answers log ⟨.ok, .changeset view⟩

/-- A response rests on the statements before it, and nothing comes after it. -/
structure AnswersAllow (log : SystemLog) (c : SystemCmd) : Prop where
  answers : ∀ response, c = .api (.respond response) → Answers log response
  unanswered : ∀ e ∈ log, e.1.isResponse = false

/-! ## Parts of handlers -/

/-- The log has gone on with statements that only read. -/
structure ReadOn (log log' : SystemLog) : Prop where
  extends_ : log <+: log'
  reads : ∀ e ∈ log', e ∈ log ∨ e.1.isWrite = false

namespace ReadOn

theorem refl (log : SystemLog) : ReadOn log log := ⟨List.prefix_rfl, fun _ he => .inl he⟩

theorem concat {log log' : SystemLog} (h : ReadOn log log') {c : SystemCmd}
    (hc : c.isWrite = false) (r : c.Reply) : ReadOn log (log' ++ [⟨c, r⟩]) := by
  refine ⟨h.extends_.trans (List.prefix_append _ _), fun e he => ?_⟩
  rcases List.mem_append.mp he with he | he
  · exact h.reads e he
  · rw [List.mem_singleton.mp he]
    exact .inr hc

theorem untouched {log log' : SystemLog} (h : ReadOn log log') (hlog : Untouched log) :
    Untouched log' := fun e he =>
  (h.reads e he).elim (hlog e) fun hread => committed_of_isWrite hread e.2

end ReadOn

theorem untouched_nil : Untouched [] := List.forall_mem_nil _

omit [SerdeJson] in
private theorem internalServerError_isClientError :
    StatusCode.internalServerError.isClientError = false := by decide

/-- An internal error may come after a write. -/
theorem Answers.internal {log : SystemLog} (msg : String) :
    Answers log (ApiError.internal msg).intoResponse := by
  refine .error fun h => ?_
  have hstatus : (ApiError.internal msg).intoResponse.status = .internalServerError := rfl
  rw [hstatus, internalServerError_isClientError] at h
  cases h

/-- An error of a handler that has not written. -/
theorem Answers.of_untouched {log : SystemLog} (h : Untouched log) (e : ApiError) :
    Answers log e.intoResponse := .error fun _ => h

/-- A client error is answered before anything is written. -/
theorem Answers.untouched {log : SystemLog} {response : Response} (h : Answers log response)
    (herror : response.status.isClientError = true) : Untouched log := by
  have hok : StatusCode.ok.isClientError = false := by decide
  have hcreated : StatusCode.created.isClientError = false := by decide
  cases h with
  | error h => exact h herror
  | health h => exact h
  | unimplemented h => exact h
  | zone | record | binding | changesetCreated =>
    exact absurd (hcreated.symm.trans herror) Bool.false_ne_true
  | zones | records | syncStates | changeset =>
    exact absurd (hok.symm.trans herror) Bool.false_ne_true

/-- A zone is reported as created after it was inserted and read back. -/
theorem Answers.created_zone {log : SystemLog} {z : Zone}
    (h : Answers log ⟨.created, .zone z⟩) :
    ∃ row : Zone, ⟨.api (.insertZone row), .ok ()⟩ ∈ log ∧
      ⟨.api (.selectZone row.id), .ok (some z)⟩ ∈ log := by
  generalize hresponse : (⟨.created, .zone z⟩ : Response) = response at h
  cases h with
  | @error e => cases e <;> cases hresponse
  | @zone row row' hwrite hread =>
    cases hresponse
    exact ⟨row, hwrite, hread⟩
  | _ => cases hresponse

/-- A record is reported as created after it was inserted and read back. -/
theorem Answers.created_record {log : SystemLog} {v : RecordView}
    (h : Answers log ⟨.created, .record v⟩) :
    ∃ row row' : DesiredRecord, ⟨.api (.insertRecord row), .ok ()⟩ ∈ log ∧
      ⟨.api (.selectRecord row.id), .ok (some row')⟩ ∈ log ∧ intoRecord row' = .ok v := by
  generalize hresponse : (⟨.created, .record v⟩ : Response) = response at h
  cases h with
  | @error e => cases e <;> cases hresponse
  | @record row row' view hwrite hread hview =>
    cases hresponse
    exact ⟨row, row', hwrite, hread, hview⟩
  | _ => cases hresponse

/-- A list of zones is what was read. -/
theorem Answers.listed_zones {log : SystemLog} {zones : List Zone}
    (h : Answers log ⟨.ok, .zones zones⟩) : ⟨.api .selectZones, .ok zones⟩ ∈ log := by
  generalize hresponse : (⟨.ok, .zones zones⟩ : Response) = response at h
  cases h with
  | @error e => cases e <;> cases hresponse
  | zones hread =>
    cases hresponse
    exact hread
  | _ => cases hresponse

/-- A list of records is what was read. -/
theorem Answers.listed_records {log : SystemLog} {views : List RecordView}
    (h : Answers log ⟨.ok, .records views⟩) :
    ∃ zoneId rows, ⟨.api (.selectRecords zoneId), .ok rows⟩ ∈ log ∧
      rows.mapM intoRecord = .ok views := by
  generalize hresponse : (⟨.ok, .records views⟩ : Response) = response at h
  cases h with
  | @error e => cases e <;> cases hresponse
  | @records zoneId rows views hread hviews =>
    cases hresponse
    exact ⟨zoneId, rows, hread, hviews⟩
  | _ => cases hresponse

/-- What a handler answers rests on its statements; it makes `response` of its value. -/
structure Serves {α : Type} (p : HandlerM α) (response : α → Response) : Prop where
  obeys : Obeys (Prog.recording SystemCmd.Reply) p [] fun x log =>
    Answers log (intoResponse (x.map response))

/-- The existence check reads. -/
theorem obeys_requireZone (log : SystemLog) (zoneId : String) :
    Obeys (Prog.recording SystemCmd.Reply) (Handler.requireZone zoneId) log
      fun _ log' => ReadOn log log' := by
  have hread := fun r => (ReadOn.refl log).concat (c := .api (.countZones zoneId)) rfl r
  refine Obeys.perform_bind trivial fun r => ?_
  refine Obeys.liftExcept_bind (fun zoneCount _ => ?_) fun _ _ => hread r
  split
  · exact hread r
  · exact hread r

omit [SerdeJson] in
/-- The error of a query is internal. -/
private theorem internal_of_dbResult {α : Type} {x : Except DbError α} {e : ApiError}
    (h : dbResult x = .error e) : ∃ msg, e = .internal msg := by
  obtain ⟨msg, -, rfl⟩ := Except.mapError_eq_error h
  exact ⟨msg, rfl⟩

/-- An item that cannot be shown is an internal error. -/
private theorem internal_of_mapM {rows : List ChangesetItem} {e : ApiError}
    (h : rows.mapM itemView = .error e) : ∃ msg, e = .internal msg := by
  have hparse : ∀ {column : String} {value : Option String},
      parseValue column value = .error e → ∃ msg, e = .internal msg := by
    intro column value h
    cases value with
    | none => cases h
    | some text =>
      obtain ⟨msg, -, rfl⟩ := Except.mapError_eq_error h
      exact ⟨_, rfl⟩
  obtain ⟨row, -, hrow⟩ := Except.mapM_eq_error_mem h
  rcases Except.bind_eq_error hrow with hbefore | ⟨before, -, hrow⟩
  · exact hparse hbefore
  · rcases Except.bind_eq_error hrow with hafter | ⟨after, -, hrow⟩
    · exact hparse hafter
    · cases hrow

/-- The change set is read with its items; an error is internal. -/
theorem obeys_fetchChangeset (log : SystemLog) (id : String) :
    Obeys (Prog.recording SystemCmd.Reply) ((fetchChangeset id).embed applyCommands) log
      fun x log' => ReadOn log log' ∧ match x with
        | .ok view => ∀ v, view = some v → ShownChangeset log' id v
        | .error e => ∃ msg, e = .internal msg := by
  unfold fetchChangeset
  rw [Prog.embed_bind]
  refine Obeys.perform_bind trivial fun r => ?_
  have h₁ := (ReadOn.refl log).concat (c := .apply (.selectChangeset id)) rfl r
  rw [Prog.embed_bind, Prog.embed_liftExcept]
  refine Obeys.liftExcept_bind (fun row hrow => ?_) fun e he => ⟨h₁, internal_of_dbResult he⟩
  obtain rfl := Except.mapError_eq_ok.mp hrow
  cases row with
  | none => exact ⟨h₁, nofun⟩
  | some row =>
    dsimp only
    rw [Prog.embed_bind]
    refine Obeys.perform_bind trivial fun r => ?_
    have h₂ := h₁.concat (c := .apply (.selectItemsByRecord id)) rfl r
    rw [Prog.embed_bind, Prog.embed_liftExcept]
    refine Obeys.liftExcept_bind (fun rows hrows => ?_) fun e he => ⟨h₂, internal_of_dbResult he⟩
    obtain rfl := Except.mapError_eq_ok.mp hrows
    rw [Prog.embed_bind, Prog.embed_liftExcept]
    refine Obeys.liftExcept_bind (fun items hitems => ?_) fun e he => ⟨h₂, ?_⟩
    · refine ⟨h₂, fun v hv => ?_⟩
      cases hv
      exact ⟨log, _, rows, List.append_assoc .., List.mem_cons_self, hitems⟩
    · exact internal_of_mapM he

/-! ## Handlers -/

/-- A handler that only reads before it fails or answers. -/
private theorem Serves.respond {α : Type} {status : StatusCode} {body : α → ResponseBody}
    {p : HandlerM α} (hp : Serves p fun a => ⟨status, body a⟩) :
    Serves (respondWith status body p) id := by
  refine ⟨Obeys.bind (hp.obeys.mono fun x log hx => ?_)⟩
  cases x with
  | ok a => exact hx
  | error e => exact hx

theorem serves_listZones : Serves Handler.listZones fun zones => ⟨.ok, .zones zones⟩ := by
  refine ⟨Obeys.perform_bind trivial fun r => Obeys.liftExcept ?_⟩
  cases r with
  | ok rows => exact .zones List.mem_cons_self
  | error e => exact .internal e

theorem serves_listRecords (zoneId : String) :
    Serves (Handler.listRecords zoneId) fun records => ⟨.ok, .records records⟩ := by
  refine ⟨Obeys.bind ((obeys_requireZone [] zoneId).mono fun x log hread => ?_)⟩
  cases x with
  | error e => exact .of_untouched (hread.untouched untouched_nil) e
  | ok _ =>
    refine Obeys.perform_bind trivial fun r => ?_
    refine Obeys.liftExcept_bind (fun rows hrows => ?_) fun e he => ?_
    · obtain rfl := Except.mapError_eq_ok.mp hrows
      have hread' := hread.concat (c := .api (.selectRecords zoneId)) rfl (.ok rows)
      refine Obeys.liftExcept ?_
      cases hviews : rows.mapM intoRecord with
      | ok views => exact .records (List.mem_append_right _ List.mem_cons_self) hviews
      | error e => exact .of_untouched (hread'.untouched untouched_nil) e
    · have hread' := hread.concat (c := .api (.selectRecords zoneId)) rfl r
      exact .of_untouched (hread'.untouched untouched_nil) e

theorem serves_getSyncState (providerId : String) :
    Serves (Handler.getSyncState providerId) fun states => ⟨.ok, .syncStates states⟩ := by
  refine ⟨Obeys.perform_bind trivial fun r => ?_⟩
  have hread := (ReadOn.refl []).concat (c := .api (.countBindings providerId)) rfl r
  refine Obeys.liftExcept_bind (fun bindingCount _ => ?_) fun e _ =>
    .of_untouched (hread.untouched untouched_nil) e
  split
  · exact .of_untouched (hread.untouched untouched_nil) .notFound
  · refine Obeys.perform_bind trivial fun r' => Obeys.liftExcept ?_
    cases r' with
    | ok rows => exact .syncStates (List.mem_append_right _ List.mem_cons_self)
    | error e => exact .internal e

omit [SerdeJson] in
/-- An `INSERT` that has not failed has inserted. -/
private theorem reply_of_conflictErr {r : Except StatementError Unit} {u : Unit}
    (h : conflictErr r = .ok u) : r = .ok () := by
  unfold conflictErr at h
  split at h
  · rfl
  · cases h
  · cases h

/-- The log of an `INSERT` that has failed. -/
private theorem untouched_of_failed {log : SystemLog} (h : Untouched log) {c : SystemCmd}
    {r : c.Reply} (hr : c.committed r = false) : Untouched (log ++ [⟨c, r⟩]) := by
  intro e he
  rcases List.mem_append.mp he with he | he
  · exact h e he
  · rw [List.mem_singleton.mp he]
    exact hr

omit [SerdeJson] in
/-- The outcome of `fetch_one`: the row that was found, or an internal error. -/
private theorem fetchOne_cases {α : Type} (r : Except DbError (Option α)) :
    (∃ a, r = .ok (some a) ∧ fetchOne r = .ok a) ∨ ∃ msg, fetchOne r = .error (.internal msg) := by
  cases r with
  | error e => exact .inr ⟨_, rfl⟩
  | ok row =>
    cases row with
    | none => exact .inr ⟨_, rfl⟩
    | some a => exact .inl ⟨a, rfl, rfl⟩

theorem serves_createZone (draws : Draws) (body : CreateZoneRequest) :
    Serves (Handler.createZone draws body) fun zone => ⟨.created, .zone zone⟩ := by
  refine ⟨Obeys.liftExcept_bind (fun _ _ => ?_) fun e _ => .of_untouched untouched_nil e⟩
  refine Obeys.perform_bind trivial fun r => ?_
  refine Obeys.liftExcept_bind (fun _ hr => ?_) fun e he => ?_
  · obtain rfl := reply_of_conflictErr hr
    refine Obeys.perform_bind trivial fun r' => Obeys.liftExcept ?_
    rcases fetchOne_cases r' with ⟨zone, rfl, hfetch⟩ | ⟨msg, hfetch⟩
    · rw [hfetch]
      exact .zone List.mem_cons_self (List.mem_cons_of_mem _ List.mem_cons_self)
    · rw [hfetch]
      exact .internal msg
  · refine .of_untouched (untouched_of_failed untouched_nil ?_) e
    cases r with
    | ok u => cases he
    | error e => rfl

/-- A row that cannot be shown is an internal error. -/
private theorem internal_of_intoRecord {row : DesiredRecord} {e : ApiError}
    (h : intoRecord row = .error e) : ∃ msg, e = .internal msg := by
  rcases Except.bind_eq_error h with hvalues | ⟨values, -, h⟩
  · obtain ⟨msg, -, rfl⟩ := Except.mapError_eq_error hvalues
    exact ⟨_, rfl⟩
  · cases h

theorem serves_createRecord [Sha256] (draws : Draws) (zoneId : String) (body : CreateRecordRequest) :
    Serves (Handler.createRecord draws zoneId body) fun record => ⟨.created, .record record⟩ := by
  refine ⟨Obeys.liftExcept_bind (fun _ _ => ?_) fun e _ => .of_untouched untouched_nil e⟩
  refine Obeys.bind ((obeys_requireZone [] zoneId).mono fun x log hread => ?_)
  have huntouched := hread.untouched untouched_nil
  cases x with
  | error e => exact .of_untouched huntouched e
  | ok _ =>
    refine Obeys.liftExcept_bind (fun row hrow => ?_) fun e _ => .of_untouched huntouched e
    have hid : row.id = draws.id := by
      obtain ⟨json, -, hrow⟩ := Except.bind_eq_ok.mp hrow
      cases hrow
      rfl
    refine Obeys.perform_bind trivial fun r => ?_
    refine Obeys.liftExcept_bind (fun _ hr => ?_) fun e he => ?_
    · obtain rfl := reply_of_conflictErr hr
      refine Obeys.perform_bind trivial fun r' => ?_
      rcases fetchOne_cases r' with ⟨row', rfl, hfetch⟩ | ⟨msg, hfetch⟩
      · rw [hfetch]
        refine Obeys.liftExcept_bind (fun row'' hrow'' => ?_) nofun
        cases hrow''
        refine Obeys.liftExcept ?_
        cases hview : intoRecord row' with
        | ok view =>
          refine .record row (List.mem_append_left _ (List.mem_append_right _
            List.mem_cons_self)) ?_ hview
          rw [hid]
          exact List.mem_append_right _ List.mem_cons_self
        | error e =>
          obtain ⟨msg, rfl⟩ := internal_of_intoRecord hview
          exact .internal msg
      · rw [hfetch]
        exact Obeys.liftExcept_bind nofun fun e he => by
          cases he
          exact .internal msg
    · refine .of_untouched (untouched_of_failed huntouched ?_) e
      cases r with
      | ok u => cases he
      | error e => rfl

theorem serves_createProvider [CryptoLib] (state : AppState) (draws : ProviderDraws)
    (body : CreateProviderRequest) :
    Serves (Handler.createProvider state draws body) fun view => ⟨.created, .binding view⟩ := by
  refine ⟨Obeys.liftExcept_bind (fun _ _ => ?_) fun e _ => .of_untouched untouched_nil e⟩
  refine Obeys.bind ((obeys_requireZone [] body.zoneId).mono fun x log hread => ?_)
  have huntouched := hread.untouched untouched_nil
  cases x with
  | error e => exact .of_untouched huntouched e
  | ok _ =>
    refine Obeys.liftExcept_bind (fun row hrow => ?_) fun e _ => .of_untouched huntouched e
    have hid : row.id = draws.id := by
      obtain ⟨bytes, -, hrow⟩ := Except.bind_eq_ok.mp hrow
      obtain ⟨encrypted, -, hrow⟩ := Except.bind_eq_ok.mp hrow
      cases hrow
      rfl
    refine Obeys.perform_bind trivial fun r => ?_
    refine Obeys.liftExcept_bind (fun _ hr => ?_) fun e he => ?_
    · obtain rfl := Except.mapError_eq_ok.mp hr
      refine Obeys.perform_bind trivial fun r' => Obeys.liftExcept ?_
      rcases fetchOne_cases r' with ⟨view, rfl, hfetch⟩ | ⟨msg, hfetch⟩
      · rw [hfetch]
        refine .binding row (List.mem_append_left _ (List.mem_append_right _
          List.mem_cons_self)) ?_
        rw [hid]
        exact List.mem_append_right _ List.mem_cons_self
      · rw [hfetch]
        exact .internal msg
    · refine .of_untouched (untouched_of_failed huntouched ?_) e
      obtain ⟨e', rfl, -⟩ := Except.mapError_eq_error he
      rfl

theorem serves_createChangeset (draws : Draws) (body : CreateChangesetRequest) :
    Serves (Handler.createChangeset draws body) fun view => ⟨.created, .changeset view⟩ := by
  refine ⟨Obeys.liftExcept_bind (fun _ _ => ?_) fun e _ => .of_untouched untouched_nil e⟩
  refine Obeys.perform_bind trivial fun r => ?_
  refine Obeys.liftExcept_bind (fun _ hr => ?_) fun e he => ?_
  · refine Obeys.bind (Obeys.mono (obeys_fetchChangeset _ draws.id) ?_)
    rintro x log ⟨hread, hx⟩
    cases x with
    | error e =>
      obtain ⟨msg, rfl⟩ := hx
      exact .internal msg
    | ok view =>
      cases view with
      | none => exact .internal "changeset disappeared after insert"
      | some view =>
        have hwrite := hread.extends_.subset (List.mem_append_right [] List.mem_cons_self)
        rw [hr] at hwrite
        exact .changesetCreated hwrite (hx view rfl)
  · refine .of_untouched (untouched_of_failed untouched_nil ?_) e
    rw [he]
    rfl

theorem serves_getChangeset (changesetId : String) :
    Serves (Handler.getChangeset changesetId) fun view => ⟨.ok, .changeset view⟩ := by
  refine ⟨Obeys.bind (Obeys.mono (obeys_fetchChangeset [] changesetId) ?_)⟩
  rintro x log ⟨hread, hx⟩
  have huntouched := hread.untouched untouched_nil
  cases x with
  | error e => exact .of_untouched huntouched e
  | ok view =>
    cases view with
    | none => exact .of_untouched huntouched .notFound
    | some view => exact .changeset (hx view rfl)

theorem serves_validateChangeset (changesetId : String) :
    Serves (Handler.validateChangeset changesetId) fun view => ⟨.ok, .changeset view⟩ := by
  refine ⟨?_⟩
  unfold Handler.validateChangeset DnsManager.validateChangeset
  dsimp only
  rw [Prog.embed_bind]
  refine Obeys.perform_bind trivial fun r => ?_
  have hread := (ReadOn.refl []).concat (c := .apply (.txSelect changesetId)) rfl r
  have huntouched := hread.untouched untouched_nil
  rw [Prog.embed_bind, Prog.embed_liftExcept]
  refine Obeys.liftExcept_bind (fun read _ => ?_) fun e _ => .of_untouched huntouched e
  obtain ⟨row, snapshot⟩ := read
  cases row with
  | none => exact .of_untouched huntouched .notFound
  | some row =>
    simp only [ChangeSetStatus.fromDb_toDb]
    split
    · exact .of_untouched huntouched (.badRequest _)
    · rw [Prog.embed_bind]
      refine Obeys.perform_bind trivial fun r' => ?_
      rw [Prog.embed_bind, Prog.embed_liftExcept]
      refine Obeys.liftExcept_bind (fun _ _ => ?_) fun e he => ?_
      · rw [Prog.embed_bind]
        refine Obeys.bind (Obeys.mono (obeys_fetchChangeset _ changesetId) ?_)
        rintro x log ⟨-, hx⟩
        cases x with
        | error e =>
          obtain ⟨msg, rfl⟩ := hx
          exact .internal msg
        | ok view =>
          cases view with
          | none => exact .internal "changeset disappeared after update"
          | some view => exact .changeset (hx view rfl)
      · obtain ⟨msg, rfl⟩ := internal_of_dbResult he
        exact .internal msg

section Process

variable [CryptoLib] [Sha256]

/-- What every handler answers rests on its statements. -/
theorem serves_handler (state : AppState) (request : Request) :
    Serves (request.handler state) id := by
  cases request with
  | getHealth => exact ⟨.health untouched_nil⟩
  | listZones => exact serves_listZones.respond
  | createZone draws body => exact (serves_createZone draws body).respond
  | listRecords zoneId => exact (serves_listRecords zoneId).respond
  | createRecord draws zoneId body => exact (serves_createRecord draws zoneId body).respond
  | createProvider draws body => exact (serves_createProvider state draws body).respond
  | getSyncState providerId => exact (serves_getSyncState providerId).respond
  | createChangeset draws body => exact (serves_createChangeset draws body).respond
  | getChangeset changesetId => exact (serves_getChangeset changesetId).respond
  | validateChangeset changesetId => exact (serves_validateChangeset changesetId).respond
  | unimplemented handler => exact ⟨.unimplemented untouched_nil⟩

/-- The thread of a request answers once, with what rests on its statements. -/
theorem obeys_serve_answers (state : AppState) (request : Request) :
    Obeys (Prog.recorder AnswersAllow) (serve state request) [] fun _ _ => True := by
  have hhandler : Obeys (Prog.recorder AnswersAllow) (request.handler state) []
      fun x (log : SystemLog) => Answers log (intoResponse x) ∧
        ∀ e ∈ log, e.1.isResponse = false := by
    have honly : Only (fun c => c.isResponse = false) (request.handler state) :=
      (only_handler state request).only.mono fun _ hc => hc.response
    have hallowed : ∀ (log : SystemLog) (c : SystemCmd),
        True ∧ c.isResponse = false ∧ (∀ e ∈ log, e.1.isResponse = false) → AnswersAllow log c := by
      rintro log c ⟨-, hc, hlog⟩
      refine ⟨?_, hlog⟩
      rintro response rfl
      cases hc
    refine (((serves_handler state request).obeys.both
      (honly.recorded (List.forall_mem_nil _))).weaken hallowed).mono fun x log hx => ⟨?_, hx.2⟩
    cases x <;> exact hx.1
  refine Obeys.bind (Obeys.attempt (hhandler.mono fun x log hx => ?_))
  refine Obeys.perform_bind ⟨?_, hx.2⟩ fun _ => trivial
  rintro response ⟨⟩
  exact hx.1

end Process

section Runs

variable [CryptoLib] [Sha256] [UnicodeData] [Chrono]

omit [Sha256] in
/-- The worker answers nobody. -/
theorem only_workerRun_response (run : WorkerRun) :
    ∀ t ∈ run.threads, Only (fun c => c.isResponse = false) t := by
  intro t ht
  simp only [WorkerRun.threads, List.mem_cons, List.not_mem_nil, or_false] at ht
  rcases ht with rfl | rfl | rfl
  · exact (Only.embed (fun _ _ => rfl) (Only.all _)).detach
  · exact (Only.embed (fun _ _ => rfl) (Only.all _)).detach
  · exact (Only.embed (fun _ _ => rfl) (Only.all _)).detach

/-- Every response of the process rests on the statements of its thread, and is its only one. -/
theorem obeys_process_answers (state : AppState) (requests : List Request)
    (runs : List WorkerRun) (s : SystemState) :
    ∀ t ∈ (process state requests runs s).threads,
      Obeys (Prog.recorder AnswersAllow) t [] fun _ _ => True := by
  intro t ht
  rcases List.mem_append.mp ht with ht | ht
  · obtain ⟨request, -, rfl⟩ := List.mem_map.mp ht
    exact obeys_serve_answers state request
  · obtain ⟨run, -, ht⟩ := List.mem_flatMap.mp ht
    refine ((only_workerRun_response run t ht).recorded (List.forall_mem_nil _)).allowing
      fun log c hc => ⟨?_, hc.2⟩
    rintro response rfl
    cases hc.1

end Runs

end

end DnsManager
