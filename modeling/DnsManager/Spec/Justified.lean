import DnsManager.Spec.Custody
import DnsManager.Spec.ItemEffect

/-!
# Every write to a provider is justified

Whatever requests and workers run beside each other, and whenever they fail or crash: at the
moment of every call that writes to a provider, the database holds the item it is made for. The
item is one of a change set that is being applied or rolled back by the thread that makes the
call, and that was validated; the binding is an active one of the item's zone, the written value
is that of the item or of its inverse, and the credentials are the binding's own.

## Key results
- `process_calls_justified`: every call of a run is justified by the database it meets.
-/

namespace DnsManager

open Prog (Pool)

section

variable [SerdeJson]

/-- What a provider call gives which key of which binding, and with which credentials. -/
def SystemCmd.providerCall : SystemCmd →
    Option (ProviderBinding × Credentials × RecordKey × Option ProviderRecord)
  | .apply (.upsertRecord b creds record) => some (b, creds, record.key, some record)
  | .apply (.deleteRecord b creds key) => some (b, creds, key, none)
  | _ => none

theorem callsProvider_of_providerCall {c : SystemCmd}
    {call : ProviderBinding × Credentials × RecordKey × Option ProviderRecord}
    (h : c.providerCall = some call) : c.callsProvider = true := by
  unfold SystemCmd.providerCall at h
  split at h
  · rfl
  · rfl
  · cases h

/-- The database asks for the key of the binding to be given the value, for the change set. -/
inductive Asks (db : Database) (id : String) (b : ProviderBinding) (key : RecordKey)
    (value : Option ProviderRecord) : Prop where
  /-- An item of the change set is being applied. -/
  | apply {item : ChangesetItem} {ctx : AppliedItemCtx} (hstatus : db.statusOf id = some .applying)
      (hitem : item ∈ db.items id) (hctx : resolve db item = some ctx)
      (hbinding : b ∈ db.activeBindings ctx.zoneId) (hwrite : ctx.write = some (key, value))
  /-- An item of the change set is being rolled back. -/
  | rollBack {item : ChangesetItem} {ctx : AppliedItemCtx}
      (hstatus : db.statusOf id = some .rollingBack) (hitem : item ∈ db.items id)
      (hctx : resolve db item = some ctx) (hbinding : b ∈ db.activeBindings ctx.zoneId)
      (hundo : ctx.undo = some (key, value))

/-! ## What was shown is still in the database -/

omit [SerdeJson] in
theorem Database.Grows.items {db db' : Database} (h : db.Grows db') {id : String}
    {item : ChangesetItem} (hitem : item ∈ db.items id) : item ∈ db'.items id := by
  simp only [Database.items, Table.mem_select] at hitem ⊢
  exact ⟨h.changesetItems.mem hitem.1, hitem.2⟩

omit [SerdeJson] in
theorem Database.Grows.zoneOf {db db' : Database} (h : db.Grows db') {recordId zoneId : String}
    (hzone : db.zoneOf recordId = some zoneId) : db'.zoneOf recordId = some zoneId := by
  obtain ⟨row, hrow, rfl⟩ := Option.map_eq_some_iff.mp hzone
  obtain ⟨row', hrow', rfl⟩ := h.desiredRecords.find?_eq_some (fun h => congrArg _ h.symm) hrow
  exact Option.map_eq_some_iff.mpr ⟨row, hrow', rfl⟩

omit [SerdeJson] in
theorem Database.Grows.activeBindings {db db' : Database} (h : db.Grows db') {zoneId : String}
    {b : ProviderBinding} (hb : b ∈ db.activeBindings zoneId) : b ∈ db'.activeBindings zoneId := by
  rw [Database.mem_activeBindings] at hb ⊢
  exact ⟨h.bindings.mem hb.1, hb.2⟩

/-- The log of a thread, each of whose replies a state before this one has given. -/
def AnsweredBy (env : SystemEnv) (log : Log) (db : Database) : Prop :=
  ∀ c r, ⟨c, r⟩ ∈ log → ∃ w : World, r = (handle env.apply c w).1 ∧ w.db.Grows db

/-- An item that was shown is resolved by the database as it was parsed. -/
theorem resolve_of_shown {env : SystemEnv} {log : Log} {db : Database} {id : String}
    {ctx : AppliedItemCtx} (hanswered : AnsweredBy env log db) (hshown : ItemShown log id ctx) :
    ∃ item ∈ db.items id, resolve db item = some ctx := by
  obtain ⟨items, item, hitems, hmem, hfrom, hzone⟩ := hshown
  obtain ⟨w, hreply, hgrows⟩ := hanswered _ _ hitems
  obtain ⟨w', hreply', hgrows'⟩ := hanswered _ _ hzone
  have hrows : items = w.db.items id := World.query_eq_ok hreply.symm
  have hfound : some ctx.zoneId = w'.db.zoneOf item.recordId := World.query_eq_ok hreply'.symm
  refine ⟨item, hgrows.items (hrows ▸ hmem), ?_⟩
  unfold resolve
  rw [hgrows'.zoneOf hfound.symm, hfrom.after, hfrom.before, ← hfrom.operation]
  rfl

/-- A call that was shown is asked for by the database, while the thread holds the change set. -/
theorem asks_of_shown {env : SystemEnv} {log : Log} {db : Database} {b : ProviderBinding}
    {key : RecordKey} {value : Option ProviderRecord} (hanswered : AnsweredBy env log db)
    (hholds : ∀ id status, Log.hold log = some (id, status) → db.statusOf id = some status)
    (hshown : WriteShown log b key value) :
    ∃ id status, Log.hold log = some (id, status) ∧ Asks db id b key value := by
  obtain ⟨id, ctx, bs, hitem, hbindings, hb, hstatus⟩ := hshown
  obtain ⟨item, hmem, hresolve⟩ := resolve_of_shown hanswered hitem
  obtain ⟨w, hreply, hgrows⟩ := hanswered _ _ hbindings
  have hrows : bs = w.db.activeBindings ctx.zoneId := World.query_eq_ok hreply.symm
  have hactive : b ∈ db.activeBindings ctx.zoneId := hgrows.activeBindings (hrows ▸ hb)
  rcases hstatus with ⟨hhold, hwrite⟩ | ⟨hhold, hundo⟩
  · exact ⟨id, _, hhold, .apply (hholds id _ hhold) hmem hresolve hactive hwrite⟩
  · exact ⟨id, _, hhold, .rollBack (hholds id _ hhold) hmem hresolve hactive hundo⟩

end

/-! ## Runs of the process -/

section Runs

variable [SerdeJson] [CryptoLib] [UnicodeData] [Chrono]

/-- A call that a run of the worker makes was shown and is authorized. -/
theorem WorkerRun.Makes.of_providerCall {run : WorkerRun} {log : List (Sigma SystemCmd.Reply)}
    {c : SystemCmd} {b : ProviderBinding} {creds : Credentials} {key : RecordKey}
    {value : Option ProviderRecord} (hmakes : run.Makes log c)
    (hcall : c.providerCall = some (b, creds, key, value)) :
    WriteShown (applyPart log) b key value ∧ run.worker.Authorizes b creds := by
  unfold SystemCmd.providerCall at hcall
  split at hcall
  · cases hcall
    exact hmakes
  · cases hcall
    exact hmakes
  · cases hcall

variable [Sha256]

/-- What the database asks of a thread that is about to make a call, at a moment of a run. -/
theorem asked_of_custody {state : AppState} {requests : List Request} {runs : List WorkerRun}
    {start : Database} {env : SystemEnv} {entries : List SystemEntry} {s : SystemState} {i : Nat}
    (hcustody : Custody start requests entries s) {c : SystemCmd}
    (hsanctioned : Sanctioned state requests runs (Pool.own i entries) c)
    (hanswered : AnsweredBy env (applyPart (Pool.own i entries)) s.db) {b : ProviderBinding}
    {creds : Credentials} {key : RecordKey} {value : Option ProviderRecord}
    (hcall : c.providerCall = some (b, creds, key, value)) :
    (∃ id status, holdOf i entries = some (id, status) ∧ Asks s.db id b key value ∧
      (Validated requests entries id ∨
        ∃ before, start.statusOf id = some before ∧ before ≠ .draft)) ∧
      ∃ run ∈ runs, run.worker.Authorizes b creds := by
  have hholds := fun id status hhold => (hcustody.holds i id status hhold).1
  rcases hsanctioned with ⟨request, -, hmakes⟩ | ⟨run, hrun, hmakes⟩
  · exact absurd hmakes (Request.not_makes_call (callsProvider_of_providerCall hcall))
  · obtain ⟨hshown, hauthorized⟩ := hmakes.of_providerCall hcall
    obtain ⟨id, status, hhold, hasks⟩ := asks_of_shown hanswered hholds hshown
    obtain ⟨hstatus, hrank⟩ := hcustody.holds i id status hhold
    have hdraft : status ≠ .draft := by
      rintro rfl
      exact absurd hrank (by decide)
    exact ⟨⟨id, status, hhold, hasks, hcustody.validated id status hstatus hdraft⟩,
      run, hrun, hauthorized⟩

/-- The database asks for the call for a change set that was validated, and the call is made with
    the credentials of the binding. -/
structure CallAsked (start : Database) (requests : List Request) (runs : List WorkerRun)
    (db : Database) (b : ProviderBinding) (creds : Credentials) (key : RecordKey)
    (value : Option ProviderRecord) : Prop where
  asked : ∃ id, Asks db id b key value ∧ (.validateChangeset id ∈ requests ∨
    ∃ before, start.statusOf id = some before ∧ before ≠ .draft)
  authorized : ∃ run ∈ runs, run.worker.Authorizes b creds

/-- As long as a thread is about to make a call, the database asks for it. -/
theorem callAsked_of_path {state : AppState} {requests : List Request} {runs : List WorkerRun}
    {env : SystemEnv} {s : SystemState} {schedule : List Nat} {i : Nat}
    {t : Prog.Thread SystemCmd SystemCmd.Reply}
    (ht : (process state requests runs s).threads[i]? = some t) {c : SystemCmd}
    {k : c.Reply → Prog.Thread SystemCmd SystemCmd.Reply}
    (hpath : Prog.Path t (Pool.own i ((process state requests runs s).trail (handleSystem env)
      schedule)) (.call c k)) {b : ProviderBinding} {creds : Credentials} {key : RecordKey}
    {value : Option ProviderRecord} (hcall : c.providerCall = some (b, creds, key, value)) :
    CallAsked s.db requests runs
      ((process state requests runs s).exec (handleSystem env) schedule).state.db b creds key
        value := by
  have hobeys := obeys_process_sanctioned state requests runs s t (List.mem_of_getElem? ht)
  have hsanctioned := hobeys.path (hpath.concat (handleSystem env c s).1)
  have hanswered : AnsweredBy env (applyPart (Pool.own i ((process state requests runs s).trail
      (handleSystem env) schedule)))
        ((process state requests runs s).exec (handleSystem env) schedule).state.db := by
    intro c r hr
    obtain ⟨x, hx, -, heq⟩ := Pool.mem_own.mp (mem_applyPart.mp hr)
    have hreply := Pool.reply_of_mem_trail hx
    have hkeeps := (guarantee_keeps env).trail_exec hx
    obtain ⟨u, j, c', q⟩ := x
    cases heq
    exact ⟨u.world, hreply, (((guarantee_keeps env).step _ u).trans hkeeps).grows⟩
  obtain ⟨⟨id, status, -, hasks, hvalidated⟩, hauthorized⟩ := asked_of_custody
    (custody_exec state requests runs env s schedule) hsanctioned hanswered hcall
  exact ⟨⟨id, hasks, hvalidated.imp_left (·.requested)⟩, hauthorized⟩

/-- The call is asked for by the database for a change set that the thread holds and that was
    validated, and it is made with the credentials of the binding. -/
structure CallJustified (start : Database) (requests : List Request) (runs : List WorkerRun)
    (pre : List SystemEntry) (x : SystemEntry) (b : ProviderBinding) (creds : Credentials)
    (key : RecordKey) (value : Option ProviderRecord) : Prop where
  asked : ∃ id status, holdOf x.event.thread pre = some (id, status) ∧
    Asks x.state.db id b key value ∧ (Validated requests pre id ∨
      ∃ before, start.statusOf id = some before ∧ before ≠ .draft)
  authorized : ∃ run ∈ runs, run.worker.Authorizes b creds

/-- Over every run of the process, every call that writes to a provider is justified at the
    moment it is made. -/
theorem process_calls_justified (state : AppState) (requests : List Request)
    (runs : List WorkerRun) (env : SystemEnv) (s : SystemState) (schedule : List Nat)
    (pre post : List SystemEntry) (x : SystemEntry)
    (hsplit : (process state requests runs s).trail (handleSystem env) schedule = pre ++ x :: post)
    (b : ProviderBinding) (creds : Credentials) (key : RecordKey) (value : Option ProviderRecord)
    (hcall : x.event.cmd.providerCall = some (b, creds, key, value)) :
    CallJustified s.db requests runs pre x b creds key value := by
  obtain ⟨hcustody, hallowed⟩ := Pool.trail_invariant_split (J := Custody s.db requests)
    (obeys_process_allowed state requests runs s) (.init requests s)
    (fun _ _ _ _ h hc => h.step hc) hsplit
  have hanswered : AnsweredBy env (applyPart (Pool.own x.event.thread pre)) x.state.db := by
    intro c r hr
    obtain ⟨t, hreply, hkeeps⟩ := (guarantee_keeps env).replied hsplit (mem_applyPart.mp hr)
    exact ⟨t.world, hreply, (((guarantee_keeps env).step _ t).trans hkeeps).grows⟩
  obtain ⟨hasked, hauthorized⟩ :=
    asked_of_custody hcustody hallowed.sanctioned hanswered hcall
  exact ⟨hasked, hauthorized⟩

end Runs

section Sample

open Sample

/-- The trail of the first seven commands of the worker. -/
private abbrev applyTrail : List SystemEntry :=
  restarted.trail (handleSystem systemEnv) (served 7)

private theorem lt_length_applyTrail : 15 < applyTrail.length := by decide +kernel

/-- The worker writes `www` to its first binding. -/
theorem process_calls_justified_www :
    CallJustified systemState.db sentRequests [workerRun, workerRun] (applyTrail.take 15)
      (applyTrail.get ⟨15, lt_length_applyTrail⟩) (binding "b1" "Z1") credentials
      (www "192.0.2.1").key (some (www "192.0.2.1")) :=
  process_calls_justified appState sentRequests [workerRun, workerRun] systemEnv systemState
    (served 7) (applyTrail.take 15) (applyTrail.drop 16) _
    ((List.take_append_drop 15 applyTrail).symm.trans
      (congrArg _ (List.drop_eq_getElem_cons lt_length_applyTrail))) _ _ _ _ (by decide +kernel)

end Sample

end DnsManager
