import DnsManager.Api.Server
import DnsManager.Spec.SyncOrigin
import DnsManager.Spec.SystemSteps
import DnsManager.Spec.WriteOrigin

/-!
# What each thread of the process may write

A request makes one write at most, and only after its checks have passed; the loops of
the worker make theirs. `Sanctioned` says it of the process: it names the request or the run of
the worker that a write comes from.

## Key results
- `only_serve`: what a request may write.
- `obeys_process_sanctioned`: every command of every thread is sanctioned.
-/

namespace DnsManager

open Prog (Obeys Only)

section Requests

variable [SerdeJson] [CryptoLib] [Sha256]

/-- The command is a call of a provider. -/
def SystemCmd.callsProvider : SystemCmd → Bool
  | .apply c => c.isProviderWrite
  | .sync (.listRecords ..) => true
  | _ => false

/-- The command is a write to the database or a call of a provider. -/
def SystemCmd.acts (c : SystemCmd) : Bool := c.isWrite || c.callsProvider

/-- The command is a response. -/
def SystemCmd.isResponse : SystemCmd → Bool
  | .api (.respond _) => true
  | _ => false

/-- The command only reads the database. -/
structure SystemCmd.IsRead (c : SystemCmd) : Prop where
  acts : c.acts = false
  response : c.isResponse = false

/-- What a request may write. -/
def Request.Makes (state : AppState) : Request → SystemCmd → Prop
  | createZone draws body, .api (.insertZone row) =>
    validateZoneRequest body = .ok () ∧ row = zoneRow draws body
  | createRecord draws zoneId body, .api (.insertRecord row) =>
    validateRecordRequest body = .ok () ∧ recordRow zoneId draws.id draws.now body = .ok row
  | createProvider draws body, .api (.insertBinding row) =>
    validateProviderRequest state.registeredProviders body = .ok () ∧
      bindingRow state.keyProvider draws body = .ok row
  | createChangeset draws body, .api (.txCreateChangeset row items) =>
    validateChangesetRequest body = .ok () ∧ row = changesetRow draws body ∧ items = body.items
  | validateChangeset id, .apply (.txUpdate id' target _) => id' = id ∧ target = .validated
  | _, c => c.acts = false

/-- A command that does not act may be part of every request. -/
theorem Request.makes_of_acts {state : AppState} {c : SystemCmd} (hc : c.acts = false)
    (request : Request) : request.Makes state c := by
  unfold Makes
  split <;> first | cases hc | exact hc

omit [CryptoLib] [Sha256] in
theorem acts_eq_false_of {c : SystemCmd} (h : c.acts = true) : c.acts ≠ false := by
  rw [h]
  decide

/-- Only a run of the worker calls a provider. -/
theorem Request.not_makes_call {state : AppState} {request : Request} {c : SystemCmd}
    (hc : c.callsProvider = true) : ¬ request.Makes state c := by
  intro h
  have hacts : c.acts = true := by
    unfold SystemCmd.acts
    rw [hc, Bool.or_true]
  unfold Makes at h
  split at h
  all_goals first
    | exact acts_eq_false_of hacts h
    | exact Bool.noConfusion hc

/-- What the handler of a request may issue: it leaves the response to `axum`. -/
structure Request.Handles (state : AppState) (request : Request) (c : SystemCmd) : Prop where
  makes : request.Makes state c
  response : c.isResponse = false

theorem SystemCmd.IsRead.handles {state : AppState} {c : SystemCmd} (hc : c.IsRead)
    (request : Request) : request.Handles state c :=
  ⟨request.makes_of_acts hc.acts, hc.response⟩

/-- A program of such commands. -/
structure Issues (P : SystemCmd → Prop) {ε α : Type} (p : Prog SystemCmd SystemCmd.Reply ε α) :
    Prop where
  only : Only P p

variable (state : AppState)

omit [CryptoLib] [Sha256] in
/-- A program that writes nothing. -/
theorem issues_embed_apply {ε α : Type} {p : Prog Cmd Cmd.Reply ε α} {P : SystemCmd → Prop}
    (hp : Only (fun c => P (.apply c)) p) : Issues P (p.embed applyCommands) :=
  ⟨Only.embed (fun _ hc => hc) hp⟩

omit [CryptoLib] [Sha256] in
theorem issues_fetchChangeset (id : String) :
    Issues SystemCmd.IsRead ((fetchChangeset id).embed applyCommands) :=
  issues_embed_apply (only_fetchChangeset ⟨rfl, rfl⟩ ⟨rfl, rfl⟩)

omit [CryptoLib] [Sha256] in
theorem issues_requireZone (zoneId : String) :
    Issues SystemCmd.IsRead (Handler.requireZone zoneId) := by
  refine ⟨.perform_bind ⟨rfl, rfl⟩ fun r => .liftExcept_bind fun zoneCount => ?_⟩
  split
  · exact .throw _
  · exact .pure _

/-- The part of a handler that writes nothing. -/
private theorem Issues.reads {α : Type} {p : HandlerM α}
    (hp : Issues SystemCmd.IsRead p) (request : Request) :
    Only (request.Handles state) p := hp.only.mono fun _ hc => hc.handles request

theorem issues_createZone (draws : Draws) (body : CreateZoneRequest) :
    Issues ((Request.createZone draws body).Handles state) (Handler.createZone draws body) := by
  refine ⟨.liftExcept_bind_of_ok fun _ hvalid => ?_⟩
  refine .perform_bind ⟨⟨hvalid, rfl⟩, rfl⟩ fun _ => .liftExcept_bind fun _ => ?_
  exact .perform_bind ⟨rfl, rfl⟩ fun _ => .liftExcept _

theorem issues_createRecord (draws : Draws) (zoneId : String) (body : CreateRecordRequest) :
    Issues ((Request.createRecord draws zoneId body).Handles state)
      (Handler.createRecord draws zoneId body) := by
  refine ⟨.liftExcept_bind_of_ok fun _ hvalid => ?_⟩
  refine .bind ((issues_requireZone zoneId).reads state _) fun _ => ?_
  refine .liftExcept_bind_of_ok fun row hrow => ?_
  refine .perform_bind ⟨⟨hvalid, hrow⟩, rfl⟩ fun _ => .liftExcept_bind fun _ => ?_
  exact .perform_bind ⟨rfl, rfl⟩ fun _ => .liftExcept_bind fun row => .liftExcept _

theorem issues_createProvider (draws : ProviderDraws) (body : CreateProviderRequest) :
    Issues ((Request.createProvider draws body).Handles state)
      (Handler.createProvider state draws body) := by
  refine ⟨.liftExcept_bind_of_ok fun _ hvalid => ?_⟩
  refine .bind ((issues_requireZone body.zoneId).reads state _) fun _ => ?_
  refine .liftExcept_bind_of_ok fun row hrow => ?_
  refine .perform_bind ⟨⟨hvalid, hrow⟩, rfl⟩ fun _ => .liftExcept_bind fun _ => ?_
  exact .perform_bind ⟨rfl, rfl⟩ fun _ => .liftExcept _

theorem issues_createChangeset (draws : Draws) (body : CreateChangesetRequest) :
    Issues ((Request.createChangeset draws body).Handles state)
      (Handler.createChangeset draws body) := by
  refine ⟨.liftExcept_bind_of_ok fun _ hvalid => ?_⟩
  refine .perform_bind ⟨⟨hvalid, rfl, rfl⟩, rfl⟩ fun _ => .liftExcept_bind fun _ => ?_
  refine .bind ((issues_fetchChangeset draws.id).reads state _) fun changeset => ?_
  cases changeset with
  | none => exact .throw _
  | some changeset => exact .pure _

theorem issues_validateChangeset (id : String) :
    Issues ((Request.validateChangeset id).Handles state) (Handler.validateChangeset id) := by
  refine issues_embed_apply (only_validateChangeset ⟨rfl, rfl⟩ (fun _ => ?_) ⟨rfl, rfl⟩ ⟨rfl, rfl⟩)
  exact ⟨⟨rfl, rfl⟩, rfl⟩

/-- A handler issues what it may issue. -/
theorem only_handler (request : Request) :
    Issues (request.Handles state) (request.handler state) := by
  have answers : ∀ {α : Type} {status : StatusCode} {body : α → ResponseBody} {p : HandlerM α}
      {P : SystemCmd → Prop}, Issues P p → Issues P (respondWith status body p) :=
    fun hp => ⟨.bind hp.only fun _ => .pure _⟩
  cases request with
  | getHealth => exact ⟨.pure _⟩
  | listZones => exact answers ⟨.perform_bind ⟨rfl, rfl⟩ fun _ => .liftExcept _⟩
  | createZone draws body => exact answers (issues_createZone state draws body)
  | listRecords zoneId =>
    refine answers ⟨.bind ((issues_requireZone zoneId).reads state _) fun _ => ?_⟩
    exact .perform_bind ⟨rfl, rfl⟩ fun _ => .liftExcept_bind fun rows => .liftExcept _
  | createRecord draws zoneId body => exact answers (issues_createRecord state draws zoneId body)
  | createProvider draws body => exact answers (issues_createProvider state draws body)
  | getSyncState providerId =>
    refine answers ⟨.perform_bind ⟨rfl, rfl⟩ fun _ => .liftExcept_bind fun bindingCount => ?_⟩
    split
    · exact .throw _
    · exact .perform_bind ⟨rfl, rfl⟩ fun _ => .liftExcept _
  | createChangeset draws body => exact answers (issues_createChangeset state draws body)
  | getChangeset changesetId =>
    refine answers ⟨.bind ((issues_fetchChangeset changesetId).reads state _) fun changeset => ?_⟩
    cases changeset with
    | none => exact .throw _
    | some changeset => exact .pure _
  | validateChangeset changesetId => exact answers (issues_validateChangeset state changesetId)
  | unimplemented handler => exact ⟨.pure _⟩

/-- The thread of a request writes what the request may write. -/
theorem only_serve (request : Request) : Only (request.Makes state) (serve state request) :=
  .bind (.attempt ((only_handler state request).only.mono fun _ hc => hc.makes)) fun _ =>
    .perform_bind (request.makes_of_acts rfl) fun _ => .pure _

end Requests

section Runs

variable [SerdeJson]

/-- The commands of the apply loop in a log of the process. -/
def applyPart (log : List (Sigma SystemCmd.Reply)) : Log :=
  log.filterMap fun
    | ⟨.apply c, r⟩ => some ⟨c, r⟩
    | _ => none

theorem applyPart_append (log log' : List (Sigma SystemCmd.Reply)) :
    applyPart (log ++ log') = applyPart log ++ applyPart log' := List.filterMap_append

theorem mem_applyPart {log : List (Sigma SystemCmd.Reply)} {c : Cmd} {r : c.Reply} :
    ⟨c, r⟩ ∈ applyPart log ↔ ⟨.apply c, r⟩ ∈ log := by
  refine List.mem_filterMap.trans ⟨?_, fun h => ⟨_, h, rfl⟩⟩
  rintro ⟨⟨c', r'⟩, h, heq⟩
  cases c' with
  | apply c' =>
    cases heq
    exact h
  | _ => cases heq

/-- The commands of a synchronisation loop in a log of the process. -/
def syncPart (log : List (Sigma SystemCmd.Reply)) : SyncLog :=
  log.filterMap fun
    | ⟨.sync c, r⟩ => some ⟨c, r⟩
    | _ => none

theorem syncPart_append (log log' : List (Sigma SystemCmd.Reply)) :
    syncPart (log ++ log') = syncPart log ++ syncPart log' := List.filterMap_append

theorem mem_syncPart {log : List (Sigma SystemCmd.Reply)} {c : SyncCmd} {r : c.Reply} :
    ⟨c, r⟩ ∈ syncPart log ↔ ⟨.sync c, r⟩ ∈ log := by
  refine List.mem_filterMap.trans ⟨?_, fun h => ⟨_, h, rfl⟩⟩
  rintro ⟨⟨c', r'⟩, h, heq⟩
  cases c' with
  | sync c' =>
    cases heq
    exact h
  | _ => cases heq

variable [CryptoLib] [UnicodeData] [Chrono]

/-- What a run of the worker may issue. -/
def WorkerRun.Makes (run : WorkerRun) (log : List (Sigma SystemCmd.Reply)) : SystemCmd → Prop
  | .apply c => OriginAllows (applyPart log) c ∧ c.Authorized run.worker
  | .sync c => SyncAllowed run.worker (syncPart log) c
  | .api _ => False

/-- The loops of the worker issue what its run may issue. -/
theorem obeys_workerRun_makes (run : WorkerRun) :
    ∀ t ∈ run.threads, Obeys (Prog.recorder run.Makes) t [] fun _ _ => True := by
  have hsync : ∀ {p : SyncM Unit},
      Obeys (Prog.recorder (SyncAllowed run.worker)) p [] (fun _ _ => True) →
        Obeys (Prog.recorder run.Makes) ((p.embed syncCommands).detach) [] fun _ _ => True := by
    intro p hp
    refine (Obeys.embed (m := Prog.recorder (SyncAllowed run.worker)) (Q := fun _ _ => True)
      syncPart ?_ ?_ hp).detach
    · exact fun _ _ h => h
    · exact fun log c r => syncPart_append log [⟨.sync c, r⟩]
  have happly : Obeys (Prog.recorder run.Makes)
      ((run.worker.runApplyLoop run.applyTicks).embed applyCommands) [] fun _ _ => True := by
    let allows : Log → Cmd → Prop := fun log c => OriginAllows log c ∧ c.Authorized run.worker
    have hp : Obeys (Prog.recorder allows) (run.worker.runApplyLoop run.applyTicks) []
        fun _ _ => True :=
      ((obeys_runApplyLoop_origin run.worker run.applyTicks).both
        ((only_runApplyLoop_credentials run.worker run.applyTicks).recorded
          (List.forall_mem_nil _))).allowing fun _ _ h => ⟨h.1, h.2.1⟩
    refine Obeys.embed (m := Prog.recorder allows) (Q := fun _ _ => True) applyPart ?_ ?_ hp
    · exact fun _ _ h => h
    · exact fun log c r => applyPart_append log [⟨.apply c, r⟩]
  intro t ht
  simp only [WorkerRun.threads, List.mem_cons, List.not_mem_nil, or_false] at ht
  rcases ht with rfl | rfl | rfl
  · exact happly.detach
  · exact hsync (obeys_runObserveLoop_allowed run.worker run.observeTicks)
  · exact hsync (obeys_runRetryLoop_allowed run.worker run.retryOrders)

variable [Sha256]

/-- The command comes from a request that was sent, or from a run of the worker. -/
def Sanctioned (state : AppState) (requests : List Request) (runs : List WorkerRun)
    (log : List (Sigma SystemCmd.Reply)) (c : SystemCmd) : Prop :=
  (∃ request ∈ requests, request.Makes state c) ∨ ∃ run ∈ runs, run.Makes log c

/-- Every command of every thread of the process is sanctioned. -/
theorem obeys_process_sanctioned (state : AppState) (requests : List Request)
    (runs : List WorkerRun) (s : SystemState) :
    ∀ t ∈ (process state requests runs s).threads,
      Obeys (Prog.recorder (Sanctioned state requests runs)) t [] fun _ _ => True := by
  intro t ht
  rcases List.mem_append.mp ht with ht | ht
  · obtain ⟨request, hrequest, rfl⟩ := List.mem_map.mp ht
    exact ((only_serve state request).recorded (List.forall_mem_nil _)).allowing
      fun _ _ hc => .inl ⟨request, hrequest, hc.1⟩
  · obtain ⟨run, hrun, ht⟩ := List.mem_flatMap.mp ht
    exact (obeys_workerRun_makes run t ht).weaken fun _ _ hc => .inr ⟨run, hrun, hc⟩

/-- A command of a run is sanctioned, after what its thread has issued before. -/
theorem sanctioned_of_split {state : AppState} {requests : List Request} {runs : List WorkerRun}
    {env : SystemEnv} {s : SystemState} {schedule : List Nat} {pre post : List SystemEntry}
    {x : SystemEntry} (hsplit : (process state requests runs s).trail (handleSystem env) schedule =
      pre ++ x :: post) :
    Sanctioned state requests runs (Prog.Pool.own x.event.thread pre) x.event.cmd := by
  have hmem : x ∈ (process state requests runs s).trail (handleSystem env) schedule := by
    rw [hsplit]
    exact List.mem_append_right _ List.mem_cons_self
  obtain ⟨t, ht⟩ := Prog.Pool.exists_thread_of_mem_trail hmem
  exact Prog.Pool.obeys_trail hsplit ht
    (obeys_process_sanctioned state requests runs s t (List.mem_of_getElem? ht))

end Runs

end DnsManager
