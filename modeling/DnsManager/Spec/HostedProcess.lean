import DnsManager.Adapters.Route53.Process
import DnsManager.Spec.ProviderFrame

/-!
# Provider calls as single steps

The process is verified with every call of a provider as one command. On top of Route53 a call is a
sequence of requests, between which the other threads and the other clients of the hosted zones go
on. To the database this makes no difference: every run, request by request, is one in which each
call is made at once when it returns, with the outcome it has.

## Key results
- `hosted_process_refines`: the runs on top of Route53 are runs of the process.
-/

namespace DnsManager.Route53

open Prog (Event Pool Thread)
open Prog.Pool (Answers outerEvent)

variable [SerdeJson]

/-! ## The outcomes of the calls -/

/-- What a call that writes to a provider was answered with. -/
def writeReply : Event SystemCmd SystemCmd.Reply → Option (Except ProviderError Unit)
  | ⟨_, .apply (.upsertRecord ..), r⟩ => some r
  | ⟨_, .apply (.deleteRecord ..), r⟩ => some r
  | _ => none

/-- What a listing was answered with. -/
def listingReply : Event SystemCmd SystemCmd.Reply →
    Option (Except ProviderError (List ProviderRecord))
  | ⟨_, .sync (.listRecords ..), r⟩ => some r
  | _ => none

/-- The outcome of a call with the answer. -/
def outcomeOf : Except ProviderError Unit → CallOutcome
  | .ok _ => .ok
  | .error e => .refused e

/-- The environment in which the provider calls have other outcomes. -/
def answering (env : SystemEnv) (calls : Nat → CallOutcome)
    (listings : Nat → Except ProviderError (List ProviderRecord)) : SystemEnv where
  apply := { env.apply with calls }
  sync := { env.sync with listings := fun n _ _ => listings n }

/-- The outcomes are those of the calls of a log, from the numbers on that come next. -/
structure Foretells (calls : Nat → CallOutcome)
    (listings : Nat → Except ProviderError (List ProviderRecord)) (n m : Nat)
    (log : List (Event SystemCmd SystemCmd.Reply)) : Prop where
  calls : ∀ k r, (log.filterMap writeReply)[k]? = some r → calls (n + k) = outcomeOf r
  listings : ∀ k r, (log.filterMap listingReply)[k]? = some r → listings (m + k) = r

/-- There are such outcomes for every log. -/
theorem exists_foretells (log : List (Event SystemCmd SystemCmd.Reply)) (n m : Nat) :
    ∃ calls listings, Foretells calls listings n m log := by
  refine ⟨fun k => outcomeOf ((log.filterMap writeReply)[k - n]?.getD (.ok ())),
    fun k => (log.filterMap listingReply)[k - m]?.getD (.ok []), ⟨fun k r h => ?_, fun k r h => ?_⟩⟩
  · simp [h]
  · simp [h]

namespace Foretells

variable {calls : Nat → CallOutcome} {listings : Nat → Except ProviderError (List ProviderRecord)}
  {n m : Nat} {e : Event SystemCmd SystemCmd.Reply} {log log' : List (Event SystemCmd SystemCmd.Reply)}

theorem of_prefix (h : Foretells calls listings n m log) (hlog : log' <+: log) :
    Foretells calls listings n m log' := by
  obtain ⟨rest, rfl⟩ := hlog
  refine ⟨fun k r hk => h.calls k r ?_, fun k r hk => h.listings k r ?_⟩
  · rw [List.filterMap_append]
    exact (List.getElem?_append_left (List.getElem?_eq_some_iff.mp hk).1).trans hk
  · rw [List.filterMap_append]
    exact (List.getElem?_append_left (List.getElem?_eq_some_iff.mp hk).1).trans hk

/-- After a command that is no call. -/
theorem of_other (h : Foretells calls listings n m (e :: log)) (hwrite : writeReply e = none)
    (hlisting : listingReply e = none) : Foretells calls listings n m log := by
  refine ⟨fun k r hk => h.calls k r ?_, fun k r hk => h.listings k r ?_⟩
  · rwa [List.filterMap_cons_none hwrite]
  · rwa [List.filterMap_cons_none hlisting]

/-- After a call that writes. -/
theorem of_write (h : Foretells calls listings n m (e :: log)) {r : Except ProviderError Unit}
    (hwrite : writeReply e = some r) (hlisting : listingReply e = none) :
    calls n = outcomeOf r ∧ Foretells calls listings (n + 1) m log := by
  refine ⟨?_, ⟨fun k r' hk => ?_, fun k r hk => h.listings k r ?_⟩⟩
  · have hfirst := h.calls 0 r (by rw [List.filterMap_cons_some hwrite]; rfl)
    simpa using hfirst
  · have hlater := h.calls (k + 1) r' (by rw [List.filterMap_cons_some hwrite]; exact hk)
    rwa [show n + (k + 1) = n + 1 + k by omega] at hlater
  · rwa [List.filterMap_cons_none hlisting]

/-- After a listing. -/
theorem of_listing (h : Foretells calls listings n m (e :: log))
    {r : Except ProviderError (List ProviderRecord)} (hwrite : writeReply e = none)
    (hlisting : listingReply e = some r) :
    listings m = r ∧ Foretells calls listings n (m + 1) log := by
  refine ⟨?_, ⟨fun k r hk => h.calls k r ?_, fun k r' hk => ?_⟩⟩
  · have hfirst := h.listings 0 r (by rw [List.filterMap_cons_some hlisting]; rfl)
    simpa using hfirst
  · rwa [List.filterMap_cons_none hwrite]
  · have hlater := h.listings (k + 1) r' (by rw [List.filterMap_cons_some hlisting]; exact hk)
    rwa [show m + (k + 1) = m + 1 + k by omega] at hlater

end Foretells

/-! ## Commands -/

/-- The state with other provider zones and numbers of the next call and listing. -/
def seeing (s : SystemState) (contents : Contents) (calls listings : Nat) : SystemState :=
  { s with world := s.world.seeing contents calls, listings }

variable {env : SystemEnv} {calls : Nat → CallOutcome}
  {listings : Nat → Except ProviderError (List ProviderRecord)} {fuel : Nat} [UnicodeData] [AwsSdk]

/-- A command that is no call of a provider does not look at them. -/
theorem handleSystem_seeing {c : SystemCmd} (hc : adapterCalls fuel c = none) (s : SystemState)
    (σ : Contents) (n m : Nat) :
    handleSystem (answering env calls listings) c (seeing s σ n m) =
      ((handleSystem env c s).1, seeing (handleSystem env c s).2 σ n m) := by
  cases c with
  | apply c =>
    have hquiet : c.isProviderWrite = false := by
      cases c with
      | upsertRecord | deleteRecord => cases hc
      | _ => rfl
    simp only [handleSystem, answering, seeing, handle_seeing env.apply calls s.world σ n hquiet]
  | api c => simp only [handleSystem, answering, seeing, handleApi_seeing]
  | sync c =>
    cases c with
    | listRecords b creds => cases hc
    | utcNow => rfl
    | upsertSyncState row =>
      simp only [handleSystem, handleSync, SyncWorld.write, SystemState.syncWorld, answering, seeing]
      cases env.sync.writes s.writes with
      | some e => rfl
      | none =>
        dsimp only [SystemState.db, World.seeing]
        cases s.world.db.upsertSyncState row <;> rfl
    | _ =>
      simp only [handleSystem, handleSync, SyncWorld.query, SystemState.syncWorld, answering, seeing]
      cases env.sync.queries s.queries <;> rfl

omit [AwsSdk] [SerdeJson] [UnicodeData] in
/-- A call that is answered as it was. -/
private theorem call_seeing (env : Env) (w : World) (σ : Contents) (n : Nat) (b : ProviderBinding)
    (key : RecordKey) (value : Option ProviderRecord) {r : Except ProviderError Unit}
    (hr : calls n = outcomeOf r) :
    ∃ σ', World.call { env with calls } (w.seeing σ n) b key value = (r, w.seeing σ' (n + 1)) := by
  cases r with
  | ok _ =>
    have hok : calls (w.seeing σ n).calls = .ok := hr
    simp only [World.call, hok]
    exact ⟨_, rfl⟩
  | error e =>
    have hrefused : calls (w.seeing σ n).calls = .refused e := hr
    simp only [World.call, hrefused]
    exact ⟨_, rfl⟩

variable (env) in
/-- A call of a provider is answered as it was, and leaves the rest of the state. -/
private theorem handleSystem_call {c : SystemCmd} {p} (hc : adapterCalls fuel c = some p)
    {r : c.Reply} {i n m : Nat} {log : List (Event SystemCmd SystemCmd.Reply)}
    (hlog : Foretells calls listings n m (⟨i, c, r⟩ :: log)) (s : SystemState) (σ : Contents) :
    ∃ σ' n' m', Foretells calls listings n' m' log ∧
      handleSystem (answering env calls listings) c (seeing s σ n m) = (r, seeing s σ' n' m') := by
  cases c with
  | api c => cases hc
  | apply c =>
    cases c with
    | upsertRecord b creds record =>
      obtain ⟨hr, hlater⟩ := hlog.of_write rfl rfl
      obtain ⟨σ', hcall⟩ := call_seeing env.apply s.world σ n b record.key (some record) hr
      refine ⟨σ', n + 1, m, hlater, ?_⟩
      simp only [handleSystem, handle, answering, seeing, hcall]
    | deleteRecord b creds key =>
      obtain ⟨hr, hlater⟩ := hlog.of_write rfl rfl
      obtain ⟨σ', hcall⟩ := call_seeing env.apply s.world σ n b key none hr
      refine ⟨σ', n + 1, m, hlater, ?_⟩
      simp only [handleSystem, handle, answering, seeing, hcall]
    | _ => cases hc
  | sync c =>
    cases c with
    | listRecords b creds =>
      obtain ⟨hr, hlater⟩ := hlog.of_listing rfl rfl
      refine ⟨σ, n, m + 1, hlater, ?_⟩
      exact Prod.ext hr rfl
    | _ => cases hc

/-! ## Runs -/

/-- What the log of the process would be if every call were made when it returns. -/
def outerLog (pool : Prog.Pool ProcessCmd ProcessReply ProcessState) :
    List (Event SystemCmd SystemCmd.Reply) :=
  pool.log.filterMap outerEvent

variable [Route53Order] {services : String → Route53Env}

/-- The commands of the process and the returns of its calls are answered in the environment that
    has the outcomes of the calls. -/
theorem answers_outer {s s' : ProcessState} {log : List (Event ProcessCmd ProcessReply)}
    (hlog : Answers (handleProcess env services) s log s')
    (hcmd : ∀ e ∈ log, ∀ c, e.cmd = .cmd c → adapterCalls fuel c = none)
    (hreturned : ∀ e ∈ log, ∀ c r, e.cmd = .returned c r → (adapterCalls fuel c).isSome)
    {σ : Contents} {n m : Nat} (hforetold : Foretells calls listings n m (log.filterMap outerEvent)) :
    ∃ σ' n' m', Answers (handleSystem (answering env calls listings)) (seeing s.system σ n m)
      (log.filterMap outerEvent) (seeing s'.system σ' n' m') := by
  induction hlog generalizing σ n m with
  | nil s => exact ⟨σ, n, m, .nil _⟩
  | @cons s s' i c log hlog ih =>
    obtain ⟨hcmd, hcmds⟩ := List.forall_mem_cons.mp hcmd
    obtain ⟨hreturned, hreturneds⟩ := List.forall_mem_cons.mp hreturned
    cases c with
    | inner d =>
      -- a request does not touch the state of the process
      exact ih hcmds hreturneds hforetold
    | cmd c =>
      have hquiet := hcmd c rfl
      have hlater : Foretells calls listings n m (log.filterMap outerEvent) := by
        refine hforetold.of_other ?_ ?_
        · cases c with
          | apply c => cases c <;> first | rfl | cases hquiet
          | _ => rfl
        · cases c with
          | sync c => cases c <;> first | rfl | cases hquiet
          | _ => rfl
      obtain ⟨σ', n', m', hrest⟩ := ih hcmds hreturneds hlater
      exact ⟨σ', n', m', .of_step (handleSystem_seeing hquiet s.system σ n m) hrest⟩
    | returned c r =>
      -- the call is made here, with the outcome it has
      obtain ⟨p, hp⟩ := Option.isSome_iff_exists.mp (hreturned c r rfl)
      obtain ⟨σ₁, n₁, m₁, hlater, hstep⟩ := handleSystem_call env hp hforetold s.system σ
      obtain ⟨σ', n', m', hrest⟩ := ih hcmds hreturneds hlater
      exact ⟨σ', n', m', .of_step hstep hrest⟩

section Process

variable [CryptoLib] [Sha256] [Chrono] (fuel : Nat) (state : AppState) (requests : List Request)
  (runs : List WorkerRun) (clients : List (Thread ZoneCmd ZoneCmd.Reply)) (env : SystemEnv)
  (services : String → Route53Env) (s : ProcessState) (schedule : List Nat)

/-- The log of a run from the start. -/
theorem outerLog_exec :
    outerLog ((hostedProcess fuel state requests runs clients s).exec (handleProcess env services)
        schedule) =
      (((hostedProcess fuel state requests runs clients s).trail (handleProcess env services)
        schedule).map (·.event)).filterMap outerEvent := by
  rw [outerLog, Pool.log_exec]
  rfl

variable {fuel state requests runs clients env services s schedule}

/-- Whoever executes a command or returns from a call is a thread of the process. -/
private theorem path_expanded {x : Pool.Entry ProcessCmd ProcessReply ProcessState}
    (hx : x ∈ (hostedProcess fuel state requests runs clients s).trail (handleProcess env services)
      schedule) {e : Event SystemCmd SystemCmd.Reply} (he : outerEvent x.event = some e) :
    ∃ t u, Prog.Path (Prog.expand (adapterCalls fuel) t) (Pool.own x.event.thread
      ((hostedProcess fuel state requests runs clients s).trail (handleProcess env services)
        schedule)) u := by
  obtain ⟨t, u, -, hpath⟩ := Pool.exists_expanded hx he
  exact ⟨t, u, hpath⟩

/-- What is executed at once is no call of a provider. -/
theorem adapterCalls_of_cmd {x : Pool.Entry ProcessCmd ProcessReply ProcessState}
    (hx : x ∈ (hostedProcess fuel state requests runs clients s).trail (handleProcess env services)
      schedule) {c : SystemCmd} (hc : x.event.cmd = .cmd c) : adapterCalls fuel c = none := by
  obtain ⟨y, i, c', r⟩ := x
  cases hc
  obtain ⟨t, u, hpath⟩ := path_expanded hx rfl
  exact Prog.path_cmd hpath (Pool.mem_own.mpr ⟨_, hx, rfl, rfl⟩)

/-- Before it returns, a call has made all its requests, and its thread has done nothing else since
    it was made. -/
theorem path_of_returned {pre post : List (Pool.Entry ProcessCmd ProcessReply ProcessState)}
    {x : Pool.Entry ProcessCmd ProcessReply ProcessState}
    (hsplit : (hostedProcess fuel state requests runs clients s).trail (handleProcess env services)
      schedule = pre ++ x :: post) {c : SystemCmd} {r : c.Reply} (hc : x.event.cmd = .returned c r) :
    ∃ p before, ∃ inside : List (Sigma ZoneCmd.Reply), adapterCalls fuel c = some p ∧
      Pool.own x.event.thread pre = before ++ inside.map Prog.innerEvent ∧
      Prog.Path p inside (.ret (some r)) := by
  have hx : x ∈ (hostedProcess fuel state requests runs clients s).trail (handleProcess env services)
      schedule := by
    rw [hsplit]
    exact List.mem_append_right _ List.mem_cons_self
  have hown := Pool.own_split pre post x
  obtain ⟨y, i, c', u⟩ := x
  cases hc
  obtain ⟨t, u', hpath⟩ := path_expanded hx rfl
  rw [hsplit, hown] at hpath
  exact Prog.path_returned hpath

variable (fuel state requests runs clients env services s schedule)

/-- A run on top of Route53 up to any of its moments, without the requests and with the outcomes its
    calls have, is a run of the process. -/
theorem exists_atomic_run : ∃ calls listings, ∀ pre, pre <+: schedule → ∃ σ n m,
    ((process state requests runs s.system).trail (handleSystem (answering env calls listings))
        ((outerLog ((hostedProcess fuel state requests runs clients s).exec
          (handleProcess env services) pre)).map (·.thread))).map (·.event) =
      outerLog ((hostedProcess fuel state requests runs clients s).exec
        (handleProcess env services) pre) ∧
    ((process state requests runs s.system).exec (handleSystem (answering env calls listings))
        ((outerLog ((hostedProcess fuel state requests runs clients s).exec
          (handleProcess env services) pre)).map (·.thread))).state =
      seeing ((hostedProcess fuel state requests runs clients s).exec
        (handleProcess env services) pre).state.system σ n m := by
  -- the outcomes are chosen for the whole run, and so for each part of it from the start
  obtain ⟨calls, listings, hforetold⟩ := exists_foretells
    (outerLog ((hostedProcess fuel state requests runs clients s).exec (handleProcess env services)
      schedule)) s.system.world.calls s.system.listings
  refine ⟨calls, listings, fun pre hpre => ?_⟩
  have hprefix : outerLog ((hostedProcess fuel state requests runs clients s).exec
      (handleProcess env services) pre) <+: outerLog ((hostedProcess fuel state requests runs
        clients s).exec (handleProcess env services) schedule) := by
    obtain ⟨post, rfl⟩ := hpre
    rw [outerLog_exec, outerLog_exec, Pool.trail_append, List.map_append, List.filterMap_append]
    exact List.prefix_append _ _
  have hforetold := hforetold.of_prefix hprefix
  rw [outerLog_exec] at hforetold ⊢
  have hcmd : ∀ e ∈ ((hostedProcess fuel state requests runs clients s).trail
      (handleProcess env services) pre).map (·.event), ∀ c, e.cmd = .cmd c →
        adapterCalls fuel c = none := by
    intro e he c hc
    obtain ⟨x, hx, rfl⟩ := List.mem_map.mp he
    exact adapterCalls_of_cmd hx hc
  have hreturned : ∀ e ∈ ((hostedProcess fuel state requests runs clients s).trail
      (handleProcess env services) pre).map (·.event), ∀ c r, e.cmd = .returned c r →
        (adapterCalls fuel c).isSome := by
    intro e he c r hc
    obtain ⟨x, hx, rfl⟩ := List.mem_map.mp he
    obtain ⟨before, after, hsplit⟩ := List.append_of_mem hx
    obtain ⟨p, -, -, hp, -, -⟩ := path_of_returned hsplit hc
    exact Option.isSome_iff_exists.mpr ⟨p, hp⟩
  obtain ⟨σ, n, m, hlog⟩ := answers_outer
    (Pool.answers_trail (hostedProcess fuel state requests runs clients s) pre) hcmd hreturned
    hforetold
  refine ⟨σ, n, m, Pool.exec_of_answers hlog fun e he => ?_⟩
  exact Pool.path_outer he

/-- Every run of the process on top of Route53, request by request and beside other clients of the
    hosted zones, has at each of its moments the database of a run of the process in which every
    call is one command; the events of that run are those of this one without the requests. -/
theorem hosted_process_refines : ∃ calls listings, ∀ pre, pre <+: schedule →
    ((process state requests runs s.system).exec (handleSystem (answering env calls listings))
        ((outerLog ((hostedProcess fuel state requests runs clients s).exec
          (handleProcess env services) pre)).map (·.thread))).log =
      outerLog ((hostedProcess fuel state requests runs clients s).exec
        (handleProcess env services) pre) ∧
    ((process state requests runs s.system).exec (handleSystem (answering env calls listings))
        ((outerLog ((hostedProcess fuel state requests runs clients s).exec
          (handleProcess env services) pre)).map (·.thread))).state.db =
      ((hostedProcess fuel state requests runs clients s).exec
        (handleProcess env services) pre).state.system.db := by
  obtain ⟨calls, listings, hatomic⟩ :=
    exists_atomic_run fuel state requests runs clients env services s schedule
  refine ⟨calls, listings, fun pre hpre => ?_⟩
  obtain ⟨σ, n, m, htrail, hstate⟩ := hatomic pre hpre
  constructor
  · rw [Pool.log_exec, htrail]
    rfl
  · rw [hstate]
    rfl

end Process

end DnsManager.Route53
