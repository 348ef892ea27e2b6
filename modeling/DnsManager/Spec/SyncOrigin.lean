import DnsManager.Spec.SyncPasses
import DnsManager.Spec.WriteOrigin

/-!
# Where the writes of the synchronisation loops come from

Both loops list only bindings they were shown, with the credentials of the binding, and write a
sync state only for a pair they were shown: the observe loop for a desired record of the
binding's zone, the retry loop for a pair that had failed.

## Key results
- `obeys_runObserveLoop_allowed`, `obeys_runRetryLoop_allowed`: `SyncAllowed` holds of every
  command of the loops.
-/

namespace DnsManager

open Prog (Obeys Only liftExcept)

/-- The commands of a synchronisation loop with their replies. -/
abbrev SyncLog := List (Sigma SyncCmd.Reply)

/-- What a query returns comes from the database. -/
theorem SyncWorld.query_eq_ok {α : Type} {env : SyncEnv} {w : SyncWorld} {answer : Database → α}
    {a : α} (h : (w.query env answer).1 = .ok a) : a = answer w.db := by
  unfold query at h
  split at h
  · cases h
  · cases h; rfl

/-- The log shows the binding. -/
def BindingShown (log : SyncLog) (b : ProviderBinding) : Prop :=
  (∃ bs, ⟨.selectActive, .ok bs⟩ ∈ log ∧ b ∈ bs) ∨ ∃ id, ⟨.selectBinding id, .ok (some b)⟩ ∈ log

/-- The log shows a pair: the record is one of the binding's zone, or the pair had failed. -/
inductive PairShown (log : SyncLog) (recordId : String) : String → Prop where
  | desired {bindingId : String} {rows : List DesiredRecord} {row : DesiredRecord}
      (hread : ⟨.selectDesired bindingId, .ok rows⟩ ∈ log) (hrow : row ∈ rows)
      (hid : row.id = recordId) : PairShown log recordId bindingId
  | failed {rows : List SyncStateFailedRow} {entry : SyncStateFailedRow}
      (hread : ⟨.selectFailed, .ok rows⟩ ∈ log) (hentry : entry ∈ rows)
      (hid : entry.recordId = recordId) : PairShown log recordId entry.providerBindingId
  /-- The row was written under the id of the binding that was found for the entry. -/
  | found {rows : List SyncStateFailedRow} {entry : SyncStateFailedRow} {b : ProviderBinding}
      (hread : ⟨.selectFailed, .ok rows⟩ ∈ log) (hentry : entry ∈ rows)
      (hid : entry.recordId = recordId)
      (hbinding : ⟨.selectBinding entry.providerBindingId, .ok (some b)⟩ ∈ log) :
      PairShown log recordId b.id

theorem BindingShown.mono {log log' : SyncLog} {b : ProviderBinding} (h : BindingShown log b)
    (hlog : log <+: log') : BindingShown log' b :=
  h.imp (fun ⟨bs, hread, hb⟩ => ⟨bs, hlog.subset hread, hb⟩) fun ⟨id, hread⟩ =>
    ⟨id, hlog.subset hread⟩

theorem PairShown.mono {log log' : SyncLog} {recordId bindingId : String}
    (h : PairShown log recordId bindingId) (hlog : log <+: log') :
    PairShown log' recordId bindingId := by
  cases h with
  | desired hread hrow hid => exact .desired (hlog.subset hread) hrow hid
  | failed hread hentry hid => exact .failed (hlog.subset hread) hentry hid
  | found hread hentry hid hbinding =>
    exact .found (hlog.subset hread) hentry hid (hlog.subset hbinding)

section Worker

variable [CryptoLib] [SerdeJson] (worker : ReconcileWorker)

/-- What a synchronisation loop may issue. -/
def SyncAllows (log : SyncLog) : SyncCmd → Prop
  | .listRecords b creds => BindingShown log b ∧ worker.Authorizes b creds
  | .upsertSyncState row => PairShown log row.recordId row.providerBindingId
  | _ => True

/-- The recorder of a synchronisation loop. -/
abbrev syncOrigin : Prog.Monitor SyncCmd SyncCmd.Reply := Prog.recorder (SyncAllows worker)

/-- The program keeps to it, after what was issued before. -/
structure KeepsTo {α : Type} (log : SyncLog) (p : SyncM α) : Prop where
  obeys : Obeys (syncOrigin worker) p log fun _ (log' : SyncLog) => log <+: log'

variable {worker} {log log' : SyncLog}

/-- A loop whose rounds keep to it, whatever was issued since. -/
private theorem KeepsTo.forM {α : Type} {xs : List α} {f : α → SyncM Unit}
    (h : ∀ x ∈ xs, ∀ log', log <+: log' → KeepsTo worker log' (f x)) :
    KeepsTo worker log (forM xs f) :=
  ⟨Obeys.forM (m := syncOrigin worker) (fun log' => log <+: log') List.prefix_rfl
    fun x hx log' hlog' => (h x hx log' hlog').obeys.mono fun _ _ h' => hlog'.trans h'⟩

/-- An outcome that nobody looks at. -/
private theorem KeepsTo.ignored {p : SyncM Unit} (h : KeepsTo worker log p) :
    KeepsTo worker log (do let _ ← (p.attempt : SyncM (Except String Unit)); pure ()) :=
  ⟨Obeys.bind (Obeys.attempt h.obeys)⟩

private theorem keepsTo_upsertSyncState {recordId bindingId : String}
    (h : PairShown log recordId bindingId) (value observedAt : Option String) (status : SyncStatus)
    (error : Option String) (now : String) :
    KeepsTo worker log (upsertSyncState recordId bindingId value observedAt status error now) :=
  ⟨Obeys.perform_bind h fun _ => Obeys.liftExcept (List.prefix_append _ _)⟩

private theorem keepsTo_fetchActualRecords {b : ProviderBinding} (h : BindingShown log b) :
    KeepsTo worker log (worker.fetchActualRecords b) := by
  refine ⟨?_⟩
  unfold ReconcileWorker.fetchActualRecords
  split
  · exact List.prefix_rfl
  · next hadapter =>
    refine Obeys.liftExcept_bind (fun creds hcreds => ?_) fun _ _ => List.prefix_rfl
    refine Obeys.perform_bind ⟨h, not_not.mp hadapter, hcreds⟩ fun r => ?_
    exact Obeys.liftExcept_bind (fun _ _ => List.prefix_append _ _) fun _ _ =>
      List.prefix_append _ _

variable [UnicodeData]

private theorem keepsTo_compareRecord {row : DesiredRecord} {bindingId : String}
    (h : PairShown log row.id bindingId) (now : String)
    (actual : RecordKey → Option ProviderRecord) :
    KeepsTo worker log (ReconcileWorker.compareRecord bindingId now actual row) := by
  unfold ReconcileWorker.compareRecord
  split
  · exact ⟨List.prefix_rfl⟩
  · split
    · refine ⟨Obeys.liftExcept_bind (fun _ _ => ?_) fun _ _ => List.prefix_rfl⟩
      exact (keepsTo_upsertSyncState h ..).obeys
    · exact keepsTo_upsertSyncState h ..

variable [Chrono]

private theorem keepsTo_observeOneBinding {b : ProviderBinding} (h : BindingShown log b) :
    KeepsTo worker log (worker.observeOneBinding b) := by
  refine ⟨?_⟩
  unfold ReconcileWorker.observeOneBinding
  refine Obeys.perform_bind trivial fun t => Obeys.perform_bind trivial fun r => ?_
  have hlog : log <+: (log ++ [⟨.utcNow, t⟩]) ++ [⟨.selectDesired b.id, r⟩] := by simp
  refine Obeys.liftExcept_bind (fun rows hrows => ?_) fun _ _ => hlog
  obtain rfl : r = .ok rows := hrows
  have hshown : ∀ row ∈ rows, PairShown ((log ++ [⟨.utcNow, t⟩]) ++
      [⟨.selectDesired b.id, .ok rows⟩]) row.id b.id :=
    fun row hrow => .desired (List.mem_append_right _ List.mem_cons_self) hrow rfl
  split
  · exact hlog
  · refine Obeys.bind (Obeys.attempt ((keepsTo_fetchActualRecords (h.mono hlog)).obeys.mono ?_))
    intro x log₁ h₁
    -- every outcome is written for the records of the binding's zone
    cases x with
    | error e =>
      refine (KeepsTo.forM fun row hrow log₂ h₂ => ?_).obeys.mono fun _ _ h₂ => (hlog.trans h₁).trans h₂
      exact keepsTo_upsertSyncState ((hshown row hrow).mono (h₁.trans h₂)) ..
    | ok actual =>
      refine (KeepsTo.forM fun row hrow log₂ h₂ => ?_).obeys.mono fun _ _ h₂ => (hlog.trans h₁).trans h₂
      exact keepsTo_compareRecord ((hshown row hrow).mono (h₁.trans h₂)) ..

private theorem keepsTo_processObserveBatch : KeepsTo worker log worker.processObserveBatch := by
  refine ⟨Obeys.perform_bind trivial fun r => ?_⟩
  refine Obeys.liftExcept_bind (fun bs hbs => ?_) fun _ _ => List.prefix_append _ _
  obtain rfl : r = .ok bs := hbs
  refine (KeepsTo.forM fun b hb log' hlog' => ?_).obeys.mono fun _ _ h =>
    (List.prefix_append _ _).trans h
  refine (keepsTo_observeOneBinding (.inl ⟨bs, hlog'.subset ?_, hb⟩)).ignored
  exact List.mem_append_right _ List.mem_cons_self

omit [Chrono] in
private theorem keepsTo_retryResolveEntry {entry : SyncStateFailedRow} {bindingId : String}
    (h : PairShown log entry.recordId bindingId) (now : String)
    (actual : RecordKey → Option ProviderRecord) :
    KeepsTo worker log (ReconcileWorker.retryResolveEntry bindingId now actual entry) := by
  refine ⟨?_⟩
  unfold ReconcileWorker.retryResolveEntry
  refine Obeys.perform_bind trivial fun r => ?_
  have hlog : log <+: log ++ [⟨.selectRecord entry.recordId, r⟩] := List.prefix_append _ _
  refine Obeys.liftExcept_bind (fun found _ => ?_) fun _ _ => hlog
  cases found with
  | none => exact hlog
  | some row =>
    refine Obeys.liftExcept_bind (fun desired _ => ?_) fun _ _ => hlog
    split
    · refine Obeys.liftExcept_bind (fun _ _ => ?_) fun _ _ => hlog
      exact (keepsTo_upsertSyncState (h.mono hlog) ..).obeys.mono fun _ _ h' => hlog.trans h'
    · exact (keepsTo_upsertSyncState (h.mono hlog) ..).obeys.mono fun _ _ h' => hlog.trans h'

private theorem keepsTo_retryOneBinding {rows entries : List SyncStateFailedRow} {bindingId : String}
    (hread : ⟨.selectFailed, .ok rows⟩ ∈ log)
    (hentries : ∀ entry ∈ entries, entry ∈ rows ∧ entry.providerBindingId = bindingId) :
    KeepsTo worker log (worker.retryOneBinding bindingId entries) := by
  refine ⟨?_⟩
  unfold ReconcileWorker.retryOneBinding
  refine Obeys.perform_bind trivial fun t => Obeys.perform_bind trivial fun r => ?_
  have hlog : log <+: (log ++ [⟨.utcNow, t⟩]) ++ [⟨.selectBinding bindingId, r⟩] := by simp
  refine Obeys.liftExcept_bind (fun found hfound => ?_) fun _ _ => hlog
  obtain rfl : r = .ok found := hfound
  cases found with
  | none => exact hlog
  | some b =>
    have hb : ⟨.selectBinding bindingId, .ok (some b)⟩ ∈
        (log ++ [⟨.utcNow, t⟩]) ++ [⟨.selectBinding bindingId, .ok (some b)⟩] :=
      List.mem_append_right _ List.mem_cons_self
    apply Obeys.bind
    change Obeys (syncOrigin worker)
      (((worker.fetchActualRecords b).attempt : SyncM (Except String _)) >>= _) _ _
    refine .bind (.attempt ((keepsTo_fetchActualRecords (.inr ⟨bindingId, hb⟩)).obeys.mono ?_))
    intro x log₁ h₁
    cases x with
    | error e =>
      refine (KeepsTo.forM fun entry hentry log₂ h₂ => ?_).obeys.mono fun _ _ h₂ =>
        (hlog.trans h₁).trans h₂
      obtain ⟨hmem, rfl⟩ := hentries entry hentry
      exact (keepsTo_upsertSyncState (.failed (((hlog.trans h₁).trans h₂).subset hread) hmem rfl)
        ..).ignored
    | ok actual =>
      refine (KeepsTo.forM fun entry hentry log₂ h₂ => ?_).obeys.mono fun _ _ h₂ =>
        (hlog.trans h₁).trans h₂
      obtain ⟨hmem, rfl⟩ := hentries entry hentry
      exact (keepsTo_retryResolveEntry (.found (((hlog.trans h₁).trans h₂).subset hread) hmem rfl
        ((h₁.trans h₂).subset hb)) ..).ignored

private theorem keepsTo_processRetryBatch (hash : HashOrder) :
    KeepsTo worker log (worker.processRetryBatch hash) := by
  refine ⟨Obeys.perform_bind trivial fun r => ?_⟩
  have hlog : log <+: log ++ [⟨.selectFailed, r⟩] := List.prefix_append _ _
  refine Obeys.liftExcept_bind (fun rows hrows => ?_) fun _ _ => hlog
  obtain rfl : r = .ok rows := hrows
  split
  · exact hlog
  · refine Obeys.perform_bind trivial fun t => ?_
    refine (KeepsTo.forM fun bindingId _ log₁ h₁ => ?_).obeys.mono fun _ _ h₁ =>
      (hlog.trans (List.prefix_append _ _)).trans h₁
    have hread : ⟨.selectFailed, .ok rows⟩ ∈ log₁ := h₁.subset
      (List.mem_append_left _ (List.mem_append_right _ List.mem_cons_self))
    refine (keepsTo_retryOneBinding hread fun entry hentry => ?_).ignored
    obtain ⟨hdue, hid⟩ := List.mem_filter.mp hentry
    exact ⟨(List.mem_filter.mp hdue).1, of_decide_eq_true hid⟩

variable (worker)

/-- A command of a synchronisation loop: its origin was shown, and it follows from what was read. -/
structure SyncAllowed (log : SyncLog) (c : SyncCmd) : Prop where
  origin : SyncAllows worker log c
  justified : (passMonitor worker).allows ((passMonitor worker).read log) c

/-- A loop over passes is allowed all its commands. -/
private theorem obeys_loop {α : Type} {xs : List α} {pass : α → SyncM Unit}
    (horigin : ∀ x log, KeepsTo worker log (pass x))
    (hjustified : ∀ x σ, Obeys (passMonitor worker) (pass x) σ fun _ _ => True) :
    Obeys (Prog.recorder (SyncAllowed worker)) (forM xs fun x => (pass x).turn) []
      fun _ _ => True := by
  have hloop : Obeys (passMonitor worker) (forM xs fun x => (pass x).turn)
      ((passMonitor worker).read []) fun _ _ => True :=
    Obeys.forM (fun _ => True) trivial fun x _ σ _ => .bind (.attempt (hjustified x σ))
  have hkeeps : KeepsTo worker [] (forM xs fun x => (pass x).turn) :=
    .forM fun x _ log _ => (horigin x log).ignored
  exact (hkeeps.obeys.both hloop.recorded).allowing fun _ _ h => ⟨h.1, h.2⟩

theorem obeys_runObserveLoop_allowed (ticks : Nat) :
    Obeys (Prog.recorder (SyncAllowed worker)) (worker.runObserveLoop ticks) [] fun _ _ => True :=
  obeys_loop worker (fun _ _ => keepsTo_processObserveBatch) fun _ _ => obeys_processObserveBatch

theorem obeys_runRetryLoop_allowed (orders : List HashOrder) :
    Obeys (Prog.recorder (SyncAllowed worker)) (worker.runRetryLoop orders) [] fun _ _ => True :=
  obeys_loop worker (fun hash _ => keepsTo_processRetryBatch hash)
    fun hash _ => obeys_processRetryBatch hash

end Worker

end DnsManager
