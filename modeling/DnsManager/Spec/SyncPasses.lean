import DnsManager.ForStd.Pool
import DnsManager.Spec.ObserveCorrect
import DnsManager.Worker.Retry

/-!
# What the observe and the retry pass may do

Both passes walk over bindings: they take the time, list the binding, and write the outcome for
some records. `PassState` is what a pass has read so far. The monitor `passMonitor` lets a pass
list only a binding it has read, once after it has taken the time, and write only a row that
follows from what it has read. Any number of the two passes obey it in any order.
-/

namespace DnsManager

open Prog (Event Monitor Obeys Pool liftExcept)

/-- An event of a run of passes. -/
abbrev SyncEvent := Event SyncCmd SyncCmd.Reply

/-- A listing of a binding's zone, with the reply. -/
structure Listing where
  binding : ProviderBinding
  creds : Credentials
  reply : Except ProviderError (List ProviderRecord)
deriving DecidableEq

/-- What a pass has read: the bindings and records so far, with the ids they are used under, and
    since it last took the time that time and the listing. -/
structure PassState where
  bindings : List (String × ProviderBinding) := []
  records : List (String × DesiredRecord) := []
  instant : Option Int := none
  listing : Option Listing := none

/-- The state after a command and its reply. -/
def PassState.next (σ : PassState) : (c : SyncCmd) → c.Reply → PassState
  | .utcNow, t => { σ with instant := some t, listing := none }
  | .selectActive, .ok bindings =>
    { σ with bindings := σ.bindings ++ bindings.map fun b => (b.id, b) }
  | .selectActive, .error _ => σ
  | .selectDesired _, .ok records =>
    { σ with records := σ.records ++ records.map fun r => (r.id, r) }
  | .selectDesired _, .error _ => σ
  | .selectFailed, _ => σ
  | .selectBinding id, .ok (some binding) =>
    { σ with bindings := σ.bindings ++ [(id, binding), (binding.id, binding)] }
  | .selectBinding _, .ok none => σ
  | .selectBinding _, .error _ => σ
  | .selectRecord id, .ok (some record) => { σ with records := σ.records ++ [(id, record)] }
  | .selectRecord _, .ok none => σ
  | .selectRecord _, .error _ => σ
  | .listRecords binding creds, reply => { σ with listing := some ⟨binding, creds, reply⟩ }
  | .upsertSyncState _, _ => σ

/-- Only the clock changes the time a pass writes by, and only the clock and a listing the listing. -/
theorem PassState.next_keeps (σ : PassState) {c : SyncCmd} (r : c.Reply) (hclock : c ≠ .utcNow) :
    (σ.next c r).instant = σ.instant ∧
      ((∀ b creds, c ≠ .listRecords b creds) → (σ.next c r).listing = σ.listing) := by
  cases c with
  | utcNow => exact absurd rfl hclock
  | listRecords b creds => exact ⟨rfl, fun hlisting => absurd rfl (hlisting b creds)⟩
  | selectActive => cases r <;> exact ⟨rfl, fun _ => rfl⟩
  | selectDesired bindingId => cases r <;> exact ⟨rfl, fun _ => rfl⟩
  | selectFailed => exact ⟨rfl, fun _ => rfl⟩
  | selectBinding id =>
    cases r with
    | error e => exact ⟨rfl, fun _ => rfl⟩
    | ok found => cases found <;> exact ⟨rfl, fun _ => rfl⟩
  | selectRecord id =>
    cases r with
    | error e => exact ⟨rfl, fun _ => rfl⟩
    | ok found => cases found <;> exact ⟨rfl, fun _ => rfl⟩
  | upsertSyncState row => exact ⟨rfl, fun _ => rfl⟩

/-- What pass `i` has read when the events of the log have happened. -/
def passAfter (i : Nat) (log : List SyncEvent) : PassState :=
  log.foldl (fun σ e => if e.thread = i then σ.next e.cmd e.reply else σ) {}

theorem passAfter_concat (i : Nat) (log : List SyncEvent) (e : SyncEvent) :
    passAfter i (log ++ [e]) =
      if e.thread = i then (passAfter i log).next e.cmd e.reply else passAfter i log := by
  simp only [passAfter, List.foldl_append, List.foldl_cons, List.foldl_nil]

/-- `σ'` has read more than `σ`, after the same listing. -/
structure PassState.Extends (σ σ' : PassState) : Prop where
  bindings : σ.bindings ⊆ σ'.bindings
  records : σ.records ⊆ σ'.records
  instant : σ'.instant = σ.instant
  listing : σ'.listing = σ.listing

theorem PassState.Extends.refl (σ : PassState) : σ.Extends σ :=
  ⟨List.Subset.refl _, List.Subset.refl _, rfl, rfl⟩

theorem PassState.Extends.trans {σ₁ σ₂ σ₃ : PassState} (h : σ₁.Extends σ₂) (h' : σ₂.Extends σ₃) :
    σ₁.Extends σ₃ :=
  ⟨List.Subset.trans h.bindings h'.bindings, List.Subset.trans h.records h'.records,
    h'.instant.trans h.instant, h'.listing.trans h.listing⟩

section Worker

variable [CryptoLib] [SerdeJson] [UnicodeData] [Chrono] (worker : ReconcileWorker)

/-- What `fetch_actual_records` makes of the reply to a listing. -/
def Listing.fetched (ℓ : Listing) : Except String (RecordKey → Option ProviderRecord) :=
  (ℓ.reply.mapError fun e => s!"list_records failed: {e.display}").map actualMap

/-- What `fetch_actual_records` can have returned for a binding, given the listing since the
    time was taken. -/
inductive Fetched (binding : ProviderBinding) :
    Option Listing → Except String (RecordKey → Option ProviderRecord) → Prop
  | noAdapter (hadapter : binding.providerType ∉ worker.adapters) :
    Fetched binding none
      (.error s!"no adapter registered for provider type '{binding.providerType}'")
  | noCredentials {e : String}
    (hcreds : worker.decryptCredentials binding.credentialsBlob binding.credentialsDek = .error e) :
    Fetched binding none (.error e)
  | listed (creds : Credentials) (reply : Except ProviderError (List ProviderRecord)) :
    Fetched binding (some ⟨binding, creds, reply⟩) (Listing.fetched ⟨binding, creds, reply⟩)

/-- The row follows from what the pass has read. -/
inductive PassState.Justifies (σ : PassState) : SyncState → Prop
  /-- The fetch failed. -/
  | failed {bindingId : String} {binding : ProviderBinding} {t : Int} {e : String}
    (recordId : String) (hbinding : (bindingId, binding) ∈ σ.bindings)
    (hinstant : σ.instant = some t) (hfetched : Fetched worker binding σ.listing (.error e)) :
    Justifies σ
      ((Observation.mk none .syncFailed (some e)).row recordId bindingId (Chrono.toRfc3339 t))
  /-- The record was compared with what was fetched. -/
  | compared {bindingId recordId : String} {binding : ProviderBinding} {t : Int}
    {actual : RecordKey → Option ProviderRecord} {record : DesiredRecord} {o : Observation}
    (hbinding : (bindingId, binding) ∈ σ.bindings) (hinstant : σ.instant = some t)
    (hfetched : Fetched worker binding σ.listing (.ok actual))
    (hrecord : (recordId, record) ∈ σ.records) (hobserved : observation (.ok actual) record = some o)
    (hvalue : o.status = .inSync → o.value.isSome) :
    Justifies σ (o.row recordId bindingId (Chrono.toRfc3339 t))

/-- A pass may list a binding it has read and can decrypt, once after it has taken the time. -/
structure PassState.MayList (σ : PassState) (binding : ProviderBinding) (creds : Credentials) :
    Prop where
  read : ∃ bindingId, (bindingId, binding) ∈ σ.bindings
  adapter : binding.providerType ∈ worker.adapters
  creds : worker.decryptCredentials binding.credentialsBlob binding.credentialsDek = .ok creds
  instant : σ.instant.isSome
  listing : σ.listing = none

/-- What a pass may do. -/
def passMonitor : Monitor SyncCmd SyncCmd.Reply where
  State := PassState
  init := {}
  allows
    | σ, .listRecords binding creds => σ.MayList worker binding creds
    | σ, .upsertSyncState row => σ.Justifies worker row
    | _, _ => True
  next := PassState.next

/-! ## The passes obey the monitor -/

variable {worker}

/-- `upsert_sync_state` of a row that follows from what was read. -/
private theorem obeys_upsertSyncState {recordId bindingId now : String} (o : Observation)
    {σ : PassState} {Q : Except String Unit → PassState → Prop}
    (hrow : σ.Justifies worker (o.row recordId bindingId now)) (hQ : ∀ x, Q x σ) :
    Obeys (passMonitor worker)
      (upsertSyncState recordId bindingId o.value (some now) o.status o.error now) σ Q :=
  .perform_bind hrow fun _ => .liftExcept (hQ _)

/-- A fetch lists the binding at most once, and returns what its reply says. -/
private theorem obeys_fetchActualRecords {bindingId : String} {binding : ProviderBinding}
    {σ : PassState} (hbinding : (bindingId, binding) ∈ σ.bindings) (hinstant : σ.instant.isSome)
    (hlisting : σ.listing = none) :
    Obeys (passMonitor worker) (worker.fetchActualRecords binding) σ fun x (σ' : PassState) =>
      Fetched worker binding σ'.listing x ∧ σ'.bindings = σ.bindings ∧
        σ'.records = σ.records ∧ σ'.instant = σ.instant := by
  unfold ReconcileWorker.fetchActualRecords
  split
  · next hadapter =>
    refine ⟨?_, rfl, rfl, rfl⟩
    rw [hlisting]
    exact .noAdapter hadapter
  · next hadapter =>
    apply Obeys.liftExcept_bind
    · intro creds hcreds
      have hlist : σ.MayList worker binding creds :=
        ⟨⟨_, hbinding⟩, not_not.mp hadapter, hcreds, hinstant, hlisting⟩
      -- the reply is the listing of the state from here on
      refine .perform_bind hlist fun reply => ?_
      cases reply with
      | ok records => exact ⟨.listed creds (.ok records), rfl, rfl, rfl⟩
      | error e => exact ⟨.listed creds (.error e), rfl, rfl, rfl⟩
    · intro e hcreds
      refine ⟨?_, rfl, rfl, rfl⟩
      rw [hlisting]
      exact .noCredentials hcreds

/-- The comparison of a record that was read, under the id it was read under. -/
private theorem obeys_comparison {bindingId recordId : String} {binding : ProviderBinding} {t : Int}
    {actual : RecordKey → Option ProviderRecord} {record : DesiredRecord} {σ : PassState}
    (hbinding : (bindingId, binding) ∈ σ.bindings) (hinstant : σ.instant = some t)
    (hfetched : Fetched worker binding σ.listing (.ok actual))
    (hrecord : (recordId, record) ∈ σ.records) {desired : ProviderRecord}
    (hparse : parseDesiredRecord record = .ok desired) (failure : String → String) :
    Obeys (passMonitor worker)
      (match actual desired.key with
        | some actualRecord => do
          let json ← liftExcept ((SerdeJson.recordToString actualRecord).mapError failure)
          let status := if diff actualRecord desired then .drift else .inSync
          upsertSyncState recordId bindingId (some json) (some (Chrono.toRfc3339 t)) status none
            (Chrono.toRfc3339 t)
        | none => upsertSyncState recordId bindingId none (some (Chrono.toRfc3339 t)) .drift none
            (Chrono.toRfc3339 t)) σ fun _ σ' => σ' = σ := by
  -- either write is the observation of the record in what was fetched
  cases hactual : actual desired.key with
  | none =>
    have hobserved : observation (.ok actual) record = some ⟨none, .drift, none⟩ := by
      simp only [observation, hparse, hactual]
    exact obeys_upsertSyncState ⟨none, .drift, none⟩
      (.compared hbinding hinstant hfetched hrecord hobserved nofun) fun _ => rfl
  | some r =>
    apply Obeys.liftExcept_bind
    · intro json hjson
      have hobserved : observation (.ok actual) record =
          some ⟨some json, if diff r desired then .drift else .inSync, none⟩ := by
        cases htext : SerdeJson.recordToString r with
        | error e =>
          rw [htext] at hjson
          cases hjson
        | ok text =>
          rw [htext] at hjson
          cases hjson
          simp only [observation, hparse, hactual, htext, Except.toOption]
      exact obeys_upsertSyncState ⟨some json, if diff r desired then .drift else .inSync, none⟩
        (.compared hbinding hinstant hfetched hrecord hobserved fun _ => rfl) fun _ => rfl
    · exact fun _ _ => rfl

/-- An observe pass over a binding it has read. -/
private theorem obeys_observeOneBinding {binding : ProviderBinding} {σ : PassState}
    (hbinding : (binding.id, binding) ∈ σ.bindings) :
    Obeys (passMonitor worker) (worker.observeOneBinding binding) σ
      fun _ (σ' : PassState) => σ.bindings ⊆ σ'.bindings := by
  unfold ReconcileWorker.observeOneBinding
  refine .perform_bind trivial fun t => .perform_bind trivial fun reply => ?_
  apply Obeys.liftExcept_bind
  · intro rows hrows
    obtain rfl : reply = .ok rows := hrows
    split
    · exact List.Subset.refl _
    have hfetch : Obeys (passMonitor worker) (worker.fetchActualRecords binding)
        ((σ.next .utcNow t).next (.selectDesired binding.id) (.ok rows)) _ :=
      obeys_fetchActualRecords hbinding rfl rfl
    refine .bind (.attempt (hfetch.mono ?_))
    rintro fetched σ₁ ⟨hfetched, hbindings, hrecords, hinstant⟩
    -- the fetch leaves what the pass has read, so every round of the loops starts alike
    have hsubset : σ.bindings ⊆ σ₁.bindings := by
      rw [hbindings]
      exact List.Subset.refl _
    cases fetched with
    | error e =>
      refine (Obeys.forM (· = σ₁) rfl fun row _ σ₂ hσ₂ => ?_).mono fun _ _ h => h ▸ hsubset
      subst hσ₂
      exact obeys_upsertSyncState ⟨none, .syncFailed, some e⟩
        (.failed _ (hsubset hbinding) hinstant hfetched) fun _ => rfl
    | ok actual =>
      refine (Obeys.forM (· = σ₁) rfl fun row hrow σ₂ hσ₂ => ?_).mono fun _ _ h => h ▸ hsubset
      subst hσ₂
      unfold ReconcileWorker.compareRecord
      cases hparse : parseDesiredRecord row with
      | error e => exact rfl
      | ok desired =>
        refine obeys_comparison (hsubset hbinding) hinstant hfetched ?_ hparse _
        rw [hrecords]
        exact List.mem_append_right _ (List.mem_map_of_mem hrow)
  · -- the records could not be read: nothing is written
    intro e he
    obtain rfl : reply = .error e := he
    exact List.Subset.refl _

/-- The observe pass, whatever was read before. -/
theorem obeys_processObserveBatch {σ : PassState} :
    Obeys (passMonitor worker) worker.processObserveBatch σ fun _ _ => True := by
  unfold ReconcileWorker.processObserveBatch
  refine .perform_bind trivial fun reply => ?_
  apply Obeys.liftExcept_bind
  · intro bindings hbindings
    obtain rfl : reply = .ok bindings := hbindings
    -- the bindings stay read while the loop goes on
    have hstart : ∀ binding ∈ bindings, (binding.id, binding) ∈
        (σ.next .selectActive (.ok bindings)).bindings :=
      fun binding hb => List.mem_append_right _ (List.mem_map_of_mem hb)
    refine (Obeys.forM (fun σ : PassState => ∀ binding ∈ bindings, (binding.id, binding) ∈ σ.bindings)
      hstart fun binding hbinding σ hσ => ?_).mono fun _ _ _ => trivial
    exact .bind (.attempt ((obeys_observeOneBinding (hσ binding hbinding)).mono
      fun _ _ hsubset b hb => hsubset (hσ b hb)))
  · exact fun _ _ => trivial

/-- The resolution of an entry. -/
private theorem obeys_retryResolveEntry {bindingId : String} {binding : ProviderBinding} {t : Int}
    {actual : RecordKey → Option ProviderRecord} {σ : PassState}
    (hbinding : (bindingId, binding) ∈ σ.bindings) (hinstant : σ.instant = some t)
    (hfetched : Fetched worker binding σ.listing (.ok actual)) (entry : SyncStateFailedRow) :
    Obeys (passMonitor worker)
      (ReconcileWorker.retryResolveEntry bindingId (Chrono.toRfc3339 t) actual entry) σ
      fun _ σ' => σ.Extends σ' := by
  unfold ReconcileWorker.retryResolveEntry
  refine .perform_bind trivial fun reply => ?_
  apply Obeys.liftExcept_bind
  · intro found hfound
    obtain rfl : reply = .ok found := hfound
    cases found with
    -- the record has gone since the failed rows were read
    | none => exact .refl _
    | some record =>
      have hextends : σ.Extends (σ.next (.selectRecord entry.recordId) (.ok (some record))) :=
        ⟨List.Subset.refl _, List.subset_append_left _ _, rfl, rfl⟩
      have hrecord : (entry.recordId, record) ∈
          (σ.next (.selectRecord entry.recordId) (.ok (some record))).records :=
        List.mem_append_right _ List.mem_cons_self
      apply Obeys.liftExcept_bind
      · intro desired hparse
        exact (obeys_comparison (hextends.bindings hbinding) hinstant hfetched hrecord hparse _).mono
          fun _ _ h => h ▸ hextends
      · exact fun _ _ => hextends
  · intro e he
    obtain rfl : reply = .error e := he
    exact .refl _

/-- The retry pass over the entries of one binding. -/
private theorem obeys_retryOneBinding (bindingId : String) (entries : List SyncStateFailedRow)
    (σ : PassState) :
    Obeys (passMonitor worker) (worker.retryOneBinding bindingId entries) σ fun _ _ => True := by
  unfold ReconcileWorker.retryOneBinding
  refine .perform_bind trivial fun t => .perform_bind trivial fun reply => ?_
  apply Obeys.liftExcept_bind
  · intro found hfound
    obtain rfl : reply = .ok found := hfound
    cases found with
    | none => trivial
    | some binding =>
      have hfetch : Obeys (passMonitor worker) (worker.fetchActualRecords binding)
          ((σ.next .utcNow t).next (.selectBinding bindingId) (.ok (some binding))) _ :=
        obeys_fetchActualRecords (List.mem_append_right _ List.mem_cons_self) rfl rfl
      apply Obeys.bind
      change Obeys (passMonitor worker)
        (((worker.fetchActualRecords binding).attempt : SyncM (Except String _)) >>= _) _ _
      refine .bind (.attempt (hfetch.mono ?_))
      rintro fetched σ₁ ⟨hfetched, hbindings, -, hinstant⟩
      have hread : ∀ id ∈ [bindingId, binding.id], (id, binding) ∈ σ₁.bindings := by
        intro id hid
        rw [hbindings]
        exact List.mem_append_right _ (by simpa using hid)
      -- the entries are handled with the same listing, and more records are read
      cases fetched with
      | error e =>
        refine (Obeys.forM (· = σ₁) rfl fun entry _ σ₂ hσ₂ => ?_).mono fun _ _ _ => trivial
        subst hσ₂
        exact .bind (.attempt (obeys_upsertSyncState ⟨none, .syncFailed, some e⟩
          (.failed _ (hread _ List.mem_cons_self) hinstant hfetched) fun _ => rfl))
      | ok actual =>
        refine (Obeys.forM (σ₁.Extends ·) (.refl _) fun entry _ σ₂ hσ₂ => ?_).mono
          fun _ _ _ => trivial
        have hbinding₂ : (binding.id, binding) ∈ σ₂.bindings :=
          hσ₂.bindings (hread _ (List.mem_cons_of_mem _ List.mem_cons_self))
        have hfetched₂ : Fetched worker binding σ₂.listing (.ok actual) := by
          rw [hσ₂.listing]
          exact hfetched
        exact .bind (.attempt ((obeys_retryResolveEntry hbinding₂ (hσ₂.instant.trans hinstant)
          hfetched₂ entry).mono fun _ _ h => hσ₂.trans h))
  · exact fun _ _ => trivial

/-- The retry pass, whatever was read before. -/
theorem obeys_processRetryBatch (hash : HashOrder) {σ : PassState} :
    Obeys (passMonitor worker) (worker.processRetryBatch hash) σ fun _ _ => True := by
  unfold ReconcileWorker.processRetryBatch
  refine .perform_bind trivial fun reply => ?_
  apply Obeys.liftExcept_bind
  · intro rows _
    split
    · trivial
    · refine .perform_bind trivial fun t => ?_
      refine Obeys.forM (fun _ => True) trivial fun bindingId _ σ _ => ?_
      exact .bind (.attempt (obeys_retryOneBinding _ _ σ))
  · exact fun _ _ => trivial

/-! ## Runs of passes -/

variable (worker)

/-- One pass of one of the two loops. -/
inductive SyncPass where
  | observe
  | retry (hash : HashOrder)

/-- The program of a pass. -/
def SyncPass.program : SyncPass → SyncM Unit
  | observe => worker.processObserveBatch
  | retry hash => worker.processRetryBatch hash

/-- Passes over the same database, none of which has started. -/
def syncPool (w : SyncWorld) (passes : List SyncPass) : Pool SyncCmd SyncCmd.Reply SyncWorld where
  state := w
  threads := passes.map fun pass => (pass.program worker).detach

/-- A pool of passes obeys the monitor from its start. -/
theorem syncPool_invariant {I : SyncWorld → List SyncEvent → Prop} {w : SyncWorld} (hI : I w [])
    (passes : List SyncPass) : Pool.Invariant (passMonitor worker) I (syncPool worker w passes) := by
  apply Pool.Invariant.start hI
  intro t ht
  obtain ⟨pass, -, rfl⟩ := List.mem_map.mp ht
  cases pass with
  | observe => exact obeys_processObserveBatch.detach
  | retry hash => exact (obeys_processRetryBatch hash).detach

end Worker

end DnsManager
