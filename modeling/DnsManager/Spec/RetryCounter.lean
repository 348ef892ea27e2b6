import DnsManager.Spec.RetryPass

/-!
# The counters of a retry pass

A retry pass adds one to the counter of each entry whose fetch has failed. At the largest i64 the
addition panics in a build with overflow checks, before the row is written, and the pass ends
there. In another build it wraps, which only a log line shows, and the row is left with a counter
that is no i64. Where the pass comes to no such counter it does what `processRetryBatch` does.

## Key results
- `guardsAt_processRetryBatch`: where the pass with its counters is that without them.
- `processRetryBatchOrPanic_panics_iff`: when it panics.
- `processRetryBatch_spec_iff`: when it fetches and writes what a retry pass has to.
-/

namespace DnsManager

open Prog (GuardsAt handleCalls lift turn visits)

section Worker

variable [CryptoLib] [SerdeJson] [UnicodeData] [Chrono] (worker : ReconcileWorker)

/-! ## Where the additions can be made -/

omit [CryptoLib] [SerdeJson] [UnicodeData] [Chrono] in
/-- The addition panics where its sum is no i64, if there are checks. -/
private theorem guardsAt_nextCount_bind {S : Type}
    {h : (x : SyncCmd ⊕ ProviderBinding) → S → Prog.CallReply SyncCmd.Reply String
      (RecordKey → Option ProviderRecord) x × S} {p : FetchProg (Stop String) Unit}
    {q : FetchProg String Unit} {s : S} (hp : GuardsAt h p q s True) (overflowChecks : Bool)
    (retryCount : Int) :
    GuardsAt h (nextCount overflowChecks retryCount >>= fun _ => p) q s
      (overflowChecks = true → InI64 (retryCount + 1)) := by
  unfold nextCount
  split
  · next hfits => exact hp.congr (iff_of_true trivial fun _ => hfits)
  · next hnot =>
    cases overflowChecks with
    | false => exact hp.congr (iff_of_true trivial nofun)
    | true =>
      exact ⟨fun hsafe => absurd (hsafe rfl) hnot, fun hsafe => absurd (hsafe rfl) hnot, fun _ => rfl⟩

/-- A turn is safe when its fetch ends well or its entries can be counted on. -/
private theorem guardsAt_retryOneBinding {env : SyncEnv} (henv : env.Reliable) {w : SyncWorld}
    {binding : ProviderBinding} (hb : binding ∈ w.db.bindings) (overflowChecks : Bool)
    (entries : List SyncStateFailedRow) :
    GuardsAt (handleCalls (handleSync env) worker.fetchActualRecords)
      (retryOneBindingOrPanic overflowChecks binding.id entries)
      (retryOneBindingCalls binding.id entries) w
      (∀ e, worker.fetched env w.listings binding = .error e → ∀ entry ∈ entries,
        overflowChecks = true → InI64 (entry.retryCount + 1)) := by
  have hselect : (lift (SyncCmd.issue (.selectBinding binding.id)) : FetchProg String _).run
      (handleCalls (handleSync env) worker.fetchActualRecords)
      { w with readings := w.readings + 1 } =
      (.ok (.ok (some binding)), { w with readings := w.readings + 1, queries := w.queries + 1 }) := by
    rw [Prog.run_lift, run_syncIssue]
    simp only [handleSync, henv.query, Table.find?_eq_some.mpr ⟨hb, rfl⟩]
  unfold retryOneBindingOrPanic retryOneBindingCalls
  refine GuardsAt.noPanic_bind (Prog.run_lift ..) ?_
  refine GuardsAt.noPanic_bind hselect (GuardsAt.noPanic_bind (Prog.run_liftExcept ..) ?_)
  refine GuardsAt.invoke_bind binding ?_
  rw [run_fetchActualRecords]
  cases worker.fetched env w.listings binding with
  | ok actual =>
    refine (GuardsAt.forM (fun _ => True) fun v _ => (GuardsAt.noPanic _ _).turn).congr ?_
    refine iff_of_true (fun _ _ => trivial) fun e he => ?_
    cases he
  | error providerErr =>
    refine (GuardsAt.forM (fun entry => overflowChecks = true → InI64 (entry.retryCount + 1))
      fun v _ => guardsAt_nextCount_bind (GuardsAt.noPanic _ _).turn ..).congr ?_
    exact ⟨fun hall e _ => hall, fun hall => hall providerErr rfl⟩

/-- The counters of the rows that fail again can be increased. -/
def ReconcileWorker.CountsOn (overflowChecks : Bool) (hash : HashOrder) (env : SyncEnv)
    (w : SyncWorld) : Prop :=
  ∀ binding ∈ w.db.retryTurns hash (env.now w.readings), ∀ e,
    worker.retryOutcome hash env w binding = .error e →
      ∀ entry ∈ w.db.dueOf (env.now w.readings) binding.id,
        overflowChecks = true → InI64 (entry.retryCount + 1)

/-- The pass is safe when all these counters can be increased. -/
theorem guardsAt_processRetryBatch (hjson : ∀ r, ∃ text, SerdeJson.recordToString r = .ok text)
    {env : SyncEnv} (henv : env.Reliable) (overflowChecks : Bool) (hash : HashOrder)
    (w : SyncWorld) :
    GuardsAt (handleCalls (handleSync env) worker.fetchActualRecords)
      (processRetryBatchOrPanic overflowChecks hash) (processRetryBatchCalls hash) w
      (worker.CountsOn overflowChecks hash env w) := by
  unfold processRetryBatchOrPanic processRetryBatchCalls
  have hselect : (lift (SyncCmd.issue .selectFailed) : FetchProg String _).run
      (handleCalls (handleSync env) worker.fetchActualRecords) w =
      (.ok (.ok w.db.failedRows), { w with queries := w.queries + 1 }) := by
    rw [Prog.run_lift, run_syncIssue]
    simp only [handleSync, henv.query]
  refine GuardsAt.noPanic_bind hselect (GuardsAt.noPanic_bind (Prog.run_liftExcept ..) ?_)
  cases hempty : w.db.failedRows.isEmpty with
  | true =>
    have hnone := Database.retryTurns_eq_nil hash (env.now w.readings) hempty
    refine (GuardsAt.noPanic (pure ()) _).congr (iff_of_true trivial fun binding hb => ?_)
    rw [hnone] at hb
    cases hb
  | false =>
    refine GuardsAt.noPanic_bind (Prog.run_lift ..) ?_
    simp only [handleSync, SyncWorld.retryStart_of_failed hempty]
    have hids := w.db.forM_retryTurns hash (env.now w.readings) fun bindingId =>
      turn (retryOneBindingCalls bindingId (w.db.dueOf (env.now w.readings) bindingId))
    have hids' := w.db.forM_retryTurns hash (env.now w.readings) fun bindingId =>
      (retryOneBindingOrPanic overflowChecks bindingId
        (w.db.dueOf (env.now w.readings) bindingId)).turnOrPanic
    -- the turns are those of the pass itself
    have hvisits : visits (handleCalls (handleSync env) worker.fetchActualRecords)
        (fun binding => turn (retryOneBindingCalls binding.id
          (w.db.dueOf (env.now w.readings) binding.id)))
        (w.db.retryTurns hash (env.now w.readings)) w.retryStart =
        turnVisits env (worker.retryTurn w.db (env.now w.readings))
          (w.db.retryTurns hash (env.now w.readings)) w.retryStart := by
      rw [← Prog.visits_inline]
      simp only [Prog.inline_turn, inline_retryOneBindingCalls]
      rfl
    suffices hloop : GuardsAt (handleCalls (handleSync env) worker.fetchActualRecords)
        (forM (w.db.retryTurns hash (env.now w.readings)) fun binding =>
          (retryOneBindingOrPanic overflowChecks binding.id
            (w.db.dueOf (env.now w.readings) binding.id)).turnOrPanic)
        (forM (w.db.retryTurns hash (env.now w.readings)) fun binding =>
          turn (retryOneBindingCalls binding.id (w.db.dueOf (env.now w.readings) binding.id)))
        w.retryStart (worker.CountsOn overflowChecks hash env w) by
      rw [← hids, ← hids'] at hloop
      exact hloop
    refine GuardsAt.forM _ fun v hv => ?_
    rw [hvisits] at hv
    obtain ⟨hrows, -⟩ := find?_processRetryBatch worker hjson henv hash w
    have hb : v.1 ∈ v.2.db.bindings := by
      rw [(hrows v hv).1.bindings]
      exact (Database.mem_retryTurns.mp (fst_mem_of_turnVisit hv)).1
    refine (guardsAt_retryOneBinding worker henv hb overflowChecks _).turn.congr ?_
    rw [fetched_of_turnVisit worker hjson henv hv]
    simp only [Except.map_eq_error]

/-! ## The pass with its counters -/

/-- `process_retry_batch` with its counters, the fetches in line. -/
def ReconcileWorker.retryPass (overflowChecks : Bool) (hash : HashOrder) :
    Prog SyncCmd SyncCmd.Reply (Stop String) Unit :=
  (processRetryBatchOrPanic overflowChecks hash).inline worker.fetchActualRecords

/-- How the pass ends, and what it leaves. -/
def ReconcileWorker.retried (overflowChecks : Bool) (hash : HashOrder) (env : SyncEnv)
    (w : SyncWorld) : Except (Stop String) Unit × SyncWorld :=
  (worker.retryPass overflowChecks hash).run (handleSync env) w

/-- No row that fails again has the largest i64 as its counter. -/
def ReconcileWorker.Countable (hash : HashOrder) (env : SyncEnv) (w : SyncWorld) : Prop :=
  ∀ binding ∈ w.db.bindings, ∀ s ∈ w.db.syncStates, s.providerBindingId = binding.id →
    s.status = .syncFailed → s.Due (env.now w.readings) → s.retryCount = 9223372036854775807 →
      ∃ records, worker.retryOutcome hash env w binding = .ok records

section Pass

variable {worker} {overflowChecks : Bool} {hash : HashOrder} {env : SyncEnv} {w : SyncWorld}

omit [UnicodeData] in
theorem ReconcileWorker.Countable.inI64_succ (hcountable : worker.Countable hash env w)
    (hcounts : ∀ s ∈ w.db.syncStates, InI64 s.retryCount) {binding : ProviderBinding}
    (hb : binding ∈ w.db.bindings) {s : SyncState} (hs : s ∈ w.db.syncStates)
    (hbinding : s.providerBindingId = binding.id) (hfailed : s.status = .syncFailed)
    (hdue : s.Due (env.now w.readings)) {e : String}
    (houtcome : worker.retryOutcome hash env w binding = .error e) : InI64 (s.retryCount + 1) := by
  have hcount := hcounts s hs
  have hne : s.retryCount ≠ 9223372036854775807 := by
    intro hmax
    obtain ⟨records, hrecords⟩ := hcountable binding hb s hs hbinding hfailed hdue hmax
    rw [houtcome] at hrecords
    cases hrecords
  unfold InI64 at hcount ⊢
  omega

omit [UnicodeData] in
/-- From a table of i64 counters, only the largest cannot be increased. -/
theorem countsOn_iff (hcounts : ∀ s ∈ w.db.syncStates, InI64 s.retryCount) :
    worker.CountsOn overflowChecks hash env w ↔
      (overflowChecks = true → worker.Countable hash env w) := by
  constructor
  · intro hcounted hchecks binding hb s hs hbinding hfailed hdue hmax
    have hdueRow := Database.mem_dueRows.mpr ⟨s, hs, hfailed, hdue, rfl⟩
    cases houtcome : worker.retryOutcome hash env w binding with
    | ok records => exact ⟨records, rfl⟩
    | error e =>
      have hnext : InI64 (s.retryCount + 1) := hcounted binding
        (Database.mem_retryTurns.mpr ⟨hb, _, hdueRow, hbinding⟩) e houtcome (.ofState s)
        (List.mem_filter.mpr ⟨hdueRow, decide_eq_true hbinding⟩) hchecks
      unfold InI64 at hnext
      omega
  · intro hcountable binding hturn e houtcome entry hentry hchecks
    obtain ⟨hentry, hid⟩ := List.mem_filter.mp hentry
    obtain ⟨s, hs, hfailed, hdue, rfl⟩ := Database.mem_dueRows.mp hentry
    exact (hcountable hchecks).inI64_succ hcounts (Database.mem_retryTurns.mp hturn).1 hs
      (of_decide_eq_true hid) hfailed hdue houtcome

variable (hjson : ∀ r, ∃ text, SerdeJson.recordToString r = .ok text) (henv : env.Reliable)
include hjson henv

/-- Where the counters can be increased, the pass is that without them. -/
theorem retried_of_countsOn (hcounted : worker.CountsOn overflowChecks hash env w) :
    worker.retried overflowChecks hash env w =
      (.ok (), ((worker.processRetryBatch hash).run (handleSync env) w).2) := by
  unfold ReconcileWorker.retried ReconcileWorker.retryPass
  rw [Prog.run_inline,
    (guardsAt_processRetryBatch worker hjson henv overflowChecks hash w).run hcounted,
    ← Prog.run_inline, inline_processRetryBatchCalls, run_processRetryBatch worker henv]
  rfl

theorem fetches_of_countsOn (hcounted : worker.CountsOn overflowChecks hash env w) :
    worker.fetches (processRetryBatchOrPanic overflowChecks hash) env w =
      worker.retryFetches hash env w := by
  unfold ReconcileWorker.fetches
  rw [(guardsAt_processRetryBatch worker hjson henv overflowChecks hash w).events hcounted]
  exact fetches_processRetryBatchCalls worker hjson henv hash w

theorem upserts_of_countsOn (hcounted : worker.CountsOn overflowChecks hash env w) :
    upserts env (worker.retryPass overflowChecks hash) w = worker.retryWrites hash env w := by
  have hfetch := upserts_fetchActualRecords worker env
  unfold upserts ReconcileWorker.retryPass
  rw [Prog.filterMap_events_inline _ _ hfetch,
    (guardsAt_processRetryBatch worker hjson henv overflowChecks hash w).events hcounted,
    ← Prog.filterMap_events_inline _ _ hfetch, inline_processRetryBatchCalls]
  exact upserts_processRetryBatch worker hjson henv hash w

/-- A pass that ends well has increased its counters. -/
theorem countsOn_of_retried (hends : (worker.retried overflowChecks hash env w).1 = .ok ()) :
    worker.CountsOn overflowChecks hash env w := by
  by_contra hnot
  have hpanics := (guardsAt_processRetryBatch worker hjson henv overflowChecks hash w).panics hnot
  unfold ReconcileWorker.retried ReconcileWorker.retryPass at hends
  rw [Prog.run_inline, hpanics] at hends
  cases hends

/-- The pass panics when it comes to a row that fails again and has the largest counter, in a
    build with overflow checks. -/
theorem processRetryBatchOrPanic_panics_iff
    (hcounts : ∀ s ∈ w.db.syncStates, InI64 s.retryCount) :
    (worker.retried overflowChecks hash env w).1 = .error .panic ↔
      overflowChecks = true ∧ ¬ worker.Countable hash env w := by
  rw [← Classical.not_imp, ← countsOn_iff hcounts]
  constructor
  · intro hpanics hcounted
    rw [retried_of_countsOn hjson henv hcounted] at hpanics
    cases hpanics
  · intro hnot
    unfold ReconcileWorker.retried ReconcileWorker.retryPass
    rw [Prog.run_inline]
    exact (guardsAt_processRetryBatch worker hjson henv overflowChecks hash w).panics hnot

/-- The verdict on a due row follows from what the pass is shown of its binding, its record and
    the verdict before. -/
theorem verdict_of_due {hash' : HashOrder} {env' : SyncEnv} {w' : SyncWorld}
    (henv' : env'.Reliable) {binding : ProviderBinding} (hb : binding ∈ w.db.bindings)
    (hb' : binding ∈ w'.db.bindings)
    (houtcome : worker.retryOutcome hash' env' w' binding = worker.retryOutcome hash env w binding)
    {record : DesiredRecord} (hrecord : record ∈ w.db.desiredRecords)
    (hrecord' : record ∈ w'.db.desiredRecords) {s s' : SyncState} (hs : s ∈ w.db.syncStates)
    (hs' : s' ∈ w'.db.syncStates) (hkey : s.key = (record.id, binding.id)) (hkey' : s'.key = s.key)
    (hfailed : s.status = .syncFailed) (hverdict : s'.verdict = s.verdict)
    (hdue : s.Due (env.now w.readings)) (hdue' : s'.Due (env'.now w'.readings)) :
    (((worker.processRetryBatch hash').run (handleSync env') w').2.db.syncStates.find?
        s.key).map (·.verdict) =
      (((worker.processRetryBatch hash).run (handleSync env) w).2.db.syncStates.find?
        s.key).map (·.verdict) := by
  have hfailed' : s'.status = .syncFailed := (congrArg Prod.fst hverdict).trans hfailed
  obtain ⟨now, hrow⟩ := observedRow_of_due worker hash hjson henv hb hs
    (congrArg Prod.snd hkey) hfailed hdue
  obtain ⟨now', hrow'⟩ := observedRow_of_due worker hash' hjson henv' hb' hs'
    (congrArg Prod.snd (hkey'.trans hkey)) hfailed' hdue'
  rw [hkey'] at hrow'
  rw [hrow, hrow', houtcome, hkey]
  exact verdict_observedRow hrecord' hrecord (congrArg some hverdict)

end Pass

/-! ## What a retry pass has to do -/

/-- The pass ends well. It fetches each binding with a due row once and no other, and writes each
    due row once, of which the listing or its record tells something, and no other. A due row is
    counted on when the listing fails, and otherwise judged by `diff`. The verdict on it is the same
    in every other pass that ends well in which the outcome for its binding, its record and the
    verdict before are the same. A row is due when its backoff has elapsed. -/
structure ReconcileWorker.RetrySpec (overflowChecks : Bool) (hash : HashOrder) (env : SyncEnv)
    (w : SyncWorld) : Prop where
  ends : (worker.retried overflowChecks hash env w).1 = .ok ()
  nodup_fetches : ((worker.fetches (processRetryBatchOrPanic overflowChecks hash) env w).map
    (·.1.id)).Nodup
  fetched : ∀ binding,
    (∃ fetch ∈ worker.fetches (processRetryBatchOrPanic overflowChecks hash) env w,
      fetch.1 = binding) ↔ binding ∈ w.db.bindings ∧ ∃ s ∈ w.db.syncStates,
        s.providerBindingId = binding.id ∧ s.status = .syncFailed ∧ s.Due (env.now w.readings)
  outcome : ∀ fetch ∈ worker.fetches (processRetryBatchOrPanic overflowChecks hash) env w,
    fetch.2 = (worker.retryOutcome hash env w fetch.1).map actualMap
  nodup_writes : (upserts env (worker.retryPass overflowChecks hash) w).Nodup
  written : ∀ key, key ∈ upserts env (worker.retryPass overflowChecks hash) w ↔
    ∃ s ∈ w.db.syncStates, s.key = key ∧ s.status = .syncFailed ∧ s.Due (env.now w.readings) ∧
      ∃ binding ∈ w.db.bindings, s.providerBindingId = binding.id ∧
        ∀ records, worker.retryOutcome hash env w binding = .ok records →
          ∃ record ∈ w.db.desiredRecords,
            record.id = s.recordId ∧ ∃ desired, parseDesiredRecord record = .ok desired
  frame : ∀ key ∉ upserts env (worker.retryPass overflowChecks hash) w,
    (worker.retried overflowChecks hash env w).2.db.syncStates.find? key =
      w.db.syncStates.find? key
  rows : ∀ binding ∈ w.db.bindings, ∀ s ∈ w.db.syncStates, s.providerBindingId = binding.id →
    s.status = .syncFailed → s.Due (env.now w.readings) →
      ∀ record ∈ w.db.desiredRecords, record.id = s.recordId →
        RowRetried (worker.retryOutcome hash env w binding) record s
          ((worker.retried overflowChecks hash env w).2.db.syncStates.find? s.key)
  isolated : ∀ (overflowChecks' : Bool) (hash' : HashOrder) (env' : SyncEnv) (w' : SyncWorld),
    env'.Reliable → (worker.retried overflowChecks' hash' env' w').1 = .ok () →
    ∀ binding ∈ w.db.bindings, binding ∈ w'.db.bindings →
      worker.retryOutcome hash' env' w' binding = worker.retryOutcome hash env w binding →
    ∀ record ∈ w.db.desiredRecords, record ∈ w'.db.desiredRecords →
    ∀ s ∈ w.db.syncStates, s.key = (record.id, binding.id) → s.status = .syncFailed →
      s.Due (env.now w.readings) →
    ∀ s' ∈ w'.db.syncStates, s'.key = s.key → s'.verdict = s.verdict →
      s'.Due (env'.now w'.readings) →
      ((worker.retried overflowChecks' hash' env' w').2.db.syncStates.find? s.key).map (·.verdict) =
        ((worker.retried overflowChecks hash env w).2.db.syncStates.find? s.key).map (·.verdict)
  due : ∀ s : SyncState, shouldRetry (.ofState s) (env.now w.readings) = true ↔
    s.Due (env.now w.readings)
  backoff : ∀ retryCount : Int, (min (max retryCount 0) 63).toNat < 64 ∧
    2 ^ (min (max retryCount 0) 63).toNat < 2 ^ 64 ∧
    backoffSecs retryCount = min (2 ^ (max retryCount 0).toNat) 3600
  future : ∀ (s : SyncState) text lastAt, s.lastObservedAt = some text →
    Chrono.parseFromRfc3339 text = some lastAt → env.now w.readings < lastAt →
      ¬ s.Due (env.now w.readings)

section Spec

variable {worker} {overflowChecks : Bool} {hash : HashOrder} {env : SyncEnv} {w : SyncWorld}

/-- A row that fails again is left with an i64 as its counter only if it had not the largest. -/
theorem countable_of_rows
    (hrows : ∀ binding ∈ w.db.bindings, ∀ s ∈ w.db.syncStates, s.providerBindingId = binding.id →
      s.status = .syncFailed → s.Due (env.now w.readings) →
        ∀ record ∈ w.db.desiredRecords, record.id = s.recordId →
          RowRetried (worker.retryOutcome hash env w binding) record s
            ((worker.retried overflowChecks hash env w).2.db.syncStates.find? s.key)) :
    worker.Countable hash env w := by
  intro binding hb s hs hbinding hfailed hdue hmax
  obtain ⟨record, hrecord, hid⟩ := Table.mem_keys.mp (w.db.syncRecord s hs)
  have hrow := hrows binding hb s hs hbinding hfailed hdue record hrecord hid
  cases houtcome : worker.retryOutcome hash env w binding with
  | ok records => exact ⟨records, rfl⟩
  | error e =>
    rw [houtcome] at hrow
    obtain ⟨s', -, -, -, hcount, hfits⟩ := hrow
    unfold InI64 at hfits
    omega

/-- Let a retry pass run alone from a table of i64 counters, while no database statement fails.
    It does what it has to exactly when no row that fails again has the largest i64 as its
    counter. -/
theorem processRetryBatch_spec_iff (hjson : ∀ r, ∃ text, SerdeJson.recordToString r = .ok text)
    (henv : env.Reliable) (hcounts : ∀ s ∈ w.db.syncStates, InI64 s.retryCount) :
    worker.RetrySpec overflowChecks hash env w ↔ worker.Countable hash env w := by
  refine ⟨fun hspec => countable_of_rows hspec.rows, fun hcountable => ?_⟩
  have hcounted : worker.CountsOn overflowChecks hash env w :=
    (countsOn_iff hcounts).mpr fun _ => hcountable
  have hretried := retried_of_countsOn hjson henv hcounted
  have hfetches := fetches_of_countsOn hjson henv hcounted
  have hwrites := upserts_of_countsOn hjson henv hcounted
  constructor
  case ends => rw [hretried]
  case nodup_fetches =>
    rw [hfetches]
    exact nodup_retryFetches
  case fetched =>
    rw [hfetches]
    exact fun binding => mem_retryFetches
  case outcome =>
    rw [hfetches]
    exact fun fetch hfetch => snd_of_mem_retryFetches hfetch
  case nodup_writes =>
    rw [hwrites]
    exact nodup_retryWrites
  case written =>
    rw [hwrites]
    exact fun key => mem_retryWrites
  case frame =>
    rw [hwrites, hretried]
    exact fun key hnot => find?_of_not_mem_retryWrites hjson henv hnot
  case rows =>
    intro binding hb s hs hbinding hfailed hdue record hrecord hid
    obtain ⟨now, hrow⟩ := observedRow_of_due worker hash hjson henv hb hs
      hbinding hfailed hdue
    have hkey : s.key = (record.id, s.providerBindingId) := by rw [hid]; rfl
    rw [hretried, hrow, hkey]
    exact rowRetried_observedRow hjson hrecord _ _ hfailed fun e houtcome =>
      hcountable.inI64_succ hcounts hb hs hbinding hfailed hdue houtcome
  case isolated =>
    intro overflowChecks' hash' env' w' henv' hends binding hb hb' houtcome record hrecord hrecord'
      s hs hkey hfailed hdue s' hs' hkey' hverdict hdue'
    have hcounted' := countsOn_of_retried hjson henv' hends
    rw [hretried, retried_of_countsOn hjson henv' hcounted']
    exact verdict_of_due hjson henv henv' hb hb' houtcome hrecord hrecord' hs hs' hkey hkey' hfailed
      hverdict hdue hdue'
  case due => exact fun s => shouldRetry_iff s _
  case backoff =>
    exact fun retryCount => ⟨by omega, two_pow_shift_lt retryCount, backoffSecs_eq retryCount⟩
  case future => exact fun s text lastAt => SyncState.not_due_of_future

end Spec

end Worker

/-! ## A counter at the largest i64 -/

section Sample

attribute [local instance] Sample.cryptoLib Sample.serdeJson Sample.unicodeData Sample.clock

/-- `www` has failed with both bindings, with the first of them this often. -/
def failing (retryCount : Int) : Database :=
  { Sample.twoBindings with
    syncStates := ⟨[{ Sample.failedRow "r1" "b1" with
        lastObservedAt := some "2024-01-15T11:34:56+00:00", retryCount },
      Sample.failedRow "r1" "b2"], by simp [SyncState.key, Sample.failedRow, Observation.row]⟩
    syncRecord := by simp [Sample.failedRow, Observation.row]; decide
    syncBinding := by simp [Sample.failedRow, Observation.row]; decide }

/-- The row of `www` with the first binding. -/
private def failingRow (retryCount : Int) : SyncState :=
  { Sample.failedRow "r1" "b1" with lastObservedAt := some "2024-01-15T11:34:56+00:00", retryCount }

private theorem failingRow_mem (retryCount : Int) :
    failingRow retryCount ∈ (failing retryCount).syncStates := by
  simp [failing, failingRow, Table.mem_def]

private theorem binding_mem_failing (retryCount : Int) :
    Sample.binding "b1" "Z1" ∈ (failing retryCount).bindings := by
  simp [failing, Sample.twoBindings, Sample.database, Table.mem_def]

/-- The rows of `www`, when the last i64 is counted. -/
theorem processRetryBatch_spec_iff_halfRefused :
    let after := (Sample.worker.retried true Sample.insertionOrder Sample.halfRefused
      { db := failing 9223372036854775806 }).2
    (∃ s, after.db.syncStates.find? ("r1", "b1") = some s ∧ s.status = .syncFailed ∧
        s.retryCount = 9223372036854775807) ∧
      ∃ s, after.db.syncStates.find? ("r1", "b2") = some s ∧ s.status = .inSync ∧
        s.retryCount = 0 := by
  have hcountable : Sample.worker.Countable Sample.insertionOrder Sample.halfRefused
      { db := failing 9223372036854775806 } := by
    intro binding hb s hs hbinding hfailed hdue hmax
    simp only [failing, Table.mem_def, List.mem_cons, List.not_mem_nil, or_false] at hs
    rcases hs with rfl | rfl <;> simp [Sample.failedRow, Observation.row] at hmax
  have hspec : Sample.worker.RetrySpec true Sample.insertionOrder Sample.halfRefused
      { db := failing 9223372036854775806 } :=
    (processRetryBatch_spec_iff (fun _ => ⟨_, rfl⟩) ⟨fun _ => rfl, fun _ => rfl⟩
      (by simp [failing, Table.mem_def, Sample.failedRow, Observation.row, InI64])).mpr hcountable
  have hrecord : Sample.desired "r1" "www" ∈ (failing 9223372036854775806).desiredRecords := by
    simp [failing, Sample.twoBindings, Sample.database, Table.mem_def]
  have hparse : parseDesiredRecord (Sample.desired "r1" "www") = .ok (Sample.www "192.0.2.1") := by
    decide +kernel
  have hrefused := hspec.rows (Sample.binding "b1" "Z1") (binding_mem_failing _) (failingRow _)
    (failingRow_mem _) rfl rfl ((shouldRetry_iff _ _).mp (by decide +kernel))
    (Sample.desired "r1" "www") hrecord rfl
  have hlisted := hspec.rows (Sample.binding "b2" "Z2")
    (by simp [failing, Sample.twoBindings, Sample.database, Table.mem_def])
    (Sample.failedRow "r1" "b2") (by simp [failing, Table.mem_def]) rfl rfl
    ((shouldRetry_iff _ _).mp (by decide +kernel)) (Sample.desired "r1" "www") hrecord rfl
  have herror : Sample.worker.retryOutcome Sample.insertionOrder Sample.halfRefused
      { db := failing 9223372036854775806 } (Sample.binding "b1" "Z1") =
      .error "list_records failed: rate limit exceeded" := by decide +kernel
  have hshown : Sample.worker.retryOutcome Sample.insertionOrder Sample.halfRefused
      { db := failing 9223372036854775806 } (Sample.binding "b2" "Z2") =
      .ok [Sample.www "192.0.2.1"] := by decide +kernel
  rw [herror] at hrefused
  rw [hshown] at hlisted
  unfold RowRetried at hlisted
  simp only [hparse] at hlisted
  obtain ⟨s, hs, hstatus, -, hcount, -⟩ := hrefused
  obtain ⟨s', hs', hcount', -, hsync, -⟩ := hlisted
  have hlast : LastWithKey [Sample.www "192.0.2.1"] (Sample.www "192.0.2.1").key
      (Sample.www "192.0.2.1") := actualMap_eq_some_iff_last.mp (by decide)
  exact ⟨⟨s, hs, hstatus, hcount⟩, s', hs', hsync.mpr ⟨_, hlast, by decide⟩, hcount'⟩

/-- The order in which the last key inserted comes first. -/
def lastFirst : HashOrder := ⟨List.reverse, fun keys => keys.reverse_perm⟩

/-- A counter beyond the last i64. A build with overflow checks panics before it writes the row,
    and does not come to the other binding; another one leaves a counter that is no i64. -/
theorem not_retrySpec_exhausted :
    let after := fun overflowChecks => Sample.worker.retried overflowChecks lastFirst
      Sample.halfRefused { db := failing 9223372036854775807 }
    (after true).1 = .error .panic ∧
      (∀ key, key = ("r1", "b1") ∨ key = ("r1", "b2") →
        (after true).2.db.syncStates.find? key =
          (failing 9223372036854775807).syncStates.find? key) ∧
      (after false).1 = .ok () ∧
      ((after false).2.db.syncStates.find? ("r1", "b1")).map (·.retryCount) =
        some 9223372036854775808 ∧
      ∀ overflowChecks, ¬ Sample.worker.RetrySpec overflowChecks lastFirst Sample.halfRefused
        { db := failing 9223372036854775807 } := by
  intro after
  refine ⟨by decide +kernel, ?_, by decide +kernel, by decide +kernel, fun overflowChecks hspec => ?_⟩
  · rintro key (rfl | rfl) <;> decide +kernel
  · obtain ⟨records, hrecords⟩ := countable_of_rows hspec.rows (Sample.binding "b1" "Z1")
      (binding_mem_failing _) (failingRow _) (failingRow_mem _) rfl rfl
      ((shouldRetry_iff _ _).mp (by decide +kernel)) rfl
    have herror : Sample.worker.retryOutcome lastFirst Sample.halfRefused
        { db := failing 9223372036854775807 } (Sample.binding "b1" "Z1") =
        .error "list_records failed: rate limit exceeded" := by decide +kernel
    rw [herror] at hrecords
    cases hrecords

end Sample

end DnsManager
