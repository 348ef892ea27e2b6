import DnsManager.Spec.SyncRows

/-!
# What a failed listing leaves of an observation

`last_observed_value` is meant to hold what the provider showed last, or `NULL` if it has never
shown the record. The two passes write `NULL` as well when their listing fails.

## Key results
- `SyncRun.shows_step`: what one write does to the stored value and to what was shown last.
- `keeps_lastShown_iff`: over a run the stored value is always what was shown last, exactly when
  no pass whose fetch failed writes the pair while a value is stored.
-/

namespace DnsManager

open Prog (Event Monitor Pool)

section Worker

variable [CryptoLib] [SerdeJson] [UnicodeData] [Chrono] (worker : ReconcileWorker)

/-- What a listing shows for a desired record: its JSON, or nothing if the listing lacks it. -/
def shownIn (records : List ProviderRecord) (record : DesiredRecord) : Option String :=
  match parseDesiredRecord record with
  | .error _ => none
  | .ok desired =>
    (actualMap records desired.key).bind fun r => (SerdeJson.recordToString r).toOption

/-- The records a pass has listed, if its fetch succeeded. -/
def PassState.listed (σ : PassState) : Option (List ProviderRecord) :=
  σ.listing.bind fun ℓ => ℓ.reply.toOption

/-- What was shown last for a pair after one more event: a pass has processed its listing for the
    pair when it has written the row. -/
def shownBy (db : Database) (key : String × String) (σ : PassState) (e : SyncEvent)
    (shown : Option String) : Option String :=
  if writesTo key [e] = [] then shown
  else match σ.listed with
    | some records => (db.desiredRecords.find? key.1).bind (shownIn records)
    | none => shown

/-- What the last successful listing showed that was processed for the pair; `shown` before the
    first one. -/
def lastShown (db : Database) (key : String × String) (shown : Option String)
    (log : List SyncEvent) : Option String :=
  (log.foldl (fun (pre, shown) e =>
    (pre ++ [e], shownBy db key (passAfter e.thread pre) e shown)) ([], shown)).2

/-- `last_observed_value` of a pair, if there is a row. -/
def SyncWorld.storedValue (w : SyncWorld) (key : String × String) : Option String :=
  (w.db.syncStates.find? key).bind (·.lastObservedValue)

omit [CryptoLib] [UnicodeData] [Chrono] in
theorem lastShown_concat (db : Database) (key : String × String) (shown : Option String)
    (log : List SyncEvent) (e : SyncEvent) :
    lastShown db key shown (log ++ [e]) =
      shownBy db key (passAfter e.thread log) e (lastShown db key shown log) := by
  have hpre : (log.foldl (fun (pre, shown) e =>
      (pre ++ [e], shownBy db key (passAfter e.thread pre) e shown)) ([], shown)).1 = log := by
    induction log using List.reverseRecOn with
    | nil => rfl
    | append_singleton log e ih => simp [List.foldl_append, ih]
  simp only [lastShown, List.foldl_append, List.foldl_cons, List.foldl_nil, hpre]

/-! ## One step -/

variable {worker}

omit [UnicodeData] [Chrono] in
/-- A fetch that failed has listed no records. -/
private theorem Fetched.listed_error {binding : ProviderBinding} {σ : PassState} {e : String}
    (h : Fetched worker binding σ.listing (.error e)) : σ.listed = none := by
  unfold PassState.listed
  generalize hlisting : σ.listing = listing at h
  generalize hfetched : Except.error e = fetched at h
  cases h with
  | noAdapter hadapter => rfl
  | noCredentials hcreds => rfl
  | listed creds reply =>
    cases reply with
    | error e => rfl
    | ok records => cases hfetched

omit [UnicodeData] [Chrono] in
/-- A fetch that succeeded has listed the records it returns. -/
private theorem Fetched.listed_ok {binding : ProviderBinding} {σ : PassState}
    {actual : RecordKey → Option ProviderRecord} (h : Fetched worker binding σ.listing (.ok actual)) :
    ∃ records, σ.listed = some records ∧ actual = actualMap records := by
  unfold PassState.listed
  generalize hlisting : σ.listing = listing at h
  generalize hfetched : Except.ok actual = fetched at h
  -- without an adapter or credentials the fetch would have failed
  cases h with
  | noAdapter hadapter => cases hfetched
  | noCredentials hcreds => cases hfetched
  | listed creds reply =>
    cases reply with
    | error e => cases hfetched
    | ok records =>
      cases hfetched
      exact ⟨records, rfl, rfl⟩

omit [CryptoLib] [Chrono] in
/-- The value that is observed is what the listing shows. -/
private theorem observation_value {records : List ProviderRecord} {record : DesiredRecord}
    {o : Observation} (h : observation (.ok (actualMap records)) record = some o) :
    o.value = shownIn records record := by
  unfold shownIn
  simp only [observation] at h
  cases hparse : parseDesiredRecord record with
  | error e => simp [hparse] at h
  | ok desired =>
    cases hactual : actualMap records desired.key <;> simp [hparse, hactual] at h <;>
      simp [← h, hactual]

/-- One more event of a run leaves the stored value and what was shown last alone, or it is a
    write: after a failed fetch the value is gone, after a listing it is what was shown. -/
theorem SyncRun.shows_step {db : Database} {w w' : SyncWorld} {log : List SyncEvent} {e : SyncEvent}
    (h : SyncRun worker db w log) (h' : SyncRun worker db w' (log ++ [e])) (key : String × String)
    (shown : Option String) :
    (writesTo key [e] = [] ∧ w'.storedValue key = w.storedValue key ∧
        lastShown db key shown (log ++ [e]) = lastShown db key shown log) ∨
      (writesTo key [e] ≠ [] ∧ (passAfter e.thread log).listed = none ∧
        w'.storedValue key = none ∧
        lastShown db key shown (log ++ [e]) = lastShown db key shown log) ∨
      (writesTo key [e] ≠ [] ∧ (passAfter e.thread log).listed ≠ none ∧
        w'.storedValue key = lastShown db key shown (log ++ [e])) := by
  have hrow := h.find?_concat h' key
  rw [lastShown_concat]
  unfold shownBy SyncWorld.storedValue
  by_cases hnone : writesTo key [e] = []
  · refine .inl ⟨hnone, ?_, if_pos hnone⟩
    rw [hrow, hnone]
    rfl
  obtain ⟨row, hwritten, rfl⟩ := exists_written hnone
  have hvalue : (w'.db.syncStates.find? row.key).bind (·.lastObservedValue) =
      row.lastObservedValue := by
    rw [hrow, writesTo_singleton hwritten, if_pos rfl]
    change ((some (row.upserted _) : Option SyncState).bind _) = _
    cases w.db.syncStates.find? row.key <;> rfl
  rw [if_neg hnone, hvalue]
  obtain ⟨binding, record, fetched, t, o, -, hrecord, -, hfetched, hobserved, hform⟩ :=
    h'.derives hwritten
  rw [hform]
  cases fetched with
  | error e =>
    -- the error is written without a value
    cases hobserved
    have hlisted := hfetched.listed_error
    exact .inr (.inl ⟨hnone, hlisted, rfl, by rw [hlisted]⟩)
  | ok actual =>
    obtain ⟨records, hlisted, rfl⟩ := hfetched.listed_ok
    refine .inr (.inr ⟨hnone, by simp [hlisted], ?_⟩)
    rw [h'.desiredRecords] at hrecord
    simp only [hlisted]
    change o.value = (db.desiredRecords.find? row.recordId).bind (shownIn records)
    rw [hrecord]
    exact observation_value hobserved

/-! ## Runs -/

variable (worker)

/-- The next step of pass `i` writes the pair although its fetch failed, while a value is
    stored. -/
def LosesValue (env : SyncEnv) (pool : Pool SyncCmd SyncCmd.Reply SyncWorld)
    (key : String × String) (i : Nat) : Prop :=
  ∃ e, (pool.step (handleSync env) i).log = pool.log ++ [e] ∧ writesTo key [e] ≠ [] ∧
    (passAfter i pool.log).listed = none ∧ (pool.state.storedValue key).isSome

/-- Over any run of observe and retry passes the stored value of a pair is always what the last
    listing showed that was processed for it, exactly when no step loses a value. -/
theorem keeps_lastShown_iff (env : SyncEnv) (w : SyncWorld) (passes : List SyncPass)
    (schedule : List Nat) (key : String × String) :
    (∀ done rest, schedule = done ++ rest →
      let pool := (syncPool worker w passes).exec (handleSync env) done
      pool.state.storedValue key = lastShown w.db key (w.storedValue key) pool.log) ↔
      ∀ done i rest, schedule = done ++ i :: rest →
        ¬ LosesValue env ((syncPool worker w passes).exec (handleSync env) done) key i := by
  have hrun : ∀ done, Pool.Invariant (passMonitor worker) (SyncRun worker w.db)
      ((syncPool worker w passes).exec (handleSync env) done) := syncRun_exec env w passes
  constructor
  · rintro hkept done i rest hsplit ⟨e, hlog, hwrites, hlisted, hsome⟩
    have hbefore := hkept done _ hsplit
    have hafter := hkept (done ++ [i]) rest (by simp [hsplit])
    have hthread := Pool.thread_of_step hlog
    have h' := (hrun (done ++ [i])).holds
    simp only [Pool.exec_concat, hlog] at hafter h'
    rcases (hrun done).holds.shows_step h' key (w.storedValue key) with
      ⟨hnone, -⟩ | ⟨-, -, hvalue, hshown⟩ | ⟨-, hsuccess, -⟩
    · exact hwrites hnone
    · -- the value is gone, but what was shown last is still what it was
      rw [hshown, ← hbefore, hvalue] at hafter
      simp [← hafter] at hsome
    · exact hsuccess (hthread ▸ hlisted)
  · intro hnever done
    induction done using List.reverseRecOn with
    | nil => exact fun _ _ => rfl
    | append_singleton done i ih =>
      intro rest hsplit
      have hsplit' : schedule = done ++ i :: rest := by simp [hsplit]
      have hbefore := ih _ hsplit'
      have h' := (hrun (done ++ [i])).holds
      simp only [Pool.exec_concat] at h' ⊢
      rcases (hrun done).step_cases (h := handleSync env) i with hsame | ⟨c, -, -, hlog⟩
      · rw [hsame]
        exact hbefore
      rw [hlog] at h' ⊢
      rcases (hrun done).holds.shows_step h' key (w.storedValue key) with
        ⟨-, hvalue, hshown⟩ | ⟨hwrites, hlisted, hvalue, hshown⟩ | ⟨-, -, hvalue⟩
      · rw [hvalue, hshown, hbefore]
      · -- the fetch failed, so no value was stored
        have hempty : ((syncPool worker w passes).exec (handleSync env) done).state.storedValue key =
            none := by
          by_contra hsome
          exact hnever done i rest hsplit'
            ⟨_, hlog, hwrites, hlisted, Option.isSome_iff_ne_none.mpr hsome⟩
        rw [hvalue, hshown, ← hbefore, hempty]
      · exact hvalue

end Worker

section Sample

open Sample

/-- The first two listings show `www`, every later one is refused. -/
def refusingLater : SyncEnv :=
  { syncEnv [www "192.0.2.1"] with
    listings := fun n _ _ => if n < 2 then .ok [www "192.0.2.1"] else .error .rateLimitExceeded }

/-- The second pass over two bindings is refused, and the value that the first has stored for
    `www` is gone, although nothing else was shown since. -/
theorem refused_pass_loses_value :
    let first := (syncPool worker { db := twoBindings } [.observe, .observe]).exec
      (handleSync refusingLater) (List.replicate 12 0)
    let second := first.exec (handleSync refusingLater) (List.replicate 12 1)
    first.state.storedValue ("r1", "b1") = some (recordJson (www "192.0.2.1")) ∧
      second.state.storedValue ("r1", "b1") = none ∧
      lastShown twoBindings ("r1", "b1") none second.log =
        some (recordJson (www "192.0.2.1")) := by
  decide +kernel

end Sample

end DnsManager
