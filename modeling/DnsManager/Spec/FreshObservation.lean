import DnsManager.Spec.SyncRows

/-!
# Passes that overtake each other

A pass takes the time and lists the binding long before it writes, and its write is
unconditional. Another pass may do all of it in between: then the row goes back to the older
listing and to the older time. `Overtaken` says when this happens, in terms of the order of the
steps alone.

## Key results
- `ClockOrder.step`: while no overtaken pass writes, the times of the rows only grow.
- `ListingOrder.step`: while no overtaken pass writes, a row follows from the last listing as soon
  as the pass that made it has written.
- `freshest_observation_wins`: both over any run of passes.
-/

namespace DnsManager

open Prog (Event Monitor Pool)

/-! ## Overtaking -/

/-- The event takes the time. -/
def readsClock (e : SyncEvent) : Bool := e.cmd = .utcNow

/-- The event lists the binding. -/
def listsBinding (bindingId : String) (e : SyncEvent) : Bool :=
  match e.cmd with
  | .listRecords binding _ => binding.id = bindingId
  | _ => false

/-- What has happened since a pass last did the step in question: which other passes have done it,
    and whether one of them has written the pair after that. -/
structure Since where
  others : List Nat := []
  overtaken : Bool := false

/-- The account of pass `i` after one more event. -/
def Since.next (step : SyncEvent → Bool) (key : String × String) (i : Nat) (σ : Since)
    (e : SyncEvent) : Since :=
  if step e then
    if e.thread = i then {} else { σ with others := e.thread :: σ.others }
  else if writesTo key [e] ≠ [] ∧ e.thread ∈ σ.others then { σ with overtaken := true }
  else σ

/-- The account of pass `i` after the events of a log. -/
def since (step : SyncEvent → Bool) (key : String × String) (i : Nat) (log : List SyncEvent) :
    Since :=
  log.foldl (Since.next step key i) {}

/-- Pass `i` is overtaken for a pair: after it took the time another pass has taken the time and
    written the pair, or after it listed the binding another pass has listed it and written the
    pair. -/
def Overtaken (key : String × String) (i : Nat) (log : List SyncEvent) : Prop :=
  (since readsClock key i log).overtaken = true ∨
    (since (listsBinding key.2) key i log).overtaken = true

instance (key : String × String) (i : Nat) (log : List SyncEvent) :
    Decidable (Overtaken key i log) :=
  inferInstanceAs (Decidable (_ ∨ _))

theorem since_concat (step : SyncEvent → Bool) (key : String × String) (i : Nat)
    (log : List SyncEvent) (e : SyncEvent) :
    since step key i (log ++ [e]) = (since step key i log).next step key i e := by
  simp only [since, List.foldl_append, List.foldl_cons, List.foldl_nil]

/-- The step in question starts a new account for the pass that does it, and is noted by the
    others. -/
theorem since_of_step {step : SyncEvent → Bool} {e : SyncEvent} (h : step e = true)
    (key : String × String) (i : Nat) (log : List SyncEvent) :
    since step key i (log ++ [e]) =
      if e.thread = i then {}
      else { since step key i log with others := e.thread :: (since step key i log).others } := by
  rw [since_concat]
  exact if_pos h

/-- A write of the pair overtakes the passes that have noted the writer. -/
theorem since_of_write {step : SyncEvent → Bool} {e : SyncEvent} (h : step e = false)
    {key : String × String} (hwrites : writesTo key [e] ≠ []) (i : Nat) (log : List SyncEvent) :
    since step key i (log ++ [e]) =
      { since step key i log with
        overtaken := (since step key i log).overtaken ||
          decide (e.thread ∈ (since step key i log).others) } := by
  rw [since_concat, Since.next, if_neg (by simp [h])]
  by_cases hmem : e.thread ∈ (since step key i log).others
  · rw [if_pos ⟨hwrites, hmem⟩]
    simp [hmem]
  · rw [if_neg fun hboth => hmem hboth.2]
    simp [hmem]

/-- Any other event changes no account. -/
theorem since_of_other {step : SyncEvent → Bool} {e : SyncEvent} (h : step e = false)
    {key : String × String} (hwrites : writesTo key [e] = []) (i : Nat) (log : List SyncEvent) :
    since step key i (log ++ [e]) = since step key i log := by
  rw [since_concat, Since.next, if_neg (by simp [h]), if_neg fun hboth => hboth.1 hwrites]

/-- A write is neither a reading of the clock nor a listing. -/
theorem not_step_of_writes {key : String × String} {e : SyncEvent} (h : writesTo key [e] ≠ [])
    (bindingId : String) : readsClock e = false ∧ listsBinding bindingId e = false := by
  obtain ⟨row, hwritten, -⟩ := exists_written h
  simp [readsClock, listsBinding, cmd_of_written hwritten]

/-! ## The last listing -/

/-- The last listing of a binding: the pass that made it, and whether that pass has written the
    pair since. -/
structure LastListing where
  thread : Nat
  listing : Listing
  written : Bool
deriving DecidableEq

/-- The last listing of the pair's binding after one more event. -/
def LastListing.next (key : String × String) (last : Option LastListing) (e : SyncEvent) :
    Option LastListing :=
  match e with
  | ⟨i, .listRecords binding creds, reply⟩ =>
    if binding.id = key.2 then some ⟨i, ⟨binding, creds, reply⟩, false⟩ else last
  | e =>
    if writesTo key [e] ≠ [] then
      last.map fun l => if l.thread = e.thread then { l with written := true } else l
    else last

/-- The last listing of the pair's binding in a log. -/
def lastListing (key : String × String) (log : List SyncEvent) : Option LastListing :=
  log.foldl (LastListing.next key) none

theorem lastListing_concat (key : String × String) (log : List SyncEvent) (e : SyncEvent) :
    lastListing key (log ++ [e]) = LastListing.next key (lastListing key log) e := by
  simp only [lastListing, List.foldl_append, List.foldl_cons, List.foldl_nil]

/-- A listing of the pair's binding. -/
theorem LastListing.next_of_lists {key : String × String} {b : ProviderBinding} (hb : b.id = key.2)
    (i : Nat) (creds : Credentials) (reply : Except ProviderError (List ProviderRecord))
    (last : Option LastListing) :
    next key last ⟨i, .listRecords b creds, reply⟩ = some ⟨i, ⟨b, creds, reply⟩, false⟩ :=
  if_pos hb

/-- A write of the pair. -/
theorem LastListing.next_of_write {key : String × String} {e : SyncEvent}
    (hwrites : writesTo key [e] ≠ []) (last : Option LastListing) : next key last e =
      last.map fun l => if l.thread = e.thread then { l with written := true } else l := by
  obtain ⟨row, hwritten, -⟩ := exists_written hwrites
  obtain ⟨i, c, reply⟩ := e
  obtain rfl : c = .upsertSyncState row := cmd_of_written hwritten
  exact if_pos hwrites

/-- Any other event. -/
theorem LastListing.next_of_other {key : String × String} {e : SyncEvent}
    (hlists : listsBinding key.2 e = false) (hwrites : writesTo key [e] = [])
    (last : Option LastListing) : next key last e = last := by
  obtain ⟨i, c, reply⟩ := e
  cases c with
  | listRecords b creds =>
    have hb : b.id ≠ key.2 := by simpa [listsBinding] using hlists
    exact if_neg hb
  | _ => simp [LastListing.next, hwrites]

/-- The listing of a pass is the one it had, or it has just made it. -/
theorem PassState.listing_next {σ : PassState} {c : SyncCmd} {reply : c.Reply} {ℓ : Listing}
    (h : (σ.next c reply).listing = some ℓ) :
    σ.listing = some ℓ ∨ ∃ creds, c = .listRecords ℓ.binding creds := by
  cases c with
  | utcNow => cases h
  | selectActive => cases reply <;> exact .inl h
  | selectDesired bindingId => cases reply <;> exact .inl h
  | selectFailed => exact .inl h
  | selectBinding id => rcases reply with e | found <;> [exact .inl h; cases found <;> exact .inl h]
  | selectRecord id => rcases reply with e | found <;> [exact .inl h; cases found <;> exact .inl h]
  | listRecords b creds =>
    cases h
    exact .inr ⟨creds, rfl⟩
  | upsertSyncState row => exact .inl h

/-! ## Times -/

/-- Only a reading of the clock changes the time of a pass and the number of the next reading. -/
private theorem time_of_not_readsClock (env : SyncEnv) {c : SyncCmd} (hc : c ≠ .utcNow) (i j : Nat)
    (w : SyncWorld) (log : List SyncEvent) :
    (handleSync env c w).2.readings = w.readings ∧
      (passAfter j (log ++ [⟨i, c, (handleSync env c w).1⟩])).instant =
        (passAfter j log).instant := by
  -- the other commands count queries and listings
  constructor
  · cases c with
    | utcNow => exact absurd rfl hc
    | listRecords b creds => rfl
    | upsertSyncState row =>
      simp only [handleSync, SyncWorld.write]
      split
      · rfl
      · split <;> rfl
    | _ =>
      simp only [handleSync, SyncWorld.query]
      split <;> rfl
  · rw [passAfter_concat]
    split
    · exact (PassState.next_keeps _ _ hc).1
    · rfl

section Worker

variable [Chrono]

/-- The instant of `last_observed_at`. -/
def SyncWorld.observedAt (w : SyncWorld) (key : String × String) : Option Int :=
  ((w.db.syncStates.find? key).bind (·.lastObservedAt)).bind Chrono.parseFromRfc3339

/-- The clock goes on from the time of the row, and chrono reads back what it writes. -/
structure SteadyClock (env : SyncEnv) (w : SyncWorld) (key : String × String) : Prop where
  mono : ∀ m n, w.readings ≤ m → m ≤ n → env.now m ≤ env.now n
  stored : ∀ u, w.observedAt key = some u → u ≤ env.now w.readings
  parse : ∀ n, w.readings ≤ n →
    Chrono.parseFromRfc3339 (Chrono.toRfc3339 (env.now n)) = some (env.now n)

/-- The time of the pair's row is not after the time of a pass that is not overtaken, and a pass
    that has not taken the time since another one did has an earlier time. -/
structure ClockOrder (env : SyncEnv) (key : String × String) (w : SyncWorld)
    (log : List SyncEvent) : Prop where
  clock : SteadyClock env w key
  instant : ∀ i t, (passAfter i log).instant = some t →
    t ≤ env.now w.readings ∧ Chrono.parseFromRfc3339 (Chrono.toRfc3339 t) = some t
  order : ∀ i j t t', (passAfter i log).instant = some t → (passAfter j log).instant = some t' →
    j ∉ (since readsClock key i log).others → t' ≤ t
  row : ∀ i t u, (passAfter i log).instant = some t →
    (since readsClock key i log).overtaken = false → w.observedAt key = some u → u ≤ t

/-- The time of the pair's row does not move backwards. -/
def NotBackwards (key : String × String) (w w' : SyncWorld) : Prop :=
  ∀ u, w.observedAt key = some u → ∃ u', w'.observedAt key = some u' ∧ u ≤ u'

/-- Nobody has taken the time yet. -/
private theorem ClockOrder.start {env : SyncEnv} {key : String × String} {w : SyncWorld}
    (hclock : SteadyClock env w key) : ClockOrder env key w [] where
  clock := hclock
  instant i t ht := by cases ht
  order i j t t' ht := by cases ht
  row i t u ht := by cases ht

/-- A pass takes the time: it is later than every time so far. -/
private theorem ClockOrder.step_utcNow {env : SyncEnv} {key : String × String} {w : SyncWorld}
    {log : List SyncEvent} (h : ClockOrder env key w log) (i : Nat) :
    ClockOrder env key (handleSync env .utcNow w).2
      (log ++ [⟨i, .utcNow, (handleSync env .utcNow w).1⟩]) := by
  have hlater : env.now w.readings ≤ env.now (w.readings + 1) :=
    h.clock.mono _ _ le_rfl (Nat.le_succ _)
  have hinstant : ∀ j, (passAfter j (log ++ [⟨i, .utcNow, (handleSync env .utcNow w).1⟩])).instant =
      if i = j then some (env.now w.readings) else (passAfter j log).instant := by
    intro j
    rw [passAfter_concat]
    split <;> rfl
  have hsince : ∀ j, since readsClock key j (log ++ [⟨i, .utcNow, (handleSync env .utcNow w).1⟩]) =
      if i = j then {} else
        { since readsClock key j log with others := i :: (since readsClock key j log).others } := by
    intro j
    rw [since_of_step rfl]
  refine ⟨⟨fun m n hm => h.clock.mono m n (Nat.le_of_succ_le hm), fun u hu => ?_,
    fun n hn => h.clock.parse n (Nat.le_of_succ_le hn)⟩, fun j t ht => ?_, fun j k t t' ht ht' => ?_,
    fun j t u ht => ?_⟩
  · exact (h.clock.stored u hu).trans hlater
  · rw [hinstant] at ht
    split at ht
    · cases ht
      exact ⟨hlater, h.clock.parse _ le_rfl⟩
    · obtain ⟨hle, hparse⟩ := h.instant j t ht
      exact ⟨hle.trans hlater, hparse⟩
  · rw [hinstant] at ht ht'
    rw [hsince]
    by_cases hj : i = j
    · -- the pass itself is now the latest one
      rw [if_pos hj] at ht
      cases ht
      intro _
      split at ht'
      · cases ht'
        exact le_rfl
      · exact (h.instant k t' ht').1
    · rw [if_neg hj] at ht ⊢
      intro hnot
      obtain ⟨hk, hnot⟩ := not_or.mp (mt List.mem_cons.mpr hnot)
      rw [if_neg fun hik => hk hik.symm] at ht'
      exact h.order j k t t' ht ht' hnot
  · rw [hinstant] at ht
    rw [hsince]
    by_cases hj : i = j
    · rw [if_pos hj] at ht
      cases ht
      exact fun _ hu => h.clock.stored u hu
    · rw [if_neg hj] at ht ⊢
      exact h.row j t u ht

/-- A step that takes no time and does not write the pair changes nothing here. -/
private theorem ClockOrder.step_other {env : SyncEnv} {key : String × String} {w w' : SyncWorld}
    {log : List SyncEvent} {e : SyncEvent} (h : ClockOrder env key w log)
    (hreadings : w'.readings = w.readings)
    (hinstant : ∀ j, (passAfter j (log ++ [e])).instant = (passAfter j log).instant)
    (hclock : readsClock e = false) (hwrites : writesTo key [e] = [])
    (hobserved : w'.observedAt key = w.observedAt key) :
    ClockOrder env key w' (log ++ [e]) ∧ NotBackwards key w w' := by
  -- neither the clock nor an account moves
  have hsince := since_of_other hclock hwrites
  refine ⟨⟨⟨?_, ?_, ?_⟩, fun j t => ?_, fun j k t t' => ?_, fun j t u => ?_⟩,
    fun u hu => ⟨u, hobserved.trans hu, le_rfl⟩⟩
  · rw [hreadings]
    exact h.clock.mono
  · rw [hobserved, hreadings]
    exact h.clock.stored
  · rw [hreadings]
    exact h.clock.parse
  · rw [hinstant, hreadings]
    exact h.instant j t
  · rw [hinstant, hinstant, hsince]
    exact h.order j k t t'
  · rw [hinstant, hsince, hobserved]
    exact h.row j t u

/-- A pass that is not overtaken writes its time, which is not before that of the row. -/
private theorem ClockOrder.step_write {env : SyncEnv} {key : String × String} {w w' : SyncWorld}
    {log : List SyncEvent} {e : SyncEvent} (h : ClockOrder env key w log)
    (hreadings : w'.readings = w.readings)
    (hinstant : ∀ j, (passAfter j (log ++ [e])).instant = (passAfter j log).instant)
    (hwrites : writesTo key [e] ≠ []) {t : Int} (ht : (passAfter e.thread log).instant = some t)
    (hobserved : w'.observedAt key = some t)
    (hfirst : (since readsClock key e.thread log).overtaken = false) :
    ClockOrder env key w' (log ++ [e]) ∧ NotBackwards key w w' := by
  have hsince := since_of_write (not_step_of_writes hwrites "").1 hwrites
  refine ⟨⟨⟨?_, fun u hu => ?_, ?_⟩, fun j t => ?_, fun j k t t' => ?_,
    fun j t' u ht' hnot hu => ?_⟩, fun u hu => ⟨t, hobserved, h.row _ t u ht hfirst hu⟩⟩
  · rw [hreadings]
    exact h.clock.mono
  · obtain rfl := Option.some.inj (hobserved.symm.trans hu)
    rw [hreadings]
    exact (h.instant _ t ht).1
  · rw [hreadings]
    exact h.clock.parse
  · rw [hinstant, hreadings]
    exact h.instant j t
  · rw [hinstant, hinstant, hsince]
    exact h.order j k t t'
  · -- a pass that stays not overtaken has taken the time after the writer has
    rw [hinstant] at ht'
    obtain rfl := Option.some.inj (hobserved.symm.trans hu)
    rw [hsince] at hnot
    simp only [Bool.or_eq_false_iff, decide_eq_false_iff_not] at hnot
    exact h.order j _ t' t ht' ht hnot.2

variable [CryptoLib] [SerdeJson] [UnicodeData] {worker : ReconcileWorker}

/-- Every allowed command keeps the order of the times, and does not move the row backwards, if a
    pass that writes the pair is not overtaken. -/
theorem ClockOrder.step {env : SyncEnv} {key : String × String} {db : Database} {w : SyncWorld}
    {log : List SyncEvent} (h : ClockOrder env key w log) (hrun : SyncRun worker db w log)
    {i : Nat} {c : SyncCmd}
    (hrun' : SyncRun worker db (handleSync env c w).2 (log ++ [⟨i, c, (handleSync env c w).1⟩]))
    (hfirst : writesTo key [⟨i, c, (handleSync env c w).1⟩] ≠ [] →
      (since readsClock key i log).overtaken = false) :
    ClockOrder env key (handleSync env c w).2 (log ++ [⟨i, c, (handleSync env c w).1⟩]) ∧
      NotBackwards key w (handleSync env c w).2 := by
  by_cases hc : c = .utcNow
  · subst hc
    exact ⟨h.step_utcNow i, fun u hu => ⟨u, hu, le_rfl⟩⟩
  obtain ⟨hreadings, -⟩ := time_of_not_readsClock env hc i i w log
  have hinstant := fun j => (time_of_not_readsClock env hc i j w log).2
  have hrow := hrun.find?_concat hrun' key
  by_cases hwrites : writesTo key [⟨i, c, (handleSync env c w).1⟩] = []
  · rw [hwrites] at hrow
    exact h.step_other hreadings hinstant (by simpa [readsClock] using hc) hwrites
      (congrArg (fun s => (s.bind (·.lastObservedAt)).bind Chrono.parseFromRfc3339) hrow)
  · obtain ⟨row, hwritten, rfl⟩ := exists_written hwrites
    obtain ⟨binding, record, fetched, t, o, -, -, ht, -, -, hform⟩ := hrun'.derives hwritten
    refine h.step_write hreadings hinstant hwrites ht ?_ (hfirst hwrites)
    -- the row shows the text of this time, which chrono reads back
    rw [writesTo_singleton hwritten, if_pos rfl] at hrow
    change (((handleSync env c w).2.db.syncStates.find? row.key).bind (·.lastObservedAt)).bind _ = _
    rw [hrow, rowAfter, List.foldl_cons, List.foldl_nil, Option.bind_some,
      SyncState.lastObservedAt_upserted, hform]
    exact (h.instant i t ht).2

/-! ## Listings -/

/-- The row of the pair is the observation of its record in the listing. -/
def Shows (w : SyncWorld) (key : String × String) (ℓ : Listing) : Prop :=
  ∃ s record o, w.db.syncStates.find? key = some s ∧
    w.db.desiredRecords.find? key.1 = some record ∧ observation ℓ.fetched record = some o ∧
    s.status = o.status ∧ s.lastObservedValue = o.value ∧ s.lastError = o.error

/-- As soon as the pass that made the last listing of the binding has written the pair, its row is
    the observation in that listing. -/
def ShowsLastListing (w : SyncWorld) (key : String × String) (log : List SyncEvent) : Prop :=
  ∀ l, lastListing key log = some l → l.written = true → Shows w key l.listing

variable (worker) in
/-- The last listing of the pair's binding is one of the binding's row, with its credentials; it is
    that of its pass, noted by every other pass, and one that was overtaken by it knows. -/
structure ListingOrder (key : String × String) (w : SyncWorld) (log : List SyncEvent) : Prop where
  binding : ∀ l, lastListing key log = some l →
    w.db.bindings.find? key.2 = some l.listing.binding ∧
      l.listing.binding.providerType ∈ worker.adapters ∧
      ∃ creds, worker.decryptCredentials l.listing.binding.credentialsBlob
        l.listing.binding.credentialsDek = .ok creds
  own : ∀ l ℓ, lastListing key log = some l → (passAfter l.thread log).listing = some ℓ →
    ℓ.binding.id = key.2 → ℓ = l.listing
  noted : ∀ l j, lastListing key log = some l → j ≠ l.thread →
    l.thread ∈ (since (listsBinding key.2) key j log).others ∧
      (l.written = true → (since (listsBinding key.2) key j log).overtaken = true)
  shows : ShowsLastListing w key log

omit [Chrono] in
/-- Nobody has listed the binding yet. -/
private theorem ListingOrder.start (key : String × String) (w : SyncWorld) :
    ListingOrder worker key w [] where
  binding l hl := by cases hl
  own l ℓ hl := by cases hl
  noted l j hl := by cases hl
  shows l hl := by cases hl

/-- A pass lists the pair's binding: this is the last listing now. -/
private theorem ListingOrder.step_lists {env : SyncEnv} {key : String × String} {db : Database}
    {w : SyncWorld} {log : List SyncEvent} (hrun : SyncRun worker db w log) {i : Nat}
    {b : ProviderBinding} {creds : Credentials} (hb : b.id = key.2)
    (hallowed : (passAfter i log).MayList worker b creds) :
    ListingOrder worker key (handleSync env (.listRecords b creds) w).2
      (log ++ [⟨i, .listRecords b creds, (handleSync env (.listRecords b creds) w).1⟩]) := by
  have hlists : ∀ reply, listsBinding key.2 ⟨i, .listRecords b creds, reply⟩ = true :=
    fun _ => by simpa [listsBinding] using hb
  have hlast : lastListing key
      (log ++ [⟨i, .listRecords b creds, (handleSync env (.listRecords b creds) w).1⟩]) =
      some ⟨i, ⟨b, creds, (handleSync env (.listRecords b creds) w).1⟩, false⟩ := by
    rw [lastListing_concat]
    exact LastListing.next_of_lists hb ..
  refine ⟨fun l hl => ?_, fun l ℓ hl hℓ _ => ?_, fun l j hl hj => ?_, fun l hl hwritten => ?_⟩ <;>
    rw [hlast] at hl <;> cases hl
  · -- what a pass has read of a binding is its row
    obtain ⟨bindingId, hread⟩ := hallowed.read
    have hmem := ((hrun.read i).bindings _ hread).1
    exact ⟨Table.find?_eq_some.mpr ⟨hmem, hb⟩, hallowed.adapter, creds, hallowed.creds⟩
  · rw [passAfter_concat, if_pos rfl] at hℓ
    cases hℓ
    rfl
  · rw [since_of_step (hlists _), if_neg (Ne.symm hj)]
    exact ⟨List.mem_cons_self, nofun⟩
  · -- the pass has not written since
    cases hwritten

omit [UnicodeData] [Chrono] in
/-- What the fetch of a pass returns whose binding is known to be listed. -/
private theorem Fetched.eq_fetched {binding : ProviderBinding} {listing : Option Listing}
    {fetched : Except String (RecordKey → Option ProviderRecord)}
    (h : Fetched worker binding listing fetched) (hadapter : binding.providerType ∈ worker.adapters)
    (hcreds : ∃ creds, worker.decryptCredentials binding.credentialsBlob binding.credentialsDek =
      .ok creds) : ∃ ℓ, listing = some ℓ ∧ ℓ.binding = binding ∧ fetched = ℓ.fetched := by
  cases h with
  | noAdapter hnot => exact absurd hadapter hnot
  | noCredentials herror =>
    obtain ⟨creds, hok⟩ := hcreds
    rw [herror] at hok
    cases hok
  | listed creds reply => exact ⟨_, rfl, rfl, rfl⟩

/-- A write by the pass that made the last listing shows that listing. -/
private theorem SyncRun.shows_of_write {key : String × String} {db : Database} {w w' : SyncWorld}
    {log : List SyncEvent} {e : SyncEvent} (hrun : SyncRun worker db w log)
    (h : ListingOrder worker key w log) (hrun' : SyncRun worker db w' (log ++ [e]))
    {l : LastListing} (hl : lastListing key log = some l) (hthread : l.thread = e.thread)
    (hwrites : writesTo key [e] ≠ []) : Shows w' key l.listing := by
  obtain ⟨row, hwritten, rfl⟩ := exists_written hwrites
  obtain ⟨binding, record, fetched, t, o, hbinding, hrecord, -, hfetched, hobserved, hform⟩ :=
    hrun'.derives hwritten
  obtain ⟨hlisted, hadapter, hcreds⟩ := h.binding l hl
  obtain rfl : binding = l.listing.binding := by
    rw [hrun'.bindings, ← hrun.bindings, show row.providerBindingId = row.key.2 from rfl,
      hlisted] at hbinding
    exact (Option.some.inj hbinding).symm
  -- the binding is one that can be listed, so the pass has fetched a listing
  obtain ⟨ℓ, hℓ, hsame, rfl⟩ := hfetched.eq_fetched hadapter hcreds
  have hid : ℓ.binding.id = row.key.2 := by
    rw [hsame]
    exact (Table.find?_eq_some.mp hlisted).2
  obtain rfl := h.own l ℓ hl (hthread ▸ hℓ) hid
  have hrow := hrun.find?_concat hrun' row.key
  rw [writesTo_singleton hwritten, if_pos rfl] at hrow
  refine ⟨_, record, o, hrow, hrecord, hobserved, ?_⟩
  cases w.db.syncStates.find? row.key <;> rw [hform] <;> exact ⟨rfl, rfl, rfl⟩

omit [Chrono] in
/-- A step that does not list the pair's binding leaves its pass the listing of the binding that
    the pass had. -/
private theorem ListingOrder.own_concat {key : String × String} {w : SyncWorld}
    {log : List SyncEvent} {e : SyncEvent} (h : ListingOrder worker key w log)
    (hlists : listsBinding key.2 e = false) {l : LastListing} {ℓ : Listing}
    (hl : lastListing key log = some l)
    (hℓ : (passAfter l.thread (log ++ [e])).listing = some ℓ) (hid : ℓ.binding.id = key.2) :
    ℓ = l.listing := by
  obtain ⟨i, c, reply⟩ := e
  rw [passAfter_concat] at hℓ
  split at hℓ
  · rcases PassState.listing_next hℓ with hℓ | ⟨creds, rfl⟩
    · exact h.own l ℓ hl hℓ hid
    · simp [listsBinding, hid] at hlists
  · exact h.own l ℓ hl hℓ hid

omit [Chrono] in
/-- A step that neither lists the binding nor writes the pair changes nothing here. -/
private theorem ListingOrder.step_other {key : String × String} {w w' : SyncWorld}
    {log : List SyncEvent} {e : SyncEvent} (h : ListingOrder worker key w log)
    (hbindings : w'.db.bindings = w.db.bindings)
    (hrecords : w'.db.desiredRecords = w.db.desiredRecords)
    (hlists : listsBinding key.2 e = false) (hwrites : writesTo key [e] = [])
    (hrow : w'.db.syncStates.find? key = w.db.syncStates.find? key) :
    ListingOrder worker key w' (log ++ [e]) := by
  have hlast : lastListing key (log ++ [e]) = lastListing key log :=
    (lastListing_concat key log e).trans (LastListing.next_of_other hlists hwrites _)
  have hsince := since_of_other hlists hwrites
  refine ⟨fun l hl => ?_, fun l ℓ hl hℓ => ?_, fun l j hl hj => ?_, fun l hl hwritten => ?_⟩ <;>
    rw [hlast] at hl
  · rw [hbindings]
    exact h.binding l hl
  · exact h.own_concat hlists hl hℓ
  · rw [hsince]
    exact h.noted l j hl hj
  · obtain ⟨s, record, o, hs, hrecord, ho⟩ := h.shows l hl hwritten
    refine ⟨s, record, o, hrow.trans hs, ?_, ho⟩
    rw [hrecords]
    exact hrecord

/-- A pass that is not overtaken writes the pair: the last listing has now been written if it is
    that of this pass, and it was written before otherwise. -/
private theorem ListingOrder.step_write {key : String × String} {db : Database}
    {w w' : SyncWorld} {log : List SyncEvent} {e : SyncEvent} (h : ListingOrder worker key w log)
    (hrun : SyncRun worker db w log) (hrun' : SyncRun worker db w' (log ++ [e]))
    (hlists : listsBinding key.2 e = false) (hwrites : writesTo key [e] ≠ [])
    (hfirst : (since (listsBinding key.2) key e.thread log).overtaken = false) :
    ListingOrder worker key w' (log ++ [e]) := by
  have hlast : ∀ l', lastListing key (log ++ [e]) = some l' →
      ∃ l, lastListing key log = some l ∧ l'.thread = l.thread ∧ l'.listing = l.listing ∧
        (l'.written = true → l.thread = e.thread ∨ l.written = true) := by
    intro l' hl'
    rw [lastListing_concat, LastListing.next_of_write hwrites] at hl'
    obtain ⟨l, hl, rfl⟩ := Option.map_eq_some_iff.mp hl'
    refine ⟨l, hl, ?_⟩
    by_cases hi : l.thread = e.thread <;> simp [hi]
  have hsince := since_of_write hlists hwrites
  refine ⟨fun l' hl' => ?_, fun l' ℓ hl' hℓ hid => ?_, fun l' j hl' hj => ?_,
    fun l' hl' hwritten => ?_⟩ <;>
    obtain ⟨l, hl, hthread, hlisting, hby⟩ := hlast l' hl'
  · rw [hrun'.bindings, ← hrun.bindings, hlisting]
    exact h.binding l hl
  · rw [hthread] at hℓ
    rw [hlisting]
    exact h.own_concat hlists hl hℓ hid
  · rw [hthread] at hj ⊢
    obtain ⟨hnoted, hovertaken⟩ := h.noted l j hl hj
    rw [hsince]
    refine ⟨hnoted, fun hwritten => ?_⟩
    rcases hby hwritten with hi | hold
    · simp [← hi, hnoted]
    · simp [hovertaken hold]
  · -- the pass is the one of the last listing: another one would be overtaken by it
    have hmine : l.thread = e.thread := by
      by_contra hne
      have hold := (hby hwritten).resolve_left hne
      have hovertaken := (h.noted l e.thread hl (Ne.symm hne)).2 hold
      rw [hfirst] at hovertaken
      cases hovertaken
    rw [hlisting]
    exact hrun.shows_of_write h hrun' hl hmine hwrites

/-- Every allowed command keeps the order of the listings, if a pass that writes the pair is not
    overtaken. -/
theorem ListingOrder.step {env : SyncEnv} {key : String × String} {db : Database} {w : SyncWorld}
    {log : List SyncEvent} (h : ListingOrder worker key w log) (hrun : SyncRun worker db w log)
    {i : Nat} {c : SyncCmd} (hallowed : (passMonitor worker).allows (passAfter i log) c)
    (hrun' : SyncRun worker db (handleSync env c w).2 (log ++ [⟨i, c, (handleSync env c w).1⟩]))
    (hfirst : writesTo key [⟨i, c, (handleSync env c w).1⟩] ≠ [] →
      (since (listsBinding key.2) key i log).overtaken = false) :
    ListingOrder worker key (handleSync env c w).2
      (log ++ [⟨i, c, (handleSync env c w).1⟩]) := by
  cases hlists : listsBinding key.2 ⟨i, c, (handleSync env c w).1⟩ with
  | true =>
    cases c with
    | listRecords b creds => exact step_lists hrun (by simpa [listsBinding] using hlists) hallowed
    | _ => cases hlists
  | false =>
    by_cases hwrites : writesTo key [⟨i, c, (handleSync env c w).1⟩] = []
    · have hrow := hrun.find?_concat hrun' key
      rw [hwrites] at hrow
      exact h.step_other (hrun'.bindings.trans hrun.bindings.symm)
        (hrun'.desiredRecords.trans hrun.desiredRecords.symm) hlists hwrites hrow
    · exact h.step_write hrun hrun' hlists hwrites (hfirst hwrites)

/-! ## Runs -/

variable (worker)

/-- No pass that is overtaken for the pair writes it. -/
def NeverOvertaken (env : SyncEnv) (w : SyncWorld) (passes : List SyncPass) (schedule : List Nat)
    (key : String × String) : Prop :=
  ∀ done i rest, schedule = done ++ i :: rest →
    let pool := (syncPool worker w passes).exec (handleSync env) done
    ∀ e, (pool.step (handleSync env) i).log = pool.log ++ [e] → writesTo key [e] ≠ [] →
      ¬ Overtaken key i pool.log

variable {worker} in
/-- A step of a run keeps both orders, if it writes no pair for which its pass is overtaken. -/
private theorem orders_step {env : SyncEnv} {key : String × String} {db : Database}
    {pool : Pool SyncCmd SyncCmd.Reply SyncWorld} {i : Nat}
    (hrun : Pool.Invariant (passMonitor worker) (SyncRun worker db) pool)
    (hrun' : SyncRun worker db (pool.step (handleSync env) i).state
      (pool.step (handleSync env) i).log)
    (hfirst : ∀ e, (pool.step (handleSync env) i).log = pool.log ++ [e] → writesTo key [e] ≠ [] →
      ¬ Overtaken key i pool.log)
    (hclocks : ClockOrder env key pool.state pool.log)
    (hlistings : ListingOrder worker key pool.state pool.log) :
    ClockOrder env key (pool.step (handleSync env) i).state (pool.step (handleSync env) i).log ∧
      ListingOrder worker key (pool.step (handleSync env) i).state
        (pool.step (handleSync env) i).log ∧
      NotBackwards key pool.state (pool.step (handleSync env) i).state := by
  rcases hrun.step_cases (h := handleSync env) i with hsame | ⟨c, hallowed, hstate, hlog⟩
  · -- the pass has ended already
    rw [hsame]
    exact ⟨hclocks, hlistings, fun u hu => ⟨u, hu, le_rfl⟩⟩
  · have hnot := hfirst _ hlog
    rw [hstate, hlog] at hrun' ⊢
    obtain ⟨hclocks', hback⟩ := hclocks.step hrun.holds hrun' fun hw =>
      Bool.eq_false_iff.mpr fun ho => hnot hw (.inl ho)
    have hlistings' := hlistings.step hrun.holds hallowed hrun' fun hw =>
      Bool.eq_false_iff.mpr fun ho => hnot hw (.inr ho)
    exact ⟨hclocks', hlistings', hback⟩

/-- Over any run of observe and retry passes in which no pass writes a pair for which it has been
    overtaken, and the clock goes on: in every state the row of the pair is the observation in
    the last listing of the binding, as soon as the pass that made it has written the pair, and
    no step moves the time of the row backwards. -/
theorem freshest_observation_wins {env : SyncEnv} {w : SyncWorld} {passes : List SyncPass}
    {schedule : List Nat} {key : String × String} (hclock : SteadyClock env w key)
    (hfirst : NeverOvertaken worker env w passes schedule key) :
    ∀ done rest, schedule = done ++ rest →
      let pool := (syncPool worker w passes).exec (handleSync env) done
      ShowsLastListing pool.state key pool.log ∧
        ∀ i rest', rest = i :: rest' →
          NotBackwards key pool.state (pool.step (handleSync env) i).state := by
  have hrun : ∀ done, Pool.Invariant (passMonitor worker) (SyncRun worker w.db)
      ((syncPool worker w passes).exec (handleSync env) done) := syncRun_exec env w passes
  have hrun' : ∀ done i, SyncRun worker w.db
      (((syncPool worker w passes).exec (handleSync env) done).step (handleSync env) i).state
      (((syncPool worker w passes).exec (handleSync env) done).step (handleSync env) i).log := by
    intro done i
    rw [← Pool.exec_concat]
    exact (hrun (done ++ [i])).holds
  -- both orders hold after every part of the schedule
  have horders : ∀ done rest, schedule = done ++ rest →
      ClockOrder env key ((syncPool worker w passes).exec (handleSync env) done).state
          ((syncPool worker w passes).exec (handleSync env) done).log ∧
        ListingOrder worker key ((syncPool worker w passes).exec (handleSync env) done).state
          ((syncPool worker w passes).exec (handleSync env) done).log := by
    intro done
    induction done using List.reverseRecOn with
    | nil => exact fun _ _ => ⟨.start hclock, .start key w⟩
    | append_singleton done i ih =>
      intro rest hsplit
      have hsplit' : schedule = done ++ i :: rest := by simp [hsplit]
      obtain ⟨hclocks, hlistings⟩ := ih _ hsplit'
      obtain ⟨hclocks', hlistings', -⟩ :=
        orders_step (hrun done) (hrun' done i) (hfirst done i rest hsplit') hclocks hlistings
      rw [Pool.exec_concat]
      exact ⟨hclocks', hlistings'⟩
  intro done rest hsplit pool
  obtain ⟨hclocks, hlistings⟩ := horders done rest hsplit
  refine ⟨hlistings.shows, fun i rest' hrest => ?_⟩
  subst hrest
  exact (orders_step (hrun done) (hrun' done i) (hfirst done i rest' hsplit) hclocks hlistings).2.2

end Worker

section Sample

attribute [local instance] Sample.cryptoLib Sample.serdeJson Sample.unicodeData Sample.clock

/-- The zone with two bindings, where `www` failed to synchronise with `b1`. -/
def failedWww : Database :=
  { Sample.twoBindings with
    syncStates := ⟨[Sample.failedRow "r1" "b1"], List.nodup_singleton _⟩
    syncRecord := fun s hs => by
      rw [List.mem_singleton.mp hs]
      exact List.mem_cons_self
    syncBinding := fun s hs => by
      rw [List.mem_singleton.mp hs]
      exact List.mem_cons_self }

/-- The first listing is refused, the later ones show `www`; a second passes with every reading of
    the clock. -/
def recovering : SyncEnv :=
  { Sample.syncEnv [Sample.www "192.0.2.1"] with
    listings := fun n _ _ =>
      if n = 0 then .error .rateLimitExceeded else .ok [Sample.www "192.0.2.1"]
    now := fun n => 1705322096000000000 + 1000000000 * min n 2 }

/-- This clock goes on. -/
theorem steadyClock_recovering : SteadyClock recovering { db := failedWww } ("r1", "b1") where
  mono m n _ hmn := by
    change 1705322096000000000 + 1000000000 * ((min m 2 : Nat) : Int) ≤
      1705322096000000000 + 1000000000 * ((min n 2 : Nat) : Int)
    omega
  stored u hu := by
    have hstored : SyncWorld.observedAt { db := failedWww } ("r1", "b1") =
        some 1705322090000000000 := by
      decide +kernel
    obtain rfl := Option.some.inj (hstored.symm.trans hu)
    decide
  parse n _ := by
    change Chrono.parseFromRfc3339 (Chrono.toRfc3339
        (1705322096000000000 + 1000000000 * ((min n 2 : Nat) : Int))) =
      some (1705322096000000000 + 1000000000 * ((min n 2 : Nat) : Int))
    have hcases : min n 2 = 0 ∨ min n 2 = 1 ∨ min n 2 = 2 := by omega
    rcases hcases with h | h | h <;> rw [h] <;> decide +kernel

/-- One pass of each loop over this zone. -/
def bothPasses : Pool SyncCmd SyncCmd.Reply SyncWorld :=
  syncPool Sample.worker { db := failedWww } [.observe, .retry Sample.insertionOrder]

/-- A retry pass is refused, but before it writes so an observe pass has found `www` in sync. -/
def overtakenRetry : Pool SyncCmd SyncCmd.Reply SyncWorld :=
  bothPasses.exec (handleSync recovering) (List.replicate 5 1 ++ List.replicate 11 0)

/-- The retry pass writes last: the row has its older listing and its older time, although the
    last listing was the one of the observe pass. -/
theorem overtakenRetry_wins :
    let last := overtakenRetry.step (handleSync recovering) 1
    (last.threads.map fun | .ret _ => true | _ => false) = [true, true] ∧
      (last.state.db.syncStates.find? ("r1", "b1")).map (·.status) = some .syncFailed ∧
      ¬ ShowsLastListing last.state ("r1", "b1") last.log ∧
      ¬ NotBackwards ("r1", "b1") overtakenRetry.state last.state := by
  intro last
  have hlast : lastListing ("r1", "b1") last.log = some ⟨0, ⟨Sample.binding "b1" "Z1",
      Sample.credentials, .ok [Sample.www "192.0.2.1"]⟩, true⟩ := by
    decide +kernel
  have hrow : (last.state.db.syncStates.find? ("r1", "b1")).map (·.status) = some .syncFailed := by
    decide +kernel
  refine ⟨by decide +kernel, hrow, fun hshows => ?_, fun hnot => ?_⟩
  · -- the listing of the observe pass shows `www` in sync
    obtain ⟨s, record, o, hs, hrecord, hobserved, hstatus, -⟩ := hshows _ hlast rfl
    have hinSync : ((last.state.db.desiredRecords.find? "r1").bind fun record =>
        (observation (Listing.fetched ⟨Sample.binding "b1" "Z1", Sample.credentials,
          .ok [Sample.www "192.0.2.1"]⟩) record).map (·.status)) = some .inSync := by
      decide +kernel
    rw [hrecord, Option.bind_some, hobserved, Option.map_some, ← hstatus] at hinSync
    rw [hs, Option.map_some, Option.some.inj hinSync] at hrow
    cases hrow
  · have hbefore : overtakenRetry.state.observedAt ("r1", "b1") = some 1705322098000000000 := by
      decide +kernel
    have hafter : last.state.observedAt ("r1", "b1") = some 1705322097000000000 := by
      decide +kernel
    obtain ⟨u, hu, hle⟩ := hnot _ hbefore
    obtain rfl := Option.some.inj (hafter.symm.trans hu)
    omega

/-- The observe pass has taken its time and listed the binding when the retry pass writes. -/
def inTurn : List Nat := List.replicate 5 1 ++ List.replicate 4 0 ++ [1] ++ List.replicate 7 0

/-- The retry pass writes first, so neither is overtaken when it writes. -/
theorem freshest_observation_wins_in_turn :
    ShowsLastListing (bothPasses.exec (handleSync recovering) inTurn).state ("r1", "b1")
      (bothPasses.exec (handleSync recovering) inTurn).log := by
  have hall : ((List.range 17).all fun k =>
      let pool := bothPasses.exec (handleSync recovering) (inTurn.take k)
      let i := inTurn.getD k 0
      decide (writesTo ("r1", "b1") ((pool.step (handleSync recovering) i).log.drop pool.log.length) =
        [] ∨ ¬ Overtaken ("r1", "b1") i pool.log)) = true := by
    decide +kernel
  have hfirst : NeverOvertaken Sample.worker recovering { db := failedWww }
      [.observe, .retry Sample.insertionOrder] inTurn ("r1", "b1") := by
    intro done i rest hsplit pool e hlog hwrites
    have hlength : done.length < 17 := by
      have hlength := congrArg List.length hsplit
      simp only [inTurn, List.length_append, List.length_replicate, List.length_cons,
        List.length_nil] at hlength
      omega
    have hstep := of_decide_eq_true (List.all_eq_true.mp hall _ (List.mem_range.mpr hlength))
    have hi : inTurn.getD done.length 0 = i := by simp [hsplit]
    have hdone : inTurn.take done.length = done := by rw [hsplit, List.take_left]
    rw [hi, hdone] at hstep
    change writesTo _ (List.drop pool.log.length (pool.step (handleSync recovering) i).log) = [] ∨ _
      at hstep
    rw [hlog, List.drop_left] at hstep
    exact hstep.resolve_left hwrites
  unfold bothPasses
  exact (freshest_observation_wins Sample.worker steadyClock_recovering hfirst inTurn []
    (List.append_nil _).symm).1

end Sample

end DnsManager
