import DnsManager.Spec.SyncHistory

/-!
# The sync states say what was seen

A sync state that is not `sync_failed` is the outcome of a comparison: a loop has read the clock,
has listed the zone of the binding after that, and has compared the desired record with what the
listing showed. This holds at every moment of every run, though any number of loops write the rows.

## Key results
- `process_rows_seen`: the comparison behind each row.
-/

namespace DnsManager

open Prog (Pool)

/-! ## The order of what a loop has read -/

section Order

/-- What a loop has read. -/
private def passRead (log : SyncLog) : PassState := log.foldl (fun σ e => σ.next e.1 e.2) {}

private theorem passRead_concat (log : SyncLog) (c : SyncCmd) (r : c.Reply) :
    passRead (log ++ [⟨c, r⟩]) = (passRead log).next c r := List.foldl_append

/-- The time a loop writes by was read from the clock. -/
private theorem exists_of_instant {log : SyncLog} {t : Int}
    (h : (passRead log).instant = some t) :
    ∃ before after, log = before ++ ⟨.utcNow, t⟩ :: after := by
  induction log using List.reverseRecOn with
  | nil => cases h
  | append_singleton log e ih =>
    obtain ⟨c, r⟩ := e
    rw [passRead_concat] at h
    by_cases hclock : c = .utcNow
    · -- this is the reading
      subst hclock
      cases h
      exact ⟨log, [], rfl⟩
    · have hkept : (passRead log).instant = some t := by
        rwa [← ((passRead log).next_keeps r hclock).1]
      obtain ⟨before, after, rfl⟩ := ih hkept
      exact ⟨before, after ++ [⟨c, r⟩], by simp⟩

/-- The listing a loop writes by was made after that. -/
private theorem exists_of_listing {log : SyncLog} {t : Int} {ℓ : Listing}
    (hinstant : (passRead log).instant = some t)
    (hlisting : (passRead log).listing = some ℓ) :
    ∃ before mid after, log =
      before ++ ⟨.utcNow, t⟩ :: (mid ++ ⟨.listRecords ℓ.binding ℓ.creds, ℓ.reply⟩ :: after) := by
  induction log using List.reverseRecOn with
  | nil => cases hinstant
  | append_singleton log e ih =>
    obtain ⟨c, r⟩ := e
    rw [passRead_concat] at hinstant hlisting
    by_cases hclock : c = .utcNow
    · -- the clock has been read again, and nothing was listed since
      subst hclock
      cases hlisting
    · by_cases hlists : ∃ b creds, c = .listRecords b creds
      · -- this is the listing
        obtain ⟨b, creds, rfl⟩ := hlists
        cases hlisting
        obtain ⟨before, mid, rfl⟩ := exists_of_instant hinstant
        exact ⟨before, mid, [], by simp⟩
      · obtain ⟨hinstant', hkept⟩ := (passRead log).next_keeps r hclock
        have hlisting' := hkept fun b creds heq => hlists ⟨b, creds, heq⟩
        obtain ⟨before, mid, after, rfl⟩ := ih (hinstant'.symm.trans hinstant)
          (hlisting'.symm.trans hlisting)
        exact ⟨before, mid, after ++ [⟨c, r⟩], by simp⟩

variable [SerdeJson]

/-- A command of a synchronisation loop stands in the log of its thread between those before and
    after it. -/
private theorem exists_of_syncPart_eq {log : List (Sigma SystemCmd.Reply)} {l₁ l₂ : SyncLog}
    {e : Sigma SyncCmd.Reply} (h : syncPart log = l₁ ++ e :: l₂) :
    ∃ m₁ m₂, log = m₁ ++ ⟨.sync e.1, e.2⟩ :: m₂ ∧ syncPart m₂ = l₂ := by
  obtain ⟨pre, rest, rfl, -, hrest⟩ := List.filterMap_eq_append_iff.mp h
  obtain ⟨skipped, x, post, rfl, -, hx, hpost⟩ := List.filterMap_eq_cons_iff.mp hrest
  obtain ⟨c, r⟩ := x
  cases c with
  | sync c =>
    cases hx
    exact ⟨pre ++ skipped, post, by simp, hpost⟩
  | _ => cases hx

end Order

/-! ## Comparisons -/

section Comparisons

variable [SerdeJson]

/-- A desired record is compared with what a listing of a binding's zone has shown, after the clock
    was read. -/
structure Comparison where
  record : DesiredRecord
  binding : ProviderBinding
  instant : Int
  records : List ProviderRecord

/-- One thread has read the clock and then listed the zone. -/
def Comparison.MadeIn (o : Comparison) (entries : List SystemEntry) : Prop :=
  ∃ i creds u v pre mid post, entries = pre ++ ⟨u, ⟨i, .sync .utcNow, o.instant⟩⟩ ::
    (mid ++ ⟨v, ⟨i, .sync (.listRecords o.binding creds), .ok o.records⟩⟩ :: post)

theorem Comparison.MadeIn.append {o : Comparison} {entries : List SystemEntry}
    (h : o.MadeIn entries) (later : List SystemEntry) : o.MadeIn (entries ++ later) := by
  obtain ⟨i, creds, u, v, pre, mid, post, rfl⟩ := h
  exact ⟨i, creds, u, v, pre, mid, post ++ later, by simp⟩

variable [UnicodeData] [Chrono]

/-- The row says what the comparison finds. -/
structure Comparison.Gives (o : Comparison) (db : Database) (st : SyncState) : Prop where
  record : o.record ∈ db.desiredRecords
  binding : o.binding ∈ db.bindings
  key : st.key = (o.record.id, o.binding.id)
  observedAt : st.lastObservedAt = some (Chrono.toRfc3339 o.instant)
  found : observation (.ok (actualMap o.records)) o.record =
    some ⟨st.lastObservedValue, st.status, st.lastError⟩

variable [CryptoLib]

omit [UnicodeData] [Chrono] in
/-- A fetch that succeeds has listed the binding's zone. -/
private theorem listed_of_fetched {worker : ReconcileWorker} {b : ProviderBinding}
    {listing : Option Listing} {actual : RecordKey → Option ProviderRecord}
    (h : Fetched worker b listing (.ok actual)) :
    ∃ creds records, listing = some ⟨b, creds, .ok records⟩ ∧ actual = actualMap records := by
  generalize hfetched : Except.ok actual = fetched at h
  cases h with
  | noAdapter => cases hfetched
  | noCredentials => cases hfetched
  | listed creds reply =>
    cases reply with
    | error e => cases hfetched
    | ok records =>
      cases hfetched
      exact ⟨creds, records, rfl, rfl⟩

/-- What the loops have read is in the database. -/
def ReadRows (entries : List SystemEntry) (db : Database) : Prop :=
  ∀ i, (passAfter i (syncEvents entries)).ReadFrom db

omit [SerdeJson] [UnicodeData] [Chrono] [CryptoLib] in
private theorem readFrom_mono {σ : PassState} {db db' : Database} (h : σ.ReadFrom db)
    (hgrows : db.Grows db') : σ.ReadFrom db' :=
  ⟨fun p hp => ⟨hgrows.bindings.mem (h.bindings p hp).1, (h.bindings p hp).2⟩,
    fun p hp => ⟨hgrows.desiredRecords.mem (h.records p hp).1, (h.records p hp).2⟩⟩

omit [UnicodeData] [Chrono] [CryptoLib] in
/-- Every command keeps it. -/
theorem ReadRows.step {env : SystemEnv} {entries : List SystemEntry} {s : SystemState}
    (h : ReadRows entries s.db) (i : Nat) (c : SystemCmd) :
    ReadRows (entries ++ [⟨s, ⟨i, c, (handleSystem env c s).1⟩⟩]) (handleSystem env c s).2.db := by
  have hgrows := ((guarantee_keeps env).step c s).grows
  intro j
  rw [syncEvents_append]
  cases c with
  | sync c =>
    rw [show syncEvents [(⟨s, ⟨i, .sync c, (handleSystem env (.sync c) s).1⟩⟩ : SystemEntry)] =
      [⟨i, c, (handleSync env.sync c s.syncWorld).1⟩] from rfl, passAfter_concat]
    split
    · -- the loop that issued the command has read its reply
      exact readFrom_mono ((h j).next env.sync c) hgrows
    · exact readFrom_mono (h j) hgrows
  | apply c => exact readFrom_mono (by simpa [syncEvents] using h j) hgrows
  | api c => exact readFrom_mono (by simpa [syncEvents] using h j) hgrows

omit [UnicodeData] [Chrono] [CryptoLib] in
/-- The listing a loop writes by, in the trail. -/
private theorem madeIn_of_passAfter {entries : List SystemEntry} {i : Nat} {t : Int}
    {b : ProviderBinding} {creds : Credentials} {records : List ProviderRecord}
    (hinstant : (passAfter i (syncEvents entries)).instant = some t)
    (hlisting : (passAfter i (syncEvents entries)).listing = some ⟨b, creds, .ok records⟩)
    (record : DesiredRecord) : Comparison.MadeIn ⟨record, b, t, records⟩ entries := by
  rw [passAfter_syncEvents] at hinstant hlisting
  obtain ⟨before, mid, after, hpart⟩ := exists_of_listing hinstant hlisting
  obtain ⟨own₁, rest, hown, hrest⟩ := exists_of_syncPart_eq hpart
  obtain ⟨own₂, own₃, rfl, -⟩ := exists_of_syncPart_eq hrest
  obtain ⟨pre, x, post, rfl, -, hpost, hx, heq⟩ := Pool.exists_of_own_eq hown
  obtain ⟨mid, y, post, rfl, -, -, hy, heq'⟩ := Pool.exists_of_own_eq hpost
  obtain ⟨u, j, c, r⟩ := x
  obtain ⟨v, k, d, q⟩ := y
  cases heq
  cases heq'
  obtain rfl := hx
  obtain rfl := hy
  exact ⟨_, creds, u, v, pre, mid, post, rfl⟩

/-- The rows are what the writes to their pairs leave of those at the start. Each write follows from
    what its loop has read, which is in the database. -/
structure RowsDerived (start : Database) (entries : List SystemEntry) (db : Database) : Prop where
  rows : SyncRowsWritten start entries db
  writes : ∀ pre u post (e : SyncEvent) row,
    entries = pre ++ ⟨u, e.thread, .sync e.cmd, e.reply⟩ :: post → written e = some row →
      (passAfter e.thread (syncEvents pre)).ReadFrom db ∧
        ∃ worker : ReconcileWorker, (passAfter e.thread (syncEvents pre)).Justifies worker row

/-- A row that is not `sync_failed` is then one of the start, or what a comparison gave. -/
theorem RowsDerived.comparison {start db : Database} {entries : List SystemEntry}
    (h : RowsDerived start entries db) {st : SyncState} (hst : st ∈ db.syncStates)
    (hstatus : st.status ≠ .syncFailed) :
    start.syncStates.find? st.key = some st ∨
      ∃ o : Comparison, o.MadeIn entries ∧ o.Gives db st := by
  have hlast := h.rows st.key
  rw [Table.find?_eq_some.mpr ⟨hst, rfl⟩] at hlast
  rcases List.eq_nil_or_concat' (writesTo st.key (syncEvents entries)) with
    hnone | ⟨writes, row, hconcat⟩
  · -- nothing was written to the pair
    rw [hnone] at hlast
    exact .inl hlast.symm
  · right
    rw [hconcat, rowAfter_concat] at hlast
    have hrow : row ∈ writesTo st.key (syncEvents entries) := by
      rw [hconcat]
      exact List.mem_append_right _ List.mem_cons_self
    -- the columns are those of the last write, which stands somewhere in the trail
    obtain ⟨⟨e, he, hwritten⟩, hkey⟩ := mem_writesTo.mp hrow
    obtain ⟨pre', post', hlog⟩ := List.append_of_mem he
    obtain ⟨pre, u, post, rfl, rfl⟩ := exists_of_syncEvents_eq hlog
    obtain ⟨hread, worker, hjustified⟩ := h.writes pre u post e row rfl hwritten
    obtain ⟨old, rfl⟩ : ∃ old, st = row.upserted old := ⟨_, Option.some.inj hlast⟩
    cases hjustified with
    | failed recordId hbinding hinstant hfetched =>
      rw [SyncState.status_upserted] at hstatus
      exact absurd rfl hstatus
    | @compared bindingId recordId b t actual record o hbinding hinstant hfetched hrecord hobserved =>
      obtain ⟨creds, records, hlisting, rfl⟩ := listed_of_fetched hfetched
      -- what was read is in the database under the ids of the row
      obtain ⟨hb, hbid⟩ := hread.bindings _ hbinding
      obtain ⟨hr, hrid⟩ := hread.records _ hrecord
      dsimp only at hbid hrid
      refine ⟨⟨record, b, t, records⟩, (madeIn_of_passAfter hinstant hlisting record).append _,
        ⟨hr, hb, ?_, ?_, ?_⟩⟩
      · rw [hrid, hbid]
        exact hkey.symm
      · rw [SyncState.lastObservedAt_upserted]
        rfl
      · rw [hobserved]
        simp [Observation.row]

variable [Sha256]

/-- The rows of every run are derived from what its loops have read. -/
theorem rowsDerived_trail (state : AppState) (requests : List Request) (runs : List WorkerRun)
    (env : SystemEnv) (s : SystemState) (schedule : List Nat) :
    RowsDerived s.db ((process state requests runs s).trail (handleSystem env) schedule)
      ((process state requests runs s).exec (handleSystem env) schedule).state.db where
  rows := syncRowsWritten_trail state requests runs env s schedule
  writes pre u post e row hsplit hwritten := by
    have hread : ReadRows pre u.db :=
      (Pool.trail_invariant_split (J := fun entries t => ReadRows entries t.db)
        (obeys_process_sanctioned state requests runs s) (fun _ => ⟨nofun, nofun⟩)
        (fun _ _ i c h _ => h.step i c) hsplit).1
    have hmem : ⟨u, e.thread, .sync e.cmd, e.reply⟩ ∈
        (process state requests runs s).trail (handleSystem env) schedule := by
      rw [hsplit]
      exact List.mem_append_right _ List.mem_cons_self
    -- the tables grow from then on
    have hkeeps := (guarantee_keeps env).step (.sync e.cmd) u
    have hgrows := (hkeeps.trans ((guarantee_keeps env).trail_exec hmem)).grows
    obtain ⟨run, -, hjustified⟩ := justified_of_split hsplit hwritten
    exact ⟨readFrom_mono (hread _) hgrows, run.worker, hjustified⟩

/-- At every moment of every run a sync state that is not `sync_failed` is one of the start, or what
    a comparison gave that a loop has made. -/
theorem process_rows_seen (state : AppState) (requests : List Request) (runs : List WorkerRun)
    (env : SystemEnv) (s : SystemState) (schedule : List Nat) :
    ∀ st ∈ ((process state requests runs s).exec (handleSystem env) schedule).state.db.syncStates,
      st.status ≠ .syncFailed → s.db.syncStates.find? st.key = some st ∨
        ∃ o : Comparison,
          o.MadeIn ((process state requests runs s).trail (handleSystem env) schedule) ∧
          o.Gives ((process state requests runs s).exec (handleSystem env) schedule).state.db st := by
  intro st hst hstatus
  exact (rowsDerived_trail state requests runs env s schedule).comparison hst hstatus

end Comparisons

/-! ## A run of the sample -/

section Sample

open Sample

private def observeOnce : WorkerRun := ⟨worker, 0, 1, []⟩

/-- Every listing shows `www` as it is desired. -/
private def showingEnv : SystemEnv := ⟨systemEnv.apply, syncEnv [www "192.0.2.1"]⟩

/-- The pass finds the record in the zone of the first binding. -/
private theorem status_observed :
    (((process appState [] [observeOnce] systemState).exec (handleSystem showingEnv)
      (List.replicate 8 1)).state.db.syncStates.find? ("r1", "b1")).map (·.status) =
        some .inSync := by
  decide +kernel

theorem process_rows_seen_www :
    ∃ st ∈ ((process appState [] [observeOnce] systemState).exec (handleSystem showingEnv)
        (List.replicate 8 1)).state.db.syncStates, st.key = ("r1", "b1") ∧ st.status = .inSync ∧
      ∃ o : Comparison,
        o.MadeIn ((process appState [] [observeOnce] systemState).trail (handleSystem showingEnv)
          (List.replicate 8 1)) ∧
        o.Gives ((process appState [] [observeOnce] systemState).exec (handleSystem showingEnv)
          (List.replicate 8 1)).state.db st := by
  obtain ⟨st, hst, hstatus⟩ := Option.map_eq_some_iff.mp status_observed
  obtain ⟨hmem, hkey⟩ := Table.find?_eq_some.mp hst
  have hresolved : st.status ≠ .syncFailed := by
    rw [hstatus]
    decide
  rcases process_rows_seen appState [] [observeOnce] showingEnv systemState (List.replicate 8 1) st
    hmem hresolved with hstart | hseen
  · -- the table was empty
    rw [hkey] at hstart
    cases hstart
  · exact ⟨st, hmem, hkey, hstatus, hseen⟩

end Sample

end DnsManager
