import DnsManager.Spec.Custody
import DnsManager.Spec.Provenance
import DnsManager.Spec.SyncRows

/-!
# The sync states of the process

The loops of any number of runs of the worker write `sync_states` beside each other, while zones,
records and bindings are created. Every row pairs a record with a binding of its zone, which no
constraint of the schema says, and its columns tell what was written to the pair.

## Key results
- `process_sync_same_zone`: the record and the binding of every row are of one zone.
- `process_syncRowInvariant`: the columns of every row fit the writes to its pair.
-/

namespace DnsManager

open Prog (Pool)

/-! ## Pairs of one zone -/

/-- The record and the binding are of one zone. -/
def SameZone (db : Database) (recordId bindingId : String) : Prop :=
  ∃ record ∈ db.desiredRecords, ∃ binding ∈ db.bindings,
    record.id = recordId ∧ binding.id = bindingId ∧ record.zoneId = binding.zoneId

theorem SameZone.mono {db db' : Database} (hgrows : db.Grows db') {recordId bindingId : String}
    (h : SameZone db recordId bindingId) : SameZone db' recordId bindingId := by
  obtain ⟨record, hrecord, binding, hbinding, h⟩ := h
  exact ⟨record, hgrows.desiredRecords.mem hrecord, binding, hgrows.bindings.mem hbinding, h⟩

/-- A record that is desired of a binding is of its zone. -/
theorem sameZone_of_mem_desiredOf {db : Database} {bindingId : String} {row : DesiredRecord}
    (h : row ∈ db.desiredOf bindingId) : SameZone db row.id bindingId := by
  unfold Database.desiredOf at h
  split at h
  · cases h
  · next b hb =>
    obtain ⟨hmem, rfl⟩ := Table.find?_eq_some.mp hb
    obtain ⟨hrow, hzone⟩ := Table.mem_select.mp h
    have hzone : row.zoneId = b.zoneId := by simp at hzone; exact hzone.1
    exact ⟨row, hrow, b, hmem, rfl, rfl, hzone⟩

section Zones

variable [SerdeJson]

/-- A reply from which a loop takes the pairs it writes names pairs of one zone. -/
def ReplyZones (db : Database) : (c : SystemCmd) → c.Reply → Prop
  | .sync (.selectDesired bindingId), .ok rows => ∀ row ∈ rows, SameZone db row.id bindingId
  | .sync .selectFailed, .ok rows =>
    ∀ entry ∈ rows, SameZone db entry.recordId entry.providerBindingId
  | .sync (.selectBinding id), .ok (some b) => b.id = id
  | _, _ => True

theorem ReplyZones.mono {db db' : Database} (hgrows : db.Grows db') {c : SystemCmd} {r : c.Reply}
    (h : ReplyZones db c r) : ReplyZones db' c r := by
  unfold ReplyZones at h ⊢
  split
  · exact fun row hrow => (h row hrow).mono hgrows
  · exact fun entry hentry => (h entry hentry).mono hgrows
  · exact h
  · trivial

/-- The replies of a state whose rows pair records and bindings of one zone. -/
theorem replyZones_handleSystem {env : SystemEnv} {s : SystemState}
    (hrows : ∀ st ∈ s.db.syncStates, SameZone s.db st.recordId st.providerBindingId)
    (c : SystemCmd) : ReplyZones s.db c (handleSystem env c s).1 := by
  cases c with
  | apply c => trivial
  | api c => trivial
  | sync c =>
    cases c with
    | selectDesired bindingId =>
      have hreply : (handleSystem env (.sync (.selectDesired bindingId)) s).1 =
        (s.syncWorld.query env.sync (·.desiredOf bindingId)).1 := rfl
      rcases s.syncWorld.query_cases env.sync (·.desiredOf bindingId) with ⟨e, h⟩ | h
      · rw [hreply, h]
        trivial
      · rw [hreply, h]
        exact fun row hrow => sameZone_of_mem_desiredOf hrow
    | selectFailed =>
      have hreply : (handleSystem env (.sync .selectFailed) s).1 =
        (s.syncWorld.query env.sync (·.failedRows)).1 := rfl
      rcases s.syncWorld.query_cases env.sync (·.failedRows) with ⟨e, h⟩ | h
      · rw [hreply, h]
        trivial
      · rw [hreply, h]
        intro entry hentry
        -- a failed row is one of the table
        obtain ⟨st, hst, rfl⟩ := List.mem_map.mp ((List.mem_insertionSort _).mp hentry)
        exact hrows st (Table.mem_select.mp hst).1
    | selectBinding id =>
      have hreply : (handleSystem env (.sync (.selectBinding id)) s).1 =
        (s.syncWorld.query env.sync (·.bindings.find? id)).1 := rfl
      rcases s.syncWorld.query_cases env.sync (·.bindings.find? id) with ⟨e, h⟩ | h
      · rw [hreply, h]
        trivial
      · rw [hreply, h]
        cases hfind : s.syncWorld.db.bindings.find? id with
        | none => trivial
        | some b => exact (Table.find?_eq_some.mp hfind).2
    | _ => trivial

/-- A pair a loop was shown is of one zone. -/
theorem sameZone_of_pairShown {db : Database} {log : List (Sigma SystemCmd.Reply)}
    (hshown : ∀ e ∈ log, ReplyZones db e.1 e.2) {recordId bindingId : String}
    (h : PairShown (syncPart log) recordId bindingId) : SameZone db recordId bindingId := by
  cases h with
  | desired hread hrow hid =>
    obtain rfl := hid
    exact hshown _ (mem_syncPart.mp hread) _ hrow
  | failed hread hentry hid =>
    obtain rfl := hid
    exact hshown _ (mem_syncPart.mp hread) _ hentry
  | @found rows entry b hread hentry hid hbinding =>
    obtain rfl := hid
    have hb : b.id = entry.providerBindingId := hshown _ (mem_syncPart.mp hbinding)
    rw [hb]
    exact hshown _ (mem_syncPart.mp hread) _ hentry

/-- The rows of the state and the replies so far name pairs of one zone. -/
structure SyncZones (entries : List SystemEntry) (s : SystemState) : Prop where
  rows : ∀ st ∈ s.db.syncStates, SameZone s.db st.recordId st.providerBindingId
  shown : ∀ x ∈ entries, ReplyZones s.db x.event.cmd x.event.reply

variable [CryptoLib] [Sha256] [UnicodeData] [Chrono]

/-- Only a run of the worker writes a sync state, for a pair it was shown. -/
theorem pairShown_of_sanctioned {state : AppState} {requests : List Request} {runs : List WorkerRun}
    {log : List (Sigma SystemCmd.Reply)} {row : SyncState}
    (h : Sanctioned state requests runs log (.sync (.upsertSyncState row))) :
    PairShown (syncPart log) row.recordId row.providerBindingId := by
  rcases h with ⟨request, -, h⟩ | ⟨run, -, h⟩
  · cases request <;> exact absurd h (acts_eq_false_of rfl)
  · exact h.origin

/-- Every sanctioned command keeps it. -/
theorem SyncZones.step {state : AppState} {requests : List Request} {runs : List WorkerRun}
    {env : SystemEnv} {entries : List SystemEntry} {s : SystemState} {i : Nat} {c : SystemCmd}
    (h : SyncZones entries s) (hc : Sanctioned state requests runs (Pool.own i entries) c) :
    SyncZones (entries ++ [⟨s, ⟨i, c, (handleSystem env c s).1⟩⟩]) (handleSystem env c s).2 := by
  have hgrows := ((guarantee_keeps env).step c s).grows
  refine ⟨fun st hst => ?_, fun x hx => ?_⟩
  · rcases (handleSystem_adds env c s).syncStates with hsame | ⟨row, rfl, hrow⟩
    · rw [hsame] at hst
      exact (h.rows st hst).mono hgrows
    · -- the row that was written is under the key of its pair, the others are what they were
      have hown : ∀ e ∈ Pool.own i entries, ReplyZones s.db e.1 e.2 := by
        rintro ⟨c, r⟩ he
        obtain ⟨x, hx, -, heq⟩ := Pool.mem_own.mp he
        obtain ⟨u, j, d, q⟩ := x
        cases heq
        exact h.shown _ hx
      have hpair := sameZone_of_pairShown hown (pairShown_of_sanctioned hc)
      have hfind : (handleSystem env (.sync (.upsertSyncState row)) s).2.db.syncStates.find? st.key =
          some st := Table.find?_eq_some.mpr ⟨hst, rfl⟩
      rw [Database.find?_upsertSyncState hrow] at hfind
      split at hfind
      · next hkey =>
        obtain ⟨hrecord, hbinding⟩ := Prod.mk.inj hkey
        rw [← hrecord, ← hbinding]
        exact hpair.mono hgrows
      · exact (h.rows st (Table.find?_eq_some.mp hfind).1).mono hgrows
  · rcases List.mem_append.mp hx with hx | hx
    · exact (h.shown x hx).mono hgrows
    · rw [List.mem_singleton.mp hx]
      exact (replyZones_handleSystem h.rows c).mono hgrows

/-- If every sync state pairs a record with a binding of its zone at the start, it does so at every
    moment of every run. -/
theorem process_sync_same_zone (state : AppState) (requests : List Request)
    (runs : List WorkerRun) (env : SystemEnv) (s : SystemState) (schedule : List Nat)
    (hstart : ∀ st ∈ s.db.syncStates, SameZone s.db st.recordId st.providerBindingId) :
    ∀ st ∈ ((process state requests runs s).exec (handleSystem env) schedule).state.db.syncStates,
      SameZone ((process state requests runs s).exec (handleSystem env) schedule).state.db
        st.recordId st.providerBindingId :=
  (Pool.trail_invariant (J := SyncZones) (obeys_process_sanctioned state requests runs s)
    ⟨hstart, List.forall_mem_nil _⟩ (fun _ _ _ _ h hc => h.step hc) schedule).rows

end Zones

/-! ## The columns of a row -/

section Columns

variable [SerdeJson]

/-- The events of the synchronisation loops. -/
def syncEvents (entries : List SystemEntry) : List SyncEvent :=
  entries.filterMap fun x => match x.event with
    | ⟨i, .sync c, r⟩ => some ⟨i, c, r⟩
    | _ => none

theorem syncEvents_append (entries entries' : List SystemEntry) :
    syncEvents (entries ++ entries') = syncEvents entries ++ syncEvents entries' :=
  List.filterMap_append

/-- What a thread has read is told by its own commands. -/
theorem passAfter_syncEvents (i : Nat) (entries : List SystemEntry) :
    passAfter i (syncEvents entries) =
      (syncPart (Pool.own i entries)).foldl (fun σ e => σ.next e.1 e.2) {} := by
  induction entries using List.reverseRecOn with
  | nil => rfl
  | append_singleton entries x ih =>
    obtain ⟨u, j, c, r⟩ := x
    rw [syncEvents_append, Pool.own_append, syncPart_append, List.foldl_append, ← ih]
    cases c with
    | sync c =>
      rw [show syncEvents [⟨u, j, .sync c, r⟩] = [⟨j, c, r⟩] from rfl, passAfter_concat]
      by_cases hj : j = i
      · subst hj
        have hown : Pool.own j [(⟨u, j, .sync c, r⟩ : SystemEntry)] = [⟨.sync c, r⟩] := by
          simp [Pool.own]
        rw [hown, if_pos rfl]
        rfl
      · have hown : Pool.own i [(⟨u, j, .sync c, r⟩ : SystemEntry)] = [] := by
          simp [Pool.own, hj]
        rw [hown, if_neg hj]
        rfl
    | _ =>
      -- a command of another kind tells the loops nothing
      have hnone : ∀ l : List (Sigma SystemCmd.Reply), l = [] ∨ l = [⟨_, r⟩] → syncPart l = [] := by
        rintro l (rfl | rfl) <;> rfl
      rw [hnone, List.foldl_nil]
      · exact congrArg (passAfter i) (List.append_nil _)
      · by_cases hj : j = i <;> simp [Pool.own, hj]

variable {env : SystemEnv} {s : SystemState} {start : Database} {entries : List SystemEntry}

/-- The rows are what the writes to their pairs leave of those at the start. -/
def SyncRowsWritten (start : Database) (entries : List SystemEntry) (db : Database) : Prop :=
  ∀ key, db.syncStates.find? key =
    rowAfter (start.syncStates.find? key) (writesTo key (syncEvents entries))

/-- Every command keeps it. -/
theorem SyncRowsWritten.step (h : SyncRowsWritten start entries s.db) (i : Nat) (c : SystemCmd) :
    SyncRowsWritten start (entries ++ [⟨s, ⟨i, c, (handleSystem env c s).1⟩⟩])
      (handleSystem env c s).2.db := by
  intro key
  rw [syncEvents_append, writesTo_append, rowAfter_append, ← h key]
  have hadds := handleSystem_adds env c s
  cases c with
  | sync c => exact (handleSync_changes env.sync i c s.syncWorld).2.2 key
  | apply c =>
    rcases hadds.syncStates with hsame | ⟨row, heq, -⟩
    · exact congrArg (·.find? key) hsame
    · cases heq
  | api c =>
    rcases hadds.syncStates with hsame | ⟨row, heq, -⟩
    · exact congrArg (·.find? key) hsame
    · cases heq

/-- An event of the loops stands in the trail behind the events before it. -/
theorem exists_of_syncEvents_eq {pre' post' : List SyncEvent} {e : SyncEvent}
    (h : syncEvents entries = pre' ++ e :: post') :
    ∃ pre u post, entries = pre ++ ⟨u, e.thread, .sync e.cmd, e.reply⟩ :: post ∧
      syncEvents pre = pre' := by
  obtain ⟨pre, rest, rfl, hpre, hrest⟩ := List.filterMap_eq_append_iff.mp h
  obtain ⟨skipped, x, post, rfl, hskipped, hx, -⟩ := List.filterMap_eq_cons_iff.mp hrest
  obtain ⟨u, i, c, r⟩ := x
  cases c with
  | sync c =>
    cases hx
    refine ⟨pre ++ skipped, u, post, (List.append_assoc ..).symm, ?_⟩
    rw [syncEvents_append]
    have hnone : syncEvents skipped = [] := List.filterMap_eq_nil_iff.mpr hskipped
    rw [hnone, List.append_nil]
    exact hpre
  | _ => cases hx

variable [CryptoLib] [Sha256] [UnicodeData] [Chrono]

/-- The rows of every run are what the writes to their pairs leave. -/
theorem syncRowsWritten_trail (state : AppState) (requests : List Request) (runs : List WorkerRun)
    (env : SystemEnv) (s : SystemState) (schedule : List Nat) :
    SyncRowsWritten s.db ((process state requests runs s).trail (handleSystem env) schedule)
      ((process state requests runs s).exec (handleSystem env) schedule).state.db :=
  Pool.trail_invariant (J := fun entries t => SyncRowsWritten s.db entries t.db)
    (obeys_process_sanctioned state requests runs s) (fun _ => rfl)
    (fun _ _ i c h _ => h.step i c) schedule

/-- A row that is written follows from what the loop has read that writes it. -/
theorem justified_of_split {state : AppState} {requests : List Request} {runs : List WorkerRun}
    {schedule : List Nat} {pre post : List SystemEntry} {u : SystemState} {e : SyncEvent}
    (hsplit : (process state requests runs s).trail (handleSystem env) schedule =
      pre ++ ⟨u, e.thread, .sync e.cmd, e.reply⟩ :: post)
    {row : SyncState} (hwritten : written e = some row) :
    ∃ run ∈ runs, (passAfter e.thread (syncEvents pre)).Justifies run.worker row := by
  rw [passAfter_syncEvents]
  rcases sanctioned_of_split hsplit with ⟨request, -, h⟩ | ⟨run, hrun, h⟩
  · dsimp only at h
    rw [cmd_of_written hwritten] at h
    cases request <;> exact absurd h (acts_eq_false_of rfl)
  · have hjustified : (passMonitor run.worker).allows
        ((passMonitor run.worker).read (syncPart (Pool.own e.thread pre))) e.cmd := h.justified
    rw [cmd_of_written hwritten] at hjustified
    exact ⟨run, hrun, hjustified⟩

/-- From an empty table, at every moment of every run the columns of every sync state fit the writes
    to its pair, though any number of loops write it. -/
theorem process_syncRowInvariant (state : AppState) (requests : List Request)
    (runs : List WorkerRun) (env : SystemEnv) (s : SystemState) (schedule : List Nat)
    (hempty : s.db.syncStates.rows = []) :
    ∀ st ∈ ((process state requests runs s).exec (handleSystem env) schedule).state.db.syncStates,
      SyncRowInvariant
        (syncEvents ((process state requests runs s).trail (handleSystem env) schedule)) st := by
  intro st hst
  have hrows := syncRowsWritten_trail state requests runs env s schedule
  -- no row was there at first, so this one comes from its writes alone
  have hfresh : s.db.syncStates.find? st.key = none := Table.find?_eq_none.mpr fun a ha => by
    rw [Table.mem_def, hempty] at ha
    cases ha
  refine syncRowInvariant_of_writes ?_ fun pre' e post' row hlog hwritten => ?_
  · rw [← hfresh, ← hrows st.key]
    exact Table.find?_eq_some.mpr ⟨hst, rfl⟩
  · obtain ⟨pre, u, post, hsplit, rfl⟩ := exists_of_syncEvents_eq hlog
    obtain ⟨run, -, hjustified⟩ := justified_of_split hsplit hwritten
    exact ⟨run.worker, hjustified⟩

end Columns

/-! ## A run of the sample -/

section Sample

open Sample

/-- The request for a further record of the zone. -/
private def furtherRecord : Request :=
  .createRecord ⟨"r3", "2024-01-15T12:30:00+00:00"⟩ "z1"
    { name := "blog", recordType := .a, ttl := 300, values := ["192.0.2.1"] }

private def observeTwice : WorkerRun := ⟨worker, 0, 2, []⟩

/-- The providers refuse every listing. -/
private def refusingEnv : SystemEnv := ⟨systemEnv.apply, refusing⟩

/-- The record is created between the two passes. -/
private def createdBetween : List Nat :=
  List.replicate 11 2 ++ List.replicate 4 0 ++ List.replicate 13 2

/-- The passes have given the record that was there from the start a state. -/
private theorem retryCount_createdBetween :
    (((process appState [furtherRecord] [observeTwice] systemState).exec
      (handleSystem refusingEnv) createdBetween).state.db.syncStates.find? ("r1", "b1")).map
        (·.retryCount) = some 1 := by
  decide +kernel

theorem process_sync_same_zone_observing :
    SameZone ((process appState [furtherRecord] [observeTwice] systemState).exec
      (handleSystem refusingEnv) createdBetween).state.db "r1" "b1" := by
  obtain ⟨st, hst, -⟩ := Option.map_eq_some_iff.mp retryCount_createdBetween
  obtain ⟨hmem, hkey⟩ := Table.find?_eq_some.mp hst
  have hzone := process_sync_same_zone appState [furtherRecord] [observeTwice] refusingEnv
    systemState createdBetween (List.forall_mem_nil _) st hmem
  obtain ⟨hrecord, hbinding⟩ := Prod.mk.inj hkey
  rwa [hrecord, hbinding] at hzone

/-- The second pass counts on for the records it finds again. -/
theorem process_syncRowInvariant_observing :
    ∃ st ∈ ((process appState [furtherRecord] [observeTwice] systemState).exec
        (handleSystem refusingEnv) createdBetween).state.db.syncStates,
      SyncRowInvariant (syncEvents ((process appState [furtherRecord] [observeTwice]
          systemState).trail (handleSystem refusingEnv) createdBetween)) st ∧
        st.key = ("r1", "b1") ∧ st.retryCount = 1 := by
  obtain ⟨st, hst, hretry⟩ := Option.map_eq_some_iff.mp retryCount_createdBetween
  obtain ⟨hmem, hkey⟩ := Table.find?_eq_some.mp hst
  have hrow := process_syncRowInvariant appState [furtherRecord] [observeTwice] refusingEnv
    systemState createdBetween rfl st hmem
  exact ⟨st, hmem, hrow, hkey, hretry⟩

end Sample

end DnsManager
