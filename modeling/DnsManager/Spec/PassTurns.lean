import DnsManager.Spec.ObserveCorrect

/-!
# The turns of a pass

An observe pass takes its turns over bindings, a retry pass over bindings and over the entries of
each. A turn writes the rows of its own pairs, and what it writes there depends on the world it
finds. Where no two turns write one pair, each row in the end is what the turn that writes it has
left.

## Key results
- `Leaves.run_forM`: a loop leaves under every key what the turn that covers it leaves there.
- `leaves_observeOneBinding`: what a turn of an observe pass leaves.
-/

namespace DnsManager

open Prog (turn)

/-- A database with the bindings and desired records of `db`. -/
structure SameConfig (db db' : Database) : Prop where
  bindings : db'.bindings = db.bindings
  desiredRecords : db'.desiredRecords = db.desiredRecords

namespace SameConfig

theorem refl (db : Database) : SameConfig db db := ⟨rfl, rfl⟩

/-- The desired records of a binding are part of the configuration. -/
theorem desiredOf_eq {db db' : Database} (h : SameConfig db db') (bindingId : String) :
    db'.desiredOf bindingId = db.desiredOf bindingId := by
  simp only [Database.desiredOf, h.bindings, h.desiredRecords]

end SameConfig

/-- From every world with the configuration of `db` the program leaves under the keys it covers
    what `effect` makes of the rows it finds there, and every other row alone. -/
def Leaves (env : SyncEnv) (db : Database) (p : SyncM Unit) (covers : String × String → Prop)
    (effect : SyncWorld → String × String → Option SyncState → Option SyncState) : Prop :=
  ∀ w : SyncWorld, SameConfig db w.db →
    SameConfig db (p.run (handleSync env) w).2.db ∧
      ∀ key, (covers key → (p.run (handleSync env) w).2.db.syncStates.find? key =
          effect w key (w.db.syncStates.find? key)) ∧
        (¬ covers key → (p.run (handleSync env) w).2.db.syncStates.find? key =
          w.db.syncStates.find? key)

section Turns

variable {α : Type} {env : SyncEnv} {db : Database} {f : α → SyncM Unit}

/-- The turns of a loop with the worlds they come to. -/
abbrev turnVisits (env : SyncEnv) (f : α → SyncM Unit) (turns : List α) (w : SyncWorld) :
    List (α × SyncWorld) :=
  Prog.visits (handleSync env) (fun x => turn (f x)) turns w

theorem fst_mem_of_turnVisit {turns : List α} {w : SyncWorld} {v : α × SyncWorld}
    (hv : v ∈ turnVisits env f turns w) : v.1 ∈ turns := by
  rw [← Prog.map_fst_visits (h := handleSync env) (f := fun x => turn (f x)) turns]
  exact List.mem_map_of_mem hv

/-- The loop comes to every turn. -/
theorem exists_turnVisit (env : SyncEnv) (f : α → SyncM Unit) {turns : List α} {x : α}
    (hx : x ∈ turns) (w : SyncWorld) : ∃ v ∈ turnVisits env f turns w, v.1 = x := by
  rw [← Prog.map_fst_visits (h := handleSync env) (f := fun x => turn (f x)) turns w] at hx
  exact List.mem_map.mp hx

/-- The world after some turns. -/
def turnWorld (env : SyncEnv) (f : α → SyncM Unit) (turns : List α) (w : SyncWorld) : SyncWorld :=
  ((forM turns fun x => turn (f x)).run (handleSync env) w).2

theorem turnWorld_cons (x : α) (turns : List α) (w : SyncWorld) :
    turnWorld env f (x :: turns) w = turnWorld env f turns ((f x).run (handleSync env) w).2 := by
  simp only [turnWorld, List.forM_cons, Prog.run_bind, Prog.run_turn]

/-- A loop over turns ends well. -/
theorem run_turns (turns : List α) (w : SyncWorld) :
    (forM turns fun x => turn (f x)).run (handleSync env) w =
      (.ok (), turnWorld env f turns w) := by
  induction turns generalizing w with
  | nil => rfl
  | cons x turns ih =>
    rw [turnWorld_cons, ← ih]
    simp only [List.forM_cons, Prog.run_bind, Prog.run_turn]

variable {covers : α → String × String → Prop}
  {effect : α → SyncWorld → String × String → Option SyncState → Option SyncState}

/-- Turns that cover different keys: under each key stands what the turn that covers it has left,
    in the world it came to. -/
theorem Leaves.run_forM {turns : List α} (hf : ∀ x ∈ turns, Leaves env db (f x) (covers x) (effect x))
    (hdisjoint : turns.Pairwise fun x y => ∀ key, covers x key → ¬ covers y key) {w : SyncWorld}
    (hw : SameConfig db w.db) :
    SameConfig db (turnWorld env f turns w).db ∧
      (∀ v ∈ turnVisits env f turns w, SameConfig db v.2.db ∧ ∀ key, covers v.1 key →
        (turnWorld env f turns w).db.syncStates.find? key =
          effect v.1 v.2 key (w.db.syncStates.find? key)) ∧
      ∀ key, (∀ x ∈ turns, ¬ covers x key) →
        (turnWorld env f turns w).db.syncStates.find? key = w.db.syncStates.find? key := by
  induction turns generalizing w with
  | nil => exact ⟨hw, fun v hv => (nomatch hv), fun _ _ => rfl⟩
  | cons x turns ih =>
    obtain ⟨hx, hturns⟩ := List.pairwise_cons.mp hdisjoint
    obtain ⟨hw₁, hfirst⟩ := hf x List.mem_cons_self w hw
    obtain ⟨hw₂, hrest, hframe⟩ := ih (fun y hy => hf y (List.mem_cons_of_mem _ hy)) hturns hw₁
    rw [turnWorld_cons]
    refine ⟨hw₂, fun v hv => ?_, fun key hnot => ?_⟩
    · rcases List.mem_cons.mp hv with rfl | hv
      · -- no later turn covers the key, so what this one has left stays
        refine ⟨hw, fun key hcovers => ?_⟩
        rw [hframe key fun z hz => hx z hz key hcovers, (hfirst key).1 hcovers]
      · -- this turn does not cover the key, which a later one does
        rw [Prog.run_turn] at hv
        obtain ⟨hconfig, hlater⟩ := hrest v hv
        have hmem : v.1 ∈ turns := fst_mem_of_turnVisit hv
        refine ⟨hconfig, fun key hcovers => ?_⟩
        rw [hlater key hcovers, (hfirst key).2 fun hfirst => hx v.1 hmem key hfirst hcovers]
    · rw [hframe key fun z hz => hnot z (List.mem_cons_of_mem _ hz),
        (hfirst key).2 (hnot x List.mem_cons_self)]

/-- Where the effect of a turn depends on the row only, that of the loop does too. -/
theorem Leaves.forM_turn {turns : List α}
    {effect : String × String → Option SyncState → Option SyncState}
    (hf : ∀ x ∈ turns, Leaves env db (f x) (covers x) fun _ => effect)
    (hdisjoint : turns.Pairwise fun x y => ∀ key, covers x key → ¬ covers y key) :
    Leaves env db (forM turns fun x => turn (f x)) (fun key => ∃ x ∈ turns, covers x key)
      fun _ => effect := by
  intro w hw
  obtain ⟨hconfig, hwritten, hframe⟩ := Leaves.run_forM hf hdisjoint hw
  rw [run_turns]
  refine ⟨hconfig, fun key => ⟨?_, fun hnot => hframe key fun x hx hcovers => hnot ⟨x, hx, hcovers⟩⟩⟩
  rintro ⟨x, hx, hcovers⟩
  obtain ⟨v, hv, rfl⟩ := exists_turnVisit env f hx w
  exact (hwritten v hv).2 key hcovers

/-- A program that goes on from another world with the same tables. -/
theorem Leaves.of_run {p : SyncM Unit} {covers : String × String → Prop}
    {effect : SyncWorld → String × String → Option SyncState → Option SyncState}
    (h : ∀ w : SyncWorld, SameConfig db w.db → ∃ (p' : SyncM Unit) (w' : SyncWorld), w'.db = w.db ∧
      (p.run (handleSync env) w).2 = (p'.run (handleSync env) w').2 ∧
      Leaves env db p' covers fun _ => effect w) : Leaves env db p covers effect := by
  intro w hw
  obtain ⟨p', w', hdb, hrun, hleaves⟩ := h w hw
  have hleft := hleaves w' (by rwa [hdb])
  rw [hdb] at hleft
  rwa [hrun]

end Turns

/-! ## The turn of an observe pass -/

section Worker

variable [CryptoLib] [SerdeJson] [UnicodeData] [Chrono] (worker : ReconcileWorker)

/-- The row of a pair after its record was compared with what was fetched. -/
def observedRow (db : Database) (fetched : Except String (RecordKey → Option ProviderRecord))
    (now : String) (key : String × String) (old : Option SyncState) : Option SyncState :=
  match (db.desiredRecords.find? key.1).bind (observation fetched) with
  | some o => some ((o.row key.1 key.2 now).upserted old)
  | none => old

omit [CryptoLib] [Chrono] in
theorem observedRow_of_mem {db : Database} {record : DesiredRecord}
    (hrecord : record ∈ db.desiredRecords)
    (fetched : Except String (RecordKey → Option ProviderRecord)) (now bindingId : String)
    (old : Option SyncState) :
    observedRow db fetched now (record.id, bindingId) old =
      match observation fetched record with
      | some o => some ((o.row record.id bindingId now).upserted old)
      | none => old := by
  unfold observedRow
  rw [Table.find?_eq_some.mpr ⟨hrecord, rfl⟩, Option.bind_some]

/-- What a turn on a binding makes of the row of a pair: it fetches at the next listing and
    reads the clock. -/
def ReconcileWorker.turnEffect (env : SyncEnv) (db : Database) (binding : ProviderBinding)
    (w : SyncWorld) : String × String → Option SyncState → Option SyncState :=
  observedRow db (worker.fetched env w.listings binding) (Chrono.toRfc3339 (env.now w.readings))

/-- A turn of an observe pass covers the live records of the binding's zone. -/
theorem leaves_observeOneBinding (hjson : ∀ r, ∃ text, SerdeJson.recordToString r = .ok text)
    {env : SyncEnv} (henv : env.Reliable) {db : Database} {binding : ProviderBinding}
    (hb : binding ∈ db.bindings) :
    Leaves env db (worker.observeOneBinding binding)
      (fun key => ∃ row ∈ db.desiredOf binding.id, key = (row.id, binding.id))
      (worker.turnEffect env db binding) := by
  intro w hw
  have hb' : binding ∈ w.db.bindings := by rwa [hw.bindings]
  obtain ⟨w', hrun, hobserved⟩ := run_observeOneBinding worker hjson henv hb'
  rw [hrun]
  refine ⟨⟨hobserved.bindings.trans hw.bindings, hobserved.desiredRecords.trans hw.desiredRecords⟩,
    fun key => ⟨?_, fun hnot => ?_⟩⟩
  · rintro ⟨row, hrow, rfl⟩
    have hmem := Database.mem_desiredRecords_of_mem_desiredOf hrow
    have hwritten := hobserved.written row (by rwa [hw.desiredOf_eq])
    exact hwritten.trans (observedRow_of_mem hmem ..).symm
  · exact hobserved.frame key fun row hrow heq => hnot ⟨row, by rwa [hw.desiredOf_eq] at hrow, heq⟩

end Worker

end DnsManager
