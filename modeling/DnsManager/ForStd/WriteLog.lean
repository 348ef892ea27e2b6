import Mathlib.Data.List.Basic

/-!
# Write logs over keyed stores

A family of stores `σ : B → K → Option V` holds, for every store `b`, a map from keys
to values. A `Write` sets or removes one key of one store, and `execAll` performs a
list of writes in order. The facts here are about which write decides what a key
holds in the end:

* `execAll_eq_lastHit`: the last write that hits a key decides it;
* `execAll_congr`: a complete pass over `ws` forgets whatever an interrupted pass left
  at the keys `ws` writes;
* `Reversible.undo`: steps that can each be undone where they were taken are undone as
  a whole by undoing them last to first;
* `undo_broadcast_iff`: when this also undoes a further write on some of the stores.
-/

/-- One write: key `key` of store `store` gets `value`; `none` removes the key. -/
structure Write (B K V : Type) where
  store : B
  key : K
  value : Option V
deriving DecidableEq, Repr

namespace Write

variable {B K V : Type}

/-- The write goes to key `k` of store `b`. -/
def Hits (w : Write B K V) (b : B) (k : K) : Prop := w.store = b ∧ w.key = k

/-- Some write of the list goes to key `k` of store `b`. -/
def Touches (ws : List (Write B K V)) (b : B) (k : K) : Prop := ∃ w ∈ ws, w.Hits b k

/-- The writes that give key `k` the value `v` on every store of a list. -/
def broadcast (bs : List B) (k : K) (v : Option V) : List (Write B K V) :=
  bs.map fun b => ⟨b, k, v⟩

@[simp] theorem touches_nil (b : B) (k : K) : ¬ Touches ([] : List (Write B K V)) b k := by
  simp [Touches]

@[simp] theorem touches_append (ws vs : List (Write B K V)) (b : B) (k : K) :
    Touches (ws ++ vs) b k ↔ Touches ws b k ∨ Touches vs b k := by
  simp only [Touches, List.mem_append, or_and_right, exists_or]

@[simp] theorem touches_flatMap {ι : Type} (f : ι → List (Write B K V)) (xs : List ι)
    (b : B) (k : K) : Touches (xs.flatMap f) b k ↔ ∃ x ∈ xs, Touches (f x) b k := by
  simp only [Touches, List.mem_flatMap]
  constructor
  · rintro ⟨w, ⟨x, hx, hw⟩, hit⟩; exact ⟨x, hx, w, hw, hit⟩
  · rintro ⟨x, hx, w, hw, hit⟩; exact ⟨w, ⟨x, hx, hw⟩, hit⟩

@[simp] theorem touches_broadcast {bs : List B} {k k' : K} {v : Option V} {b : B} :
    Touches (broadcast bs k v) b k' ↔ b ∈ bs ∧ k = k' := by
  simp [Touches, broadcast, Hits]

theorem Touches.of_subset {ws vs : List (Write B K V)} {b : B} {k : K}
    (h : Touches ws b k) (hsub : ws ⊆ vs) : Touches vs b k := by
  obtain ⟨w, hw, hit⟩ := h
  exact ⟨w, hsub hw, hit⟩

variable [DecidableEq B] [DecidableEq K]

instance (w : Write B K V) (b : B) (k : K) : Decidable (w.Hits b k) :=
  inferInstanceAs (Decidable (_ ∧ _))

instance (ws : List (Write B K V)) (b : B) (k : K) : Decidable (Touches ws b k) :=
  inferInstanceAs (Decidable (∃ w ∈ ws, w.Hits b k))

/-- Perform one write. -/
def exec (w : Write B K V) (σ : B → K → Option V) : B → K → Option V :=
  fun b k => if w.Hits b k then w.value else σ b k

/-- Perform a list of writes in order. -/
def execAll (ws : List (Write B K V)) (σ : B → K → Option V) : B → K → Option V :=
  ws.foldl (fun σ w => w.exec σ) σ

/-- The last write of the list that goes to key `k` of store `b`. -/
def lastHit (ws : List (Write B K V)) (b : B) (k : K) : Option (Write B K V) :=
  ws.reverse.find? fun w => w.Hits b k

/-- A key a write does not go to keeps its value. -/
theorem exec_of_not_hits {w : Write B K V} {b : B} {k : K} (h : ¬ w.Hits b k)
    (σ : B → K → Option V) : w.exec σ b k = σ b k := if_neg h

@[simp] theorem execAll_nil (σ : B → K → Option V) : execAll [] σ = σ := rfl

@[simp] theorem execAll_cons (w : Write B K V) (ws : List (Write B K V))
    (σ : B → K → Option V) : execAll (w :: ws) σ = execAll ws (w.exec σ) := rfl

theorem execAll_append (ws vs : List (Write B K V)) (σ : B → K → Option V) :
    execAll (ws ++ vs) σ = execAll vs (execAll ws σ) := List.foldl_append

/-- A key no write goes to keeps its value. -/
theorem execAll_of_not_touches {ws : List (Write B K V)} {b : B} {k : K}
    (h : ¬ Touches ws b k) (σ : B → K → Option V) : execAll ws σ b k = σ b k := by
  induction ws generalizing σ with
  | nil => rfl
  | cons w ws ih =>
    have hw : ¬ w.Hits b k := fun hit => h ⟨w, List.mem_cons_self, hit⟩
    have hws : ¬ Touches ws b k := fun ht => h (ht.of_subset (List.subset_cons_self w ws))
    rw [execAll_cons, ih hws, exec_of_not_hits hw]

/-- The last write that goes to a key decides what it holds. -/
theorem execAll_eq_lastHit (ws : List (Write B K V)) (σ : B → K → Option V) (b : B) (k : K) :
    execAll ws σ b k =
      match lastHit ws b k with
      | some w => w.value
      | none => σ b k := by
  induction ws generalizing σ with
  | nil => rfl
  | cons w ws ih =>
    rw [execAll_cons, ih]
    simp only [lastHit, List.reverse_cons, List.find?_append]
    cases ws.reverse.find? fun w => w.Hits b k with
    | some v => rfl
    | none =>
      by_cases hw : w.Hits b k <;> simp [exec, hw]

/-- A key that some write goes to does not depend on what was stored before. -/
theorem execAll_of_touches {ws : List (Write B K V)} {b : B} {k : K} (h : Touches ws b k)
    (σ τ : B → K → Option V) : execAll ws σ b k = execAll ws τ b k := by
  rw [execAll_eq_lastHit, execAll_eq_lastHit]
  cases hl : lastHit ws b k with
  | some w => rfl
  | none =>
    -- no write hits the key, against `h`
    obtain ⟨w, hw, hit⟩ := h
    simp only [lastHit, List.find?_eq_none] at hl
    exact absurd hit (by simpa using hl w (List.mem_reverse.mpr hw))

/-- A complete pass forgets what an interrupted one left at the keys it writes: two
    states that agree off these keys end equal. -/
theorem execAll_congr {ws : List (Write B K V)} {σ τ : B → K → Option V}
    (h : ∀ b k, ¬ Touches ws b k → σ b k = τ b k) : execAll ws σ = execAll ws τ := by
  funext b k
  by_cases ht : Touches ws b k
  · exact execAll_of_touches ht σ τ
  · rw [execAll_of_not_touches ht, execAll_of_not_touches ht, h b k ht]

/-! ## Writing one key of several stores -/

/-- After a broadcast the key holds the value on every store of the list, and nothing
    else has changed. -/
theorem execAll_broadcast (bs : List B) (k : K) (v : Option V) (σ : B → K → Option V)
    (b : B) (k' : K) :
    execAll (broadcast bs k v) σ b k' = if b ∈ bs ∧ k = k' then v else σ b k' := by
  rw [execAll_eq_lastHit]
  cases hl : lastHit (broadcast bs k v) b k' with
  | some w =>
    have hw := List.mem_of_find?_eq_some hl
    have hit : w.Hits b k' := by simpa using List.find?_some hl
    simp only [broadcast, List.mem_reverse, List.mem_map] at hw
    obtain ⟨b', hb', rfl⟩ := hw
    obtain ⟨rfl, rfl⟩ := hit
    simp [hb']
  | none =>
    have hno : ¬ (b ∈ bs ∧ k = k') := by
      rw [← touches_broadcast (v := v)]
      rintro ⟨w, hw, hit⟩
      simp only [lastHit, List.find?_eq_none] at hl
      exact absurd hit (by simpa using hl w (List.mem_reverse.mpr hw))
    simp only [if_neg hno]

/-! ## Undoing a sequence of steps -/

/-- Each step of the list, a pair of forward and backward writes, is undone by its
    backward writes when both are performed in the state the step is reached in. -/
def Reversible : List (List (Write B K V) × List (Write B K V)) → (B → K → Option V) → Prop
  | [], _ => True
  | (fwd, bwd) :: steps, σ =>
    execAll bwd (execAll fwd σ) = σ ∧ Reversible steps (execAll fwd σ)

/-- Reversible steps are undone as a whole by their backward writes, last step first. -/
theorem Reversible.undo {steps : List (List (Write B K V) × List (Write B K V))}
    {σ : B → K → Option V} (h : Reversible steps σ) :
    execAll (steps.reverse.flatMap Prod.snd) (execAll (steps.flatMap Prod.fst) σ) = σ := by
  induction steps generalizing σ with
  | nil => rfl
  | cons step steps ih =>
    obtain ⟨fwd, bwd⟩ := step
    rw [List.reverse_cons, List.flatMap_append, List.flatMap_singleton, List.flatMap_cons,
      execAll_append, execAll_append, ih h.2, h.1]

/-- A broadcast is undone by broadcasting back what the stores held. -/
theorem execAll_broadcast_undo {bs : List B} {k : K} {old : Option V} {σ : B → K → Option V}
    (hold : ∀ b ∈ bs, σ b k = old) (new : Option V) :
    execAll (broadcast bs k old) (execAll (broadcast bs k new) σ) = σ := by
  funext b k'
  rw [execAll_broadcast, execAll_broadcast]
  split
  · next h => rw [← h.2, hold b h.1]
  · rfl

/-- A broadcast of what the stores hold already changes nothing. -/
theorem execAll_broadcast_self {bs : List B} {k : K} {v : Option V} {σ : B → K → Option V}
    (hold : ∀ b ∈ bs, σ b k = v) : execAll (broadcast bs k v) σ = σ := by
  funext b k'
  rw [execAll_broadcast]
  split
  · next h => rw [← h.2, hold b h.1]
  · rfl

/-- Writes that undo `τ` to `σ` also undo a broadcast before them exactly when it reached no
    store, they cover its key, or it changed nothing. -/
theorem undo_broadcast_iff {ws : List (Write B K V)} {bs : List B} {k : K} {new old : Option V}
    {σ τ : B → K → Option V} {Covered : Prop} (hundo : execAll ws τ = σ)
    (hold : ∀ b ∈ bs, τ b k = old) (hcovered : ∀ b ∈ bs, Touches ws b k ↔ Covered) :
    execAll ws (execAll (broadcast bs k new) τ) = σ ↔ bs = [] ∨ Covered ∨ new = old := by
  constructor
  · -- an uncovered write that changed something shows on the first store
    intro heq
    by_contra hno
    obtain ⟨hne, hunc, hchange⟩ := not_or.mp hno |>.imp_right not_or.mp
    obtain ⟨b, hb⟩ := List.exists_mem_of_ne_nil bs hne
    have huntouched := mt (hcovered b hb).mp hunc
    have hnew : σ b k = new := by
      rw [← heq, execAll_of_not_touches huntouched, execAll_broadcast, if_pos ⟨hb, rfl⟩]
    have hval : σ b k = old := by
      rw [← hundo, execAll_of_not_touches huntouched, hold b hb]
    exact hchange (hnew.symm.trans hval)
  · rintro (rfl | hcov | rfl)
    · exact hundo
    · -- the writes that undo forget the broadcast
      rw [← hundo]
      refine execAll_congr fun b k' hnt => execAll_of_not_touches (fun ht => ?_) _
      obtain ⟨hb, rfl⟩ := touches_broadcast.mp ht
      exact hnt ((hcovered b hb).mpr hcov)
    · rw [execAll_broadcast_self hold, hundo]

end Write
