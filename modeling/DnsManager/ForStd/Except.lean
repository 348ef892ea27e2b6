import Mathlib.Data.List.Basic

/-!
# Results

What has happened when a chain of fallible steps ends with a value. A function written
with `do` in `Except` is taken apart with `bind_eq_ok`, one step at a time, and a loop that
collects the values of its steps with `mapM_eq_ok_mem`.
-/

namespace Except

variable {ε ε' α β : Type}

/-- A sequence succeeds when both parts do. -/
theorem bind_eq_ok {x : Except ε α} {f : α → Except ε β} {b : β} :
    (x >>= f) = .ok b ↔ ∃ a, x = .ok a ∧ f a = .ok b := by
  constructor
  · intro h
    cases x with
    | ok a => exact ⟨a, rfl, h⟩
    | error e => cases h
  · rintro ⟨a, rfl, h⟩
    exact h

/-- A change of the error does not change the value. -/
@[simp] theorem mapError_eq_ok {f : ε → ε'} {x : Except ε α} {a : α} :
    x.mapError f = .ok a ↔ x = .ok a := by
  constructor
  · intro h
    cases x with
    | ok a => cases h; rfl
    | error e => cases h
  · rintro rfl
    rfl

/-- A mapped value is there when the value is. -/
theorem map_eq_ok {f : α → β} {x : Except ε α} {b : β} :
    x.map f = .ok b ↔ ∃ a, x = .ok a ∧ f a = b := by
  constructor
  · intro h
    cases x with
    | ok a => exact ⟨a, rfl, ok.inj h⟩
    | error e => cases h
  · rintro ⟨a, rfl, rfl⟩
    rfl

theorem map_eq_error {f : α → β} {x : Except ε α} {e : ε} : x.map f = .error e ↔ x = .error e := by
  cases x with
  | ok a => exact ⟨nofun, nofun⟩
  | error e' => simp only [Except.map, error.injEq]

theorem toOption_eq_some {x : Except ε α} {a : α} : x.toOption = some a ↔ x = .ok a := by
  cases x with
  | ok a' => exact ⟨fun h => congrArg ok (Option.some.inj h), fun h => congrArg some (ok.inj h)⟩
  | error e => exact ⟨nofun, nofun⟩

/-- A list that succeeds has a value for each of its elements, and no others. -/
theorem mapM_eq_ok_mem {f : α → Except ε β} {xs : List α} {ys : List β} (h : xs.mapM f = .ok ys) :
    (∀ x ∈ xs, ∃ y ∈ ys, f x = .ok y) ∧ ∀ y ∈ ys, ∃ x ∈ xs, f x = .ok y := by
  induction xs generalizing ys with
  | nil =>
    cases h
    exact ⟨nofun, nofun⟩
  | cons x xs ih =>
    rw [List.mapM_cons] at h
    obtain ⟨y, hy, h⟩ := bind_eq_ok.mp h
    obtain ⟨ys', hys, h⟩ := bind_eq_ok.mp h
    cases h
    obtain ⟨hleft, hright⟩ := ih hys
    refine ⟨List.forall_mem_cons.mpr ⟨⟨y, List.mem_cons_self, hy⟩, fun a ha => ?_⟩,
      List.forall_mem_cons.mpr ⟨⟨x, List.mem_cons_self, hy⟩, fun b hb => ?_⟩⟩
    · obtain ⟨b, hb, hab⟩ := hleft a ha
      exact ⟨b, List.mem_cons_of_mem _ hb, hab⟩
    · obtain ⟨a, ha, hab⟩ := hright b hb
      exact ⟨a, List.mem_cons_of_mem _ ha, hab⟩

theorem mapError_eq_error {f : ε → ε'} {x : Except ε α} {e : ε'} (h : x.mapError f = .error e) :
    ∃ e', x = .error e' ∧ f e' = e := by
  cases x with
  | ok a => cases h
  | error e' =>
    cases h
    exact ⟨e', rfl, rfl⟩

/-- A sequence fails in its first part or, after it, in its second. -/
theorem bind_eq_error {x : Except ε α} {f : α → Except ε β} {e : ε} (h : x >>= f = .error e) :
    x = .error e ∨ ∃ a, x = .ok a ∧ f a = .error e := by
  cases x with
  | ok a => exact .inr ⟨a, rfl, h⟩
  | error e' =>
    cases h
    exact .inl rfl

/-- A step that fails is the error of the whole. -/
theorem mapM_eq_error_mem {f : α → Except ε β} {xs : List α} {e : ε} (h : xs.mapM f = .error e) :
    ∃ x ∈ xs, f x = .error e := by
  induction xs with
  | nil => cases h
  | cons x xs ih =>
    rw [List.mapM_cons] at h
    rcases bind_eq_error h with hx | ⟨y, -, h⟩
    · exact ⟨x, List.mem_cons_self, hx⟩
    · rcases bind_eq_error h with hxs | ⟨ys, -, h⟩
      · obtain ⟨x', hmem, hx'⟩ := ih hxs
        exact ⟨x', List.mem_cons_of_mem _ hmem, hx'⟩
      · cases h

end Except
