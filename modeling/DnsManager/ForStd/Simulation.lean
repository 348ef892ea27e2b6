import DnsManager.ForStd.Prog
import Mathlib.Logic.Function.Basic

/-!
# Simulation by a handler that makes choices

A handler whose answers are decided by its surroundings takes them from a tape of choices, one at
most for each command. It simulates another handler along a relation of their states when for
every command some choice makes it answer the same; the choices of a run are then a tape.

## Key results
- `Tape.exists_run`: every run against the one handler is a run against the other, with some tape.
-/

namespace Prog

variable {C : Type} {R : C → Type} {ε S T O α : Type}

/-- The handler `h` reads its tape in order; `pos` is the number of choices it has made. -/
structure Tape (h : (Nat → O) → (c : C) → T → R c × T) (pos : T → Nat) : Prop where
  /-- A command looks at the next choice only. -/
  reads : ∀ {f g : Nat → O} {t : T}, f (pos t) = g (pos t) → ∀ c, h f c t = h g c t
  /-- It goes past that choice, or has not looked at it. -/
  moves : ∀ f c t, pos (h f c t).2 = pos t + 1 ∨ pos (h f c t).2 = pos t ∧ ∀ g, h g c t = h f c t

namespace Tape

variable {h : (Nat → O) → (c : C) → T → R c × T} {pos : T → Nat}

/-- Choices that were made before a run do not matter to it. -/
theorem run_congr (ht : Tape h pos) {f g : Nat → O} {p : Prog C R ε α} {t : T}
    (hfg : ∀ n, pos t ≤ n → f n = g n) :
    p.run (h f) t = p.run (h g) t ∧ p.events (h f) t = p.events (h g) t := by
  induction p generalizing t with
  | ret a => exact ⟨rfl, rfl⟩
  | throw e => exact ⟨rfl, rfl⟩
  | call c k ih =>
    have hstep : h f c t = h g c t := ht.reads (hfg _ (Nat.le_refl _)) c
    have hlater : ∀ n, pos (h f c t).2 ≤ n → f n = g n := fun n hn => by
      refine hfg n ?_
      rcases ht.moves f c t with hmoved | ⟨hmoved, -⟩ <;> omega
    obtain ⟨hrun, hevents⟩ := ih (h f c t).1 hlater
    simp only [run, events]
    rw [← hstep]
    exact ⟨hrun, congrArg _ hevents⟩

/-- If every command with `P` is simulated with a choice that has `A`, then every run that issues
    such commands only is simulated with a tape of such choices. -/
theorem exists_run (ht : Tape h pos) {k : (c : C) → S → R c × S} {Rel : S → T → Prop}
    {P : C → Prop} {A : O → Prop} (hA : ∃ o, A o)
    (hsim : ∀ c s t, P c → Rel s t → ∃ o, A o ∧ (h (fun _ => o) c t).1 = (k c s).1 ∧
      Rel (k c s).2 (h (fun _ => o) c t).2)
    {p : Prog C R ε α} {s : S} {t : T} (hp : ∀ c ∈ p.trace k s, P c) (hst : Rel s t) :
    ∃ f, (∀ n, A (f n)) ∧ (p.run (h f) t).1 = (p.run k s).1 ∧
      p.events (h f) t = p.events k s ∧ Rel (p.run k s).2 (p.run (h f) t).2 := by
  induction p generalizing s t with
  | ret a =>
    obtain ⟨o, ho⟩ := hA
    exact ⟨fun _ => o, fun _ => ho, rfl, rfl, hst⟩
  | throw e =>
    obtain ⟨o, ho⟩ := hA
    exact ⟨fun _ => o, fun _ => ho, rfl, rfl, hst⟩
  | call c next ih =>
    obtain ⟨hc, hrest⟩ := List.forall_mem_cons.mp hp
    obtain ⟨o, ho, hreply, hrel⟩ := hsim c s t hc hst
    obtain ⟨f, hf, hrun, hevents, hlast⟩ := ih _ hrest hrel
    -- a tape that makes this choice now and those of the rest later
    suffices htape : ∃ g, (∀ n, A (g n)) ∧ h g c t = h (fun _ => o) c t ∧
        ∀ n, pos (h (fun _ => o) c t).2 ≤ n → g n = f n by
      obtain ⟨g, hg, hnow, hlater⟩ := htape
      obtain ⟨hrun', hevents'⟩ := ht.run_congr (p := next (k c s).1) hlater
      refine ⟨g, hg, ?_⟩
      simp only [run, events, hnow, hreply, hrun', hevents']
      exact ⟨hrun, congrArg _ hevents, hlast⟩
    rcases ht.moves (fun _ => o) c t with hmoved | ⟨-, hunread⟩
    · have hnow : Function.update f (pos t) o (pos t) = o := Function.update_self ..
      refine ⟨Function.update f (pos t) o, fun n => ?_, ht.reads hnow c,
        fun n hn => Function.update_of_ne (by omega) ..⟩
      by_cases hn : n = pos t
      · rw [hn, hnow]
        exact ho
      · rw [Function.update_of_ne hn]
        exact hf n
    · exact ⟨f, hf, hunread f, fun _ _ => rfl⟩

end Tape

end Prog
