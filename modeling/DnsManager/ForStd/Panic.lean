import DnsManager.ForStd.Calls

/-!
# Programs that may panic

A program over the errors `Stop ε` stops with an error, which its caller may handle, or with a
panic, which nobody handles: it ends the whole execution. `GuardsAt` compares such a program with
one without panics: where it is safe both execute the same, and elsewhere it panics.

## Key results
- `GuardsAt.noPanic_bind`, `GuardsAt.invoke_bind`: a part that does not panic comes first.
- `GuardsAt.forM`: a loop is safe where each of its turns is.
-/

/-- What stops a program: an error, or a panic. -/
inductive Stop (ε : Type) where
  | error (e : ε)
  | panic
deriving DecidableEq

namespace Prog

variable {C P S α β γ ε ε' : Type} {R : C → Type}

/-- A program that does not panic. -/
def noPanic : Prog C R ε α → Prog C R (Stop ε) α
  | ret a => ret a
  | throw e => throw (.error e)
  | call c k => call c fun r => (k r).noPanic

/-- Run `p` and hand its value or error to the continuation; a panic goes through. -/
def attemptOrPanic : Prog C R (Stop ε) α → Prog C R (Stop ε') (Except ε α)
  | ret a => ret (.ok a)
  | throw (.error e) => ret (.error e)
  | throw .panic => throw .panic
  | call c k => call c fun r => (k r).attemptOrPanic

/-- A turn of a loop that goes on when it fails, unless it panics. -/
def turnOrPanic (p : Prog C R (Stop ε) Unit) : Prog C R (Stop ε) Unit := do
  let _ ← (p.attemptOrPanic : Prog C R (Stop ε) (Except ε Unit))
  pure ()

section Run

variable (h : (c : C) → S → R c × S)

theorem run_noPanic (p : Prog C R ε α) (s : S) :
    p.noPanic.run h s = ((p.run h s).1.mapError .error, (p.run h s).2) := by
  induction p generalizing s with
  | ret a => rfl
  | throw e => rfl
  | call c k ih => exact ih _ _

theorem events_noPanic (p : Prog C R ε α) (s : S) : p.noPanic.events h s = p.events h s := by
  induction p generalizing s with
  | ret a => rfl
  | throw e => rfl
  | call c k ih => exact congrArg (List.cons _) (ih _ _)

/-- A turn ends well unless it panics. -/
theorem run_turnOrPanic (p : Prog C R (Stop ε) Unit) (s : S) :
    p.turnOrPanic.run h s =
      (match (p.run h s).1 with
      | .error .panic => .error .panic
      | _ => .ok (), (p.run h s).2) := by
  unfold turnOrPanic
  induction p generalizing s with
  | ret a => rfl
  | throw stop => cases stop <;> rfl
  | call c k ih => exact ih _ _

theorem events_turnOrPanic (p : Prog C R (Stop ε) Unit) (s : S) :
    p.turnOrPanic.events h s = p.events h s := by
  unfold turnOrPanic
  induction p generalizing s with
  | ret a => rfl
  | throw stop => cases stop <;> rfl
  | call c k ih => exact congrArg (List.cons _) (ih _ _)

end Run

/-- Where it is safe, `p` executes from `s` as `q` does, which cannot panic; otherwise it
    panics. -/
structure GuardsAt (h : (c : C) → S → R c × S) (p : Prog C R (Stop ε) α) (q : Prog C R ε α) (s : S)
    (safe : Prop) : Prop where
  run : safe → p.run h s = ((q.run h s).1.mapError .error, (q.run h s).2)
  events : safe → p.events h s = q.events h s
  panics : ¬ safe → (p.run h s).1 = .error .panic

namespace GuardsAt

variable {h : (c : C) → S → R c × S} {p : Prog C R (Stop ε) α} {q : Prog C R ε α} {s s' : S}
  {safe safe' : Prop}

theorem congr (hp : GuardsAt h p q s safe) (hsafe : safe ↔ safe') : GuardsAt h p q s safe' :=
  propext hsafe ▸ hp

/-- A program that does not panic is safe everywhere. -/
theorem noPanic (q : Prog C R ε α) (s : S) : GuardsAt h q.noPanic q s True :=
  ⟨fun _ => run_noPanic h q s, fun _ => events_noPanic h q s, fun hnot => absurd trivial hnot⟩

/-- After a first part that is safe and returns a value the second part decides. -/
theorem bind (hp : GuardsAt h p q s True) {a : α} (hq : q.run h s = (.ok a, s'))
    {f : α → Prog C R (Stop ε) β} {g : α → Prog C R ε β} (hf : GuardsAt h (f a) (g a) s' safe) :
    GuardsAt h (p >>= f) (q >>= g) s safe := by
  have hrun : p.run h s = (.ok a, s') := by rw [hp.run trivial, hq]; rfl
  refine ⟨fun hsafe => ?_, fun hsafe => ?_, fun hnot => ?_⟩
  · simp only [run_bind, hrun, hq, hf.run hsafe]
  · simp only [events_bind, hrun, hq, hf.events hsafe, hp.events trivial]
  · simp only [run_bind, hrun, hf.panics hnot]

theorem noPanic_bind {a : α} (hq : q.run h s = (.ok a, s'))
    {f : α → Prog C R (Stop ε) β} {g : α → Prog C R ε β} (hf : GuardsAt h (f a) (g a) s' safe) :
    GuardsAt h (q.noPanic >>= f) (q >>= g) s safe :=
  (noPanic q s).bind hq hf

/-- A procedure that is called does not panic. -/
theorem invoke_bind {h : (c : C) → S → R c × S} {body : P → Prog C R ε' γ} (x : P)
    {f : Except ε' γ → Prog (C ⊕ P) (CallReply R ε' γ) (Stop ε) β}
    {g : Except ε' γ → Prog (C ⊕ P) (CallReply R ε' γ) ε β}
    (hf : GuardsAt (handleCalls h body) (f ((body x).run h s).1) (g ((body x).run h s).1)
      ((body x).run h s).2 safe) :
    GuardsAt (handleCalls h body) (invoke x >>= f) (invoke x >>= g) s safe := by
  have hinvoke : GuardsAt (handleCalls h body) (invoke x : Prog (C ⊕ P) (CallReply R ε' γ) (Stop ε) _)
      (invoke x) s True := ⟨fun _ => rfl, fun _ => rfl, fun hnot => absurd trivial hnot⟩
  exact hinvoke.bind (run_invoke h x s) hf

theorem turn {p : Prog C R (Stop ε) Unit} {q : Prog C R ε Unit} (hp : GuardsAt h p q s safe) :
    GuardsAt h p.turnOrPanic q.turn s safe := by
  refine ⟨fun hsafe => ?_, fun hsafe => ?_, fun hnot => ?_⟩
  · rw [run_turnOrPanic, run_turn, hp.run hsafe]
    cases (q.run h s).1 <;> rfl
  · rw [events_turnOrPanic, events_turn, hp.events hsafe]
  · rw [run_turnOrPanic, hp.panics hnot]

/-- A loop is safe when each of its turns is. -/
theorem forM (safe : α → Prop) {f : α → Prog C R (Stop ε) Unit} {g : α → Prog C R ε Unit}
    {xs : List α} {s : S} (hf : ∀ v ∈ visits h (fun x => (g x).turn) xs s,
      GuardsAt h (f v.1) (g v.1).turn v.2 (safe v.1)) :
    GuardsAt h (forM xs f) (forM xs fun x => (g x).turn) s (∀ x ∈ xs, safe x) := by
  induction xs generalizing s with
  | nil => exact (noPanic (pure ()) s).congr (iff_of_true trivial fun x hx => nomatch hx)
  | cons x xs ih =>
    obtain ⟨hx, hxs⟩ := List.forall_mem_cons.mp hf
    have hrest := ih hxs
    have hrun := run_turn h (g x) s
    rw [hrun] at hrest
    rw [List.forM_cons, List.forM_cons]
    by_cases hsafe : safe x
    · -- the first turn is safe, so the others decide
      refine ((hx.congr (iff_true_intro hsafe)).bind hrun hrest).congr ?_
      rw [List.forall_mem_cons]
      exact (and_iff_right hsafe).symm
    · refine ⟨fun hall => absurd (hall _ List.mem_cons_self) hsafe,
        fun hall => absurd (hall _ List.mem_cons_self) hsafe, fun _ => ?_⟩
      rw [run_bind]
      have hpanics := hx.panics hsafe
      cases hp : (f x).run h s with
      | mk r s' =>
        rw [hp] at hpanics
        obtain rfl : r = .error .panic := hpanics
        rfl

end GuardsAt

end Prog
