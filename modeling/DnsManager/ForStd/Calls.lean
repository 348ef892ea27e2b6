import DnsManager.ForStd.Prog

/-!
# Programs that call procedures

A program over the commands `C ⊕ P` issues commands from `C` and calls the procedures `P`. A
call is answered by the outcome of the procedure, so that the calls of an execution and their
outcomes stand among its events. `inline` puts the body of the procedure in place of every call,
which gives a program over `C` alone with the same executions.

## Key results
- `run_inline`: to run the program with its procedures in line is to run it with calls that run
  the procedures.
- `filterMap_events_inline`: what is collected of the commands, when the procedures have no part
  in it.
-/

namespace Prog

variable {C P S α β γ δ ε ε' : Type} {R : C → Type}

/-- What a command is answered with, and a call: the outcome of the procedure. -/
@[reducible] def CallReply (R : C → Type) (ε γ : Type) : C ⊕ P → Type
  | .inl c => R c
  | .inr _ => Except ε γ

/-- A program that calls nothing. -/
def lift : Prog C R ε α → Prog (C ⊕ P) (CallReply R ε' γ) ε α
  | ret a => ret a
  | throw e => throw e
  | call c k => call (.inl c) fun r => (k r).lift

/-- Call a procedure and return its outcome. -/
def invoke (p : P) : Prog (C ⊕ P) (CallReply R ε' γ) ε (Except ε' γ) := call (.inr p) ret

/-- Every call is replaced by the body of the procedure. -/
def inline (body : P → Prog C R ε' γ) : Prog (C ⊕ P) (CallReply R ε' γ) ε α → Prog C R ε α
  | ret a => ret a
  | throw e => throw e
  | call (.inl c) k => call c fun r => (k r).inline body
  | call (.inr p) k => (body p).attempt.bind fun x => (k x).inline body

/-- Execute a command, or a call by running the body of the procedure to its end. -/
def handleCalls (h : (c : C) → S → R c × S) (body : P → Prog C R ε' γ) :
    (x : C ⊕ P) → S → CallReply R ε' γ x × S
  | .inl c, s => h c s
  | .inr p, s => (body p).run h s

/-- The call that an event is. -/
def callOf : Sigma (CallReply R ε γ : C ⊕ P → Type) → Option (P × Except ε γ)
  | ⟨.inl _, _⟩ => none
  | ⟨.inr p, x⟩ => some (p, x)

/-- The calls of an execution with their outcomes. -/
def calls (events : List (Sigma (CallReply R ε γ : C ⊕ P → Type))) : List (P × Except ε γ) :=
  events.filterMap callOf

@[simp] theorem calls_nil : calls ([] : List (Sigma (CallReply R ε γ : C ⊕ P → Type))) = [] := rfl

variable {body : P → Prog C R ε' γ}

theorem bind_assoc (p : Prog C R ε α) (f : α → Prog C R ε β) (g : β → Prog C R ε δ) :
    p >>= f >>= g = p >>= fun a => f a >>= g := by
  induction p with
  | ret a => rfl
  | throw e => rfl
  | call c k ih => exact congrArg (call c) (funext ih)

theorem inline_bind (p : Prog (C ⊕ P) (CallReply R ε' γ) ε α)
    (f : α → Prog (C ⊕ P) (CallReply R ε' γ) ε β) :
    (p >>= f).inline body = p.inline body >>= fun a => (f a).inline body := by
  induction p with
  | ret a => rfl
  | throw e => rfl
  | call x k ih =>
    cases x with
    | inl c => exact congrArg (call c) (funext ih)
    | inr p =>
      exact (congrArg (Prog.bind _) (funext ih)).trans (bind_assoc (body p).attempt _ _).symm

/-- Calling a procedure and going on with its outcome. -/
theorem inline_invoke_bind (p : P) (f : Except ε' γ → Prog (C ⊕ P) (CallReply R ε' γ) ε α) :
    (invoke p >>= f).inline body =
      ((body p).attempt : Prog C R ε (Except ε' γ)) >>= fun x => (f x).inline body := rfl

/-- Calling a procedure is to run it and take its outcome. -/
@[simp] theorem inline_invoke (p : P) :
    (invoke p : Prog (C ⊕ P) (CallReply R ε' γ) ε (Except ε' γ)).inline body =
      (body p).attempt := by
  change (body p).attempt.bind ret = (body p).attempt
  induction body p with
  | ret a => rfl
  | throw e => rfl
  | call c k ih => exact congrArg (call c) (funext ih)

/-- An attempt never fails, so the outcome of the sequence is that of its second part. -/
private theorem attempt_attempt_bind (p : Prog C R ε' α)
    (f : Except ε' α → Prog C R ε β) :
    ((p.attempt >>= f).attempt : Prog C R ε (Except ε β)) =
      p.attempt >>= fun x => (f x).attempt := by
  induction p with
  | ret a => rfl
  | throw e => rfl
  | call c k ih => exact congrArg (call c) (funext ih)

theorem inline_attempt (p : Prog (C ⊕ P) (CallReply R ε' γ) ε α) :
    (p.attempt : Prog (C ⊕ P) (CallReply R ε' γ) ε (Except ε α)).inline body =
      (p.inline body).attempt := by
  induction p with
  | ret a => rfl
  | throw e => rfl
  | call x k ih =>
    cases x with
    | inl c => exact congrArg (call c) (funext ih)
    | inr p =>
      exact (congrArg (Prog.bind _) (funext ih)).trans (attempt_attempt_bind (body p) _).symm

theorem inline_turn (p : Prog (C ⊕ P) (CallReply R ε' γ) ε Unit) :
    p.turn.inline body = (p.inline body).turn := by
  unfold turn
  rw [inline_bind, inline_attempt]
  rfl

@[simp] theorem inline_lift (p : Prog C R ε α) :
    (lift p : Prog (C ⊕ P) (CallReply R ε' γ) ε α).inline body = p := by
  induction p with
  | ret a => rfl
  | throw e => rfl
  | call c k ih => exact congrArg (call c) (funext ih)

@[simp] theorem inline_liftExcept (x : Except ε α) :
    (liftExcept x : Prog (C ⊕ P) (CallReply R ε' γ) ε α).inline body = liftExcept x := by
  cases x <;> rfl

theorem inline_forM (f : α → Prog (C ⊕ P) (CallReply R ε' γ) ε PUnit) (xs : List α) :
    (forM xs f).inline body = forM xs fun x => (f x).inline body := by
  induction xs with
  | nil => rfl
  | cons x xs ih => rw [List.forM_cons, inline_bind, ih, List.forM_cons]

/-- An execution of the program with the bodies in line is one of the program itself. -/
theorem run_inline (h : (c : C) → S → R c × S) (p : Prog (C ⊕ P) (CallReply R ε' γ) ε α) (s : S) :
    (p.inline body).run h s = p.run (handleCalls h body) s := by
  induction p generalizing s with
  | ret a => rfl
  | throw e => rfl
  | call x k ih =>
    cases x with
    | inl c => exact ih _ _
    | inr p =>
      change ((body p).attempt >>= fun x => (k x).inline body).run h s = _
      rw [run_bind, run_attempt]
      exact ih _ _

@[simp] theorem run_lift (h : (c : C) → S → R c × S) (p : Prog C R ε α) (s : S) :
    (lift p : Prog (C ⊕ P) (CallReply R ε' γ) ε α).run (handleCalls h body) s = p.run h s := by
  rw [← run_inline, inline_lift]

/-- What is collected of an event that is a command of the program itself. -/
def ofCommand (g : Sigma R → Option δ) : Sigma (CallReply R ε γ : C ⊕ P → Type) → Option δ
  | ⟨.inl c, r⟩ => g ⟨c, r⟩
  | ⟨.inr _, _⟩ => none

/-- What nothing of comes from the procedures is collected from the commands of the program. -/
theorem filterMap_events_inline (h : (c : C) → S → R c × S) (g : Sigma R → Option δ)
    (hbody : ∀ x s, ((body x).events h s).filterMap g = [])
    (p : Prog (C ⊕ P) (CallReply R ε' γ) ε α) (s : S) :
    ((p.inline body).events h s).filterMap g =
      (p.events (handleCalls h body) s).filterMap (ofCommand g) := by
  induction p generalizing s with
  | ret a => rfl
  | throw e => rfl
  | call x k ih =>
    cases x with
    | inl c => simp only [inline, events, List.filterMap_cons, ofCommand, handleCalls, ih]
    | inr p =>
      change (((body p).attempt >>= fun x => (k x).inline body).events h s).filterMap g = _
      rw [filterMap_events_bind, events_attempt, hbody, run_attempt]
      exact ih _ _

/-- The turns of a loop are those of the loop with the bodies in line. -/
theorem visits_inline (h : (c : C) → S → R c × S)
    (f : α → Prog (C ⊕ P) (CallReply R ε' γ) ε PUnit) (xs : List α) (s : S) :
    visits h (fun x => (f x).inline body) xs s = visits (handleCalls h body) f xs s := by
  induction xs generalizing s with
  | nil => rfl
  | cons x xs ih => rw [visits, visits, ih, run_inline]

/-- A program that calls nothing. -/
theorem calls_events_lift (h : (c : C) → S → R c × S) (p : Prog C R ε α) (s : S) :
    calls ((lift p : Prog (C ⊕ P) (CallReply R ε' γ) ε α).events (handleCalls h body) s) = [] := by
  induction p generalizing s with
  | ret a => rfl
  | throw e => rfl
  | call c k ih => exact ih _ _

@[simp] theorem run_invoke (h : (c : C) → S → R c × S) (p : P) (s : S) :
    (invoke p : Prog (C ⊕ P) (CallReply R ε' γ) ε (Except ε' γ)).run (handleCalls h body) s =
      (.ok ((body p).run h s).1, ((body p).run h s).2) := rfl

/-- A call is answered by the outcome of the procedure. -/
theorem calls_events_invoke (h : (c : C) → S → R c × S) (p : P) (s : S) :
    calls ((invoke p : Prog (C ⊕ P) (CallReply R ε' γ) ε (Except ε' γ)).events
      (handleCalls h body) s) = [(p, ((body p).run h s).1)] := rfl

/-- A sequence makes the calls of its first part and, unless that fails, then those of its
    second. -/
theorem calls_events_bind (h : (c : C) → S → R c × S)
    (p : Prog (C ⊕ P) (CallReply R ε' γ) ε α) (f : α → Prog (C ⊕ P) (CallReply R ε' γ) ε β) (s : S) :
    calls ((p >>= f).events (handleCalls h body) s) =
      calls (p.events (handleCalls h body) s) ++
        match p.run (handleCalls h body) s with
        | (.ok a, s') => calls ((f a).events (handleCalls h body) s')
        | (.error _, _) => [] := by
  rw [calls, filterMap_events_bind]
  cases p.run (handleCalls h body) s with
  | mk r s' => cases r <;> rfl

/-- The calls of a loop are those of its turns, one after another. -/
theorem calls_events_turns (h : (c : C) → S → R c × S)
    (f : α → Prog (C ⊕ P) (CallReply R ε' γ) ε Unit) (xs : List α) (s : S) :
    calls ((forM xs fun x => (f x).turn).events (handleCalls h body) s) =
      (visits h (fun x => ((f x).inline body).turn) xs s).flatMap fun v =>
        calls ((f v.1).events (handleCalls h body) v.2) := by
  simp only [← inline_turn, visits_inline]
  exact filterMap_events_turns callOf f xs s

end Prog
