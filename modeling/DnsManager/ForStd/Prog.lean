/-!
# Command programs

A `Prog C R ε α` talks to the outside world only by issuing commands from `C`;
command `c` is answered by a reply of type `R c`. It ends with a value of type `α`
or stops with an error of type `ε`. The program itself is pure data, so one text of
it can be given several meanings:

* `Prog.run` executes it alone against a handler, to its end;
* `Prog.runFor` cuts the execution off after a number of commands (a crash);
* `Prog.events` lists the commands the execution issues with their replies, `Prog.trace`
  the commands alone, and `Prog.Only` says what it may issue whatever it is answered;
* `Prog.interfere` lets other parties change the state before every command.

The rules for sequencing (`run_bind`, `run_bind_eq_ok`) and for invariants
that hold at every moment of an execution (`Always`) are stated once here, for every
handler.
-/

/-- A fallible program over the commands `C` with replies `R`. -/
inductive Prog (C : Type) (R : C → Type) (ε α : Type) where
  | ret (a : α)
  | throw (e : ε)
  | call (c : C) (k : R c → Prog C R ε α)

namespace Prog

variable {C : Type} {R : C → Type} {ε ε' S α β : Type}

/-- Run `p`, then continue with its value; an error of `p` is an error of the whole. -/
def bind : Prog C R ε α → (α → Prog C R ε β) → Prog C R ε β
  | ret a, f => f a
  | throw e, _ => throw e
  | call c k, f => call c fun r => (k r).bind f

instance : Monad (Prog C R ε) where
  pure := ret
  bind := bind

/-- Issue one command and return its reply. -/
def perform (c : C) : Prog C R ε (R c) := call c ret

/-- Return the value of a result, or stop with its error. -/
def liftExcept : Except ε α → Prog C R ε α
  | .ok a => ret a
  | .error e => throw e

/-- Run `p` and hand its outcome, value or error, to the continuation. -/
def attempt : Prog C R ε α → Prog C R ε' (Except ε α)
  | ret a => ret (.ok a)
  | throw e => ret (.error e)
  | call c k => call c fun r => (k r).attempt

/-! ## Running a program to its end -/

/-- Execute a program against the handler `h`, from state `s`. -/
def run (h : (c : C) → S → R c × S) : Prog C R ε α → S → Except ε α × S
  | ret a, s => (.ok a, s)
  | throw e, s => (.error e, s)
  | call c k, s => (k (h c s).1).run h (h c s).2

variable (h : (c : C) → S → R c × S)

@[simp] theorem run_pure (a : α) (s : S) : (pure a : Prog C R ε α).run h s = (.ok a, s) := rfl

@[simp] theorem run_throw (e : ε) (s : S) :
    (throw e : Prog C R ε α).run h s = (.error e, s) := rfl

@[simp] theorem run_perform (c : C) (s : S) :
    (perform c : Prog C R ε (R c)).run h s = (.ok (h c s).1, (h c s).2) := rfl

@[simp] theorem run_liftExcept (x : Except ε α) (s : S) :
    (liftExcept x : Prog C R ε α).run h s = (x, s) := by
  cases x <;> rfl

/-- A sequence runs its first part and, unless that fails, its second. -/
theorem run_bind (p : Prog C R ε α) (f : α → Prog C R ε β) (s : S) :
    (p >>= f).run h s =
      match p.run h s with
      | (.ok a, s') => (f a).run h s'
      | (.error e, s') => (.error e, s') := by
  induction p generalizing s with
  | ret a => rfl
  | throw e => rfl
  | call c k ih => exact ih _ _

/-- The sequence succeeds exactly when both parts do. -/
theorem run_bind_eq_ok {p : Prog C R ε α} {f : α → Prog C R ε β} {s s' : S} {b : β} :
    (p >>= f).run h s = (.ok b, s') ↔
      ∃ a s₁, p.run h s = (.ok a, s₁) ∧ (f a).run h s₁ = (.ok b, s') := by
  rw [run_bind]
  cases hp : p.run h s with
  | mk r s₁ => cases r <;> simp [and_assoc]

/-- `attempt` changes nothing about the execution; it only returns the outcome. -/
@[simp] theorem run_attempt (p : Prog C R ε α) (s : S) :
    (p.attempt : Prog C R ε' (Except ε α)).run h s = (.ok (p.run h s).1, (p.run h s).2) := by
  induction p generalizing s with
  | ret a => rfl
  | throw e => rfl
  | call c k ih => exact ih _ _

/-! ## Interruption -/

/-- The state after at most `n` commands of the program: what a crash leaves behind. -/
def runFor (h : (c : C) → S → R c × S) : Nat → Prog C R ε α → S → S
  | 0, _, s => s
  | _ + 1, ret _, s => s
  | _ + 1, throw _, s => s
  | n + 1, call c k, s => runFor h n (k (h c s).1) (h c s).2

/-- `I` holds in every state the execution of a program passes through. -/
def Always (I : S → Prop) : Prog C R ε α → S → Prop
  | ret _, s => I s
  | throw _, s => I s
  | call c k, s => I s ∧ Always I (k (h c s).1) (h c s).2

namespace Always

variable {h} {I : S → Prop}

/-- The invariant holds where the execution starts. -/
theorem start {p : Prog C R ε α} {s : S} (hp : Always h I p s) : I s := by
  cases p with
  | ret a => exact hp
  | throw e => exact hp
  | call c k => exact hp.1

/-- The invariant holds wherever the execution is cut off. -/
theorem runFor {p : Prog C R ε α} {s : S} (n : Nat) (hp : Always h I p s) :
    I (Prog.runFor h n p s) := by
  induction n generalizing p s with
  | zero => exact hp.start
  | succ n ih =>
    cases p with
    | ret a => exact hp
    | throw e => exact hp
    | call c k => exact ih hp.2

/-- The invariant holds where the execution ends. -/
theorem run {p : Prog C R ε α} {s : S} (hp : Always h I p s) : I (p.run h s).2 := by
  induction p generalizing s with
  | ret a => exact hp
  | throw e => exact hp
  | call c k ih => exact ih _ hp.2

theorem bind {p : Prog C R ε α} {f : α → Prog C R ε β} {s : S} (hp : Always h I p s)
    (hf : ∀ a s', I s' → p.run h s = (.ok a, s') → Always h I (f a) s') :
    Always h I (p >>= f) s := by
  induction p generalizing s with
  | ret a => exact hf a s hp rfl
  | throw e => exact hp
  | call c k ih => exact ⟨hp.1, ih _ hp.2 hf⟩

theorem perform {c : C} {s : S} (hs : I s) (hc : I (h c s).2) :
    Always h I (Prog.perform c : Prog C R ε (R c)) s := ⟨hs, hc⟩

theorem liftExcept {x : Except ε α} {s : S} (hs : I s) :
    Always h I (Prog.liftExcept x : Prog C R ε α) s := by
  cases x <;> exact hs

/-- Issuing a command and going on with its reply. -/
theorem perform_bind {c : C} {f : R c → Prog C R ε β} {s : S} (hs : I s)
    (hf : Always h I (f (h c s).1) (h c s).2) : Always h I (Prog.perform c >>= f) s := ⟨hs, hf⟩

/-- Going on with the value of a result. -/
theorem liftExcept_bind {x : Except ε α} {f : α → Prog C R ε β} {s : S} (hs : I s)
    (hf : ∀ a, x = .ok a → Always h I (f a) s) : Always h I (Prog.liftExcept x >>= f) s := by
  cases x with
  | ok a => exact hf a rfl
  | error e => exact hs

theorem attempt {p : Prog C R ε α} {s : S} (hp : Always h I p s) :
    Always h I (p.attempt : Prog C R ε' (Except ε α)) s := by
  induction p generalizing s with
  | ret a => exact hp
  | throw e => exact hp
  | call c k ih => exact ⟨hp.1, ih _ hp.2⟩

/-- A loop keeps an invariant that its body keeps from every state satisfying it. -/
theorem forM {f : α → Prog C R ε PUnit} {xs : List α} {s : S} (hs : I s)
    (hf : ∀ x ∈ xs, ∀ s', I s' → Always h I (f x) s') : Always h I (forM xs f) s := by
  induction xs generalizing s with
  | nil => exact hs
  | cons x xs ih =>
    rw [List.forM_cons]
    refine (hf x List.mem_cons_self s hs).bind fun _ s' hs' _ => ?_
    exact ih hs' fun y hy => hf y (List.mem_cons_of_mem _ hy)

end Always

/-! ## The commands an execution issues -/

/-- The commands issued when the program is executed, with their replies, in order. -/
def events (h : (c : C) → S → R c × S) : Prog C R ε α → S → List (Sigma R)
  | ret _, _ => []
  | throw _, _ => []
  | call c k, s => ⟨c, (h c s).1⟩ :: (k (h c s).1).events h (h c s).2

/-- The commands issued when the program is executed, in order. -/
def trace (h : (c : C) → S → R c × S) (p : Prog C R ε α) (s : S) : List C :=
  (p.events h s).map Sigma.fst

@[simp] theorem events_pure (h : (c : C) → S → R c × S) (a : α) (s : S) :
    (pure a : Prog C R ε α).events h s = [] := rfl

@[simp] theorem events_throw (h : (c : C) → S → R c × S) (e : ε) (s : S) :
    (throw e : Prog C R ε α).events h s = [] := rfl

@[simp] theorem events_perform (h : (c : C) → S → R c × S) (c : C) (s : S) :
    (perform c : Prog C R ε (R c)).events h s = [⟨c, (h c s).1⟩] := rfl

@[simp] theorem events_liftExcept (h : (c : C) → S → R c × S) (x : Except ε α) (s : S) :
    (liftExcept x : Prog C R ε α).events h s = [] := by
  cases x <;> rfl

/-- Every reply is the handler's, in a state with the invariant for its position. -/
theorem exists_state_of_events {h : (c : C) → S → R c × S} {I : Nat → S → Prop}
    (hI : ∀ n c s, I n s → I (n + 1) (h c s).2) {p : Prog C R ε α} {n i : Nat} {s : S}
    (hs : I n s) {c : C} {r : R c} (hi : (p.events h s)[i]? = some ⟨c, r⟩) :
    ∃ s', I (n + i) s' ∧ r = (h c s').1 := by
  induction p generalizing n i s with
  | ret a => cases hi
  | throw e => cases hi
  | call c' k ih =>
    cases i with
    -- this command is the first, handled where the invariant holds at the start
    | zero =>
      cases hi
      exact ⟨s, hs, rfl⟩
    | succ i =>
      rw [← Nat.add_assoc, Nat.add_right_comm]
      exact ih _ (hI n c' s hs) hi

/-- A part of the state that none of the issued commands changes is as it was. -/
theorem run_frame {h : (c : C) → S → R c × S} {β : Type} {f : S → β} {p : Prog C R ε α} {s : S}
    (hf : ∀ c ∈ p.trace h s, ∀ s', f (h c s').2 = f s') : f (p.run h s).2 = f s := by
  induction p generalizing s with
  | ret a => rfl
  | throw e => rfl
  | call c k ih =>
    obtain ⟨hc, hk⟩ := List.forall_mem_cons.mp hf
    exact (ih _ hk).trans (hc s)

/-- A sequence issues the commands of its first part and, unless that fails, then those of
    its second. -/
theorem events_bind (h : (c : C) → S → R c × S) (p : Prog C R ε α) (f : α → Prog C R ε β)
    (s : S) : (p >>= f).events h s = p.events h s ++
      match p.run h s with
      | (.ok a, s') => (f a).events h s'
      | (.error _, _) => [] := by
  induction p generalizing s with
  | ret a => rfl
  | throw e => rfl
  | call c k ih => exact congrArg (List.cons _) (ih _ _)

/-- What is collected of the events of a sequence is collected from both parts. -/
theorem filterMap_events_bind {γ : Type} (g : Sigma R → Option γ) (h : (c : C) → S → R c × S)
    (p : Prog C R ε α) (f : α → Prog C R ε β) (s : S) :
    ((p >>= f).events h s).filterMap g = (p.events h s).filterMap g ++
      match p.run h s with
      | (.ok a, s') => ((f a).events h s').filterMap g
      | (.error _, _) => [] := by
  rw [events_bind, List.filterMap_append]
  cases p.run h s with
  | mk r s' => cases r <;> rfl

@[simp] theorem events_attempt (h : (c : C) → S → R c × S) (p : Prog C R ε α) (s : S) :
    (p.attempt : Prog C R ε' (Except ε α)).events h s = p.events h s := by
  induction p generalizing s with
  | ret a => rfl
  | throw e => rfl
  | call c k ih => exact congrArg (List.cons _) (ih _ _)

/-! ## The turns of a loop -/

/-- A turn of a loop that goes on when it fails. -/
def turn (p : Prog C R ε Unit) : Prog C R ε Unit := do
  let _ ← (p.attempt : Prog C R ε (Except ε Unit))
  pure ()

@[simp] theorem run_turn (h : (c : C) → S → R c × S) (p : Prog C R ε Unit) (s : S) :
    p.turn.run h s = (.ok (), (p.run h s).2) := by
  simp only [turn, run_bind, run_attempt, run_pure]

@[simp] theorem events_turn (h : (c : C) → S → R c × S) (p : Prog C R ε Unit) (s : S) :
    p.turn.events h s = p.events h s := by
  unfold turn
  rw [events_bind, events_attempt, run_attempt]
  exact List.append_nil _

theorem forM_map (g : β → α) (f : α → Prog C R ε PUnit) (xs : List β) :
    forM (xs.map g) f = forM xs fun x => f (g x) := by
  induction xs with
  | nil => rfl
  | cons x xs ih => rw [List.map_cons, List.forM_cons, List.forM_cons, ih]

/-- The turns of a loop over `xs`, each with the state it starts in. -/
def visits (h : (c : C) → S → R c × S) (f : α → Prog C R ε PUnit) : List α → S → List (α × S)
  | [], _ => []
  | x :: xs, s => (x, s) :: visits h f xs ((f x).run h s).2

section Visits

variable {h : (c : C) → S → R c × S} {f : α → Prog C R ε PUnit}

@[simp] theorem map_fst_visits (xs : List α) (s : S) :
    (visits h f xs s).map Prod.fst = xs := by
  induction xs generalizing s with
  | nil => rfl
  | cons x xs ih => exact congrArg (List.cons x) (ih _)

theorem flatMap_fst_visits {γ : Type} (g : α → List γ) (xs : List α) (s : S) :
    (visits h f xs s).flatMap (fun v => g v.1) = xs.flatMap g := by
  rw [← List.flatMap_map Prod.fst g, map_fst_visits]

/-- What every turn keeps holds in every state the loop comes to. -/
theorem visits_invariant {I : S → Prop} {xs : List α}
    (hf : ∀ x ∈ xs, ∀ s, I s → I ((f x).run h s).2) {s : S} (hs : I s) :
    ∀ v ∈ visits h f xs s, I v.2 := by
  induction xs generalizing s with
  | nil => exact fun v hv => (nomatch hv)
  | cons x xs ih =>
    obtain ⟨hx, hxs⟩ := List.forall_mem_cons.mp hf
    exact List.forall_mem_cons.mpr ⟨hs, ih hxs (hx s hs)⟩

/-- The loop comes to a turn when those before it have ended. -/
theorem mem_visits_append (hok : ∀ x s, ((f x).run h s).1 = .ok ⟨⟩) (pre : List α) (x : α)
    (post : List α) (s : S) :
    (x, ((forM pre f).run h s).2) ∈ visits h f (pre ++ x :: post) s := by
  induction pre generalizing s with
  | nil => exact List.mem_cons_self
  | cons y pre ih =>
    have hrun : (f y).run h s = (.ok ⟨⟩, ((f y).run h s).2) := Prod.ext (hok y s) rfl
    rw [List.forM_cons, run_bind, hrun]
    exact List.mem_cons_of_mem _ (ih _)

/-- A loop whose turns all end well issues the commands of its turns one after another. -/
theorem events_forM (hok : ∀ x s, ((f x).run h s).1 = .ok ⟨⟩) (xs : List α) (s : S) :
    (forM xs f).events h s = (visits h f xs s).flatMap fun v => (f v.1).events h v.2 := by
  induction xs generalizing s with
  | nil => rfl
  | cons x xs ih =>
    have hrun : (f x).run h s = (.ok ⟨⟩, ((f x).run h s).2) := Prod.ext (hok x s) rfl
    rw [List.forM_cons, events_bind, hrun]
    exact congrArg ((f x).events h s ++ ·) (ih _)

/-- What is collected of the events of a loop is collected turn by turn. -/
theorem filterMap_events_turns {γ : Type} (g : Sigma R → Option γ) (f : α → Prog C R ε Unit)
    (xs : List α) (s : S) :
    ((forM xs fun x => (f x).turn).events h s).filterMap g =
      (visits h (fun x => (f x).turn) xs s).flatMap fun v => ((f v.1).events h v.2).filterMap g := by
  rw [events_forM (fun x s => by rw [run_turn]), List.filterMap_flatMap]
  simp only [events_turn]

end Visits

/-! ## The commands a program may issue -/

/-- Whatever it is answered, the program issues commands with `P` only. -/
def Only (P : C → Prop) : Prog C R ε α → Prop
  | ret _ => True
  | throw _ => True
  | call c k => P c ∧ ∀ r, Only P (k r)

namespace Only

variable {P P' : C → Prop}

theorem pure (a : α) : Only P (Pure.pure a : Prog C R ε α) := trivial

theorem throw (e : ε) : Only P (Prog.throw e : Prog C R ε α) := trivial

theorem all (p : Prog C R ε α) : Only (fun _ => True) p := by
  induction p with
  | ret a => trivial
  | throw e => trivial
  | call c k ih => exact ⟨trivial, ih⟩

theorem mono {p : Prog C R ε α} (hp : Only P p) (h : ∀ c, P c → P' c) : Only P' p := by
  induction p with
  | ret a => trivial
  | throw e => trivial
  | call c k ih => exact ⟨h c hp.1, fun r => ih r (hp.2 r)⟩

theorem bind {p : Prog C R ε α} {f : α → Prog C R ε β} (hp : Only P p) (hf : ∀ a, Only P (f a)) :
    Only P (p >>= f) := by
  induction p with
  | ret a => exact hf a
  | throw e => trivial
  | call c k ih => exact ⟨hp.1, fun r => ih r (hp.2 r)⟩

theorem attempt {p : Prog C R ε α} (hp : Only P p) :
    Only P (p.attempt : Prog C R ε' (Except ε α)) := by
  induction p with
  | ret a => trivial
  | throw e => trivial
  | call c k ih => exact ⟨hp.1, fun r => ih r (hp.2 r)⟩

theorem turn {p : Prog C R ε Unit} (hp : Only P p) : Only P p.turn :=
  .bind (.attempt hp) fun _ => .pure _

/-- Issuing a command and going on with its reply. -/
theorem perform_bind {c : C} {f : R c → Prog C R ε β} (hc : P c) (hf : ∀ r, Only P (f r)) :
    Only P (Prog.perform c >>= f) := ⟨hc, hf⟩

theorem liftExcept (x : Except ε α) : Only P (Prog.liftExcept x : Prog C R ε α) := by
  cases x <;> trivial

/-- Going on with the value of a result. -/
theorem liftExcept_bind {x : Except ε α} {f : α → Prog C R ε β} (hf : ∀ a, Only P (f a)) :
    Only P (Prog.liftExcept x >>= f) :=
  (Only.liftExcept x).bind hf

/-- Going on with a value that is known. -/
theorem liftExcept_bind_of_ok {x : Except ε α} {f : α → Prog C R ε β}
    (hf : ∀ a, x = .ok a → Only P (f a)) : Only P (Prog.liftExcept x >>= f) := by
  cases x with
  | ok a => exact hf a rfl
  | error e => trivial

theorem forM {f : α → Prog C R ε PUnit} {xs : List α} (hf : ∀ x ∈ xs, Only P (f x)) :
    Only P (forM xs f) := by
  induction xs with
  | nil => trivial
  | cons x xs ih =>
    rw [List.forM_cons]
    exact (hf x List.mem_cons_self).bind fun _ => ih fun y hy => hf y (List.mem_cons_of_mem _ hy)

/-- An execution issues such commands only. -/
theorem of_mem_events {h : (c : C) → S → R c × S} {p : Prog C R ε α} {s : S} (hp : Only P p)
    {e : Sigma R} (he : e ∈ p.events h s) : P e.1 := by
  induction p generalizing s with
  | ret a => cases he
  | throw e => cases he
  | call c k ih =>
    cases he with
    | head => exact hp.1
    | tail _ he => exact ih _ (hp.2 _) he

theorem of_mem_trace {h : (c : C) → S → R c × S} {p : Prog C R ε α} {s : S} (hp : Only P p)
    {c : C} (hc : c ∈ p.trace h s) : P c := by
  obtain ⟨e, he, rfl⟩ := List.mem_map.mp hc
  exact hp.of_mem_events he

end Only

/-! ## Interference -/

/-- The handler `h` with other parties acting on the state: `act n` is what they do
    between command `n - 1` and command `n` of the execution. The state carries the
    number of commands issued so far. -/
def interfere (act : Nat → S → S) (h : (c : C) → S → R c × S) (c : C) (s : S × Nat) :
    R c × (S × Nat) :=
  let r := h c (act s.2 s.1)
  (r.1, (r.2, s.2 + 1))

end Prog
