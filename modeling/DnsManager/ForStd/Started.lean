import DnsManager.ForStd.Calls
import DnsManager.ForStd.Trail

/-!
# The calls along a path

A program with calls is run with the bodies of its procedures in line, among other programs. Which
calls it has made can be read off the commands it has issued: `started` follows the program along
them and lists the procedures it comes to. A call counts when the program has come to it, before the
first command of its body.

## Key results
- `Obeys.countP_started_le`: a program that pays for its calls with commands makes no more of them.
- `Obeys.started_ne_nil`: a command that is kept for after the first call comes after a call.
-/

namespace Prog

variable {C P α γ ε ε' : Type} {R : C → Type} [DecidableEq C]

/-! ## Following a program -/

/-- What an event answers to a command, if it is one of it. -/
def replyTo (c : C) (e : Sigma R) : Option (R c) :=
  if h : e.1 = c then some (h ▸ e.2) else none

@[simp] theorem replyTo_self (c : C) (r : R c) : replyTo c ⟨c, r⟩ = some r := dif_pos rfl

/-- The outcome of the program when it is answered as in the events, and the events after its end. -/
def replay : Prog C R ε α → List (Sigma R) → Option (Except ε α × List (Sigma R))
  | ret a, es => some (.ok a, es)
  | throw e, es => some (.error e, es)
  | call c k, es =>
    match es with
    | [] => none
    | e :: es =>
      match replyTo c e with
      | some r => (k r).replay es
      | none => none

/-- The calls the program comes to when its commands are answered as in the events. -/
def started (body : P → Prog C R ε' γ) :
    Prog (C ⊕ P) (CallReply R ε' γ) ε α → List (Sigma R) → List P
  | ret _, _ => []
  | throw _, _ => []
  | call (.inl c) k, es =>
    match es with
    | [] => []
    | e :: es =>
      match replyTo c e with
      | some r => (k r).started body es
      | none => []
  | call (.inr p) k, es =>
    p :: match (body p).replay es with
      | some (x, rest) => (k x).started body rest
      | none => []

/-- The events after the end of a program are the last ones. -/
theorem replay_suffix {p : Prog C R ε α} {es rest : List (Sigma R)} {x : Except ε α}
    (h : p.replay es = some (x, rest)) : rest <:+ es := by
  induction p generalizing es with
  | ret a =>
    cases h
    exact List.suffix_refl _
  | throw e =>
    cases h
    exact List.suffix_refl _
  | call c k ih =>
    cases es with
    | nil => cases h
    | cons e es =>
      simp only [replay] at h
      split at h
      · exact (ih _ h).trans (List.suffix_cons e es)
      · cases h

/-- More events do not change how a program has ended. -/
theorem replay_append {p : Prog C R ε α} {es rest : List (Sigma R)} {x : Except ε α}
    (h : p.replay es = some (x, rest)) (es' : List (Sigma R)) :
    p.replay (es ++ es') = some (x, rest ++ es') := by
  induction p generalizing es with
  | ret a =>
    cases h
    rfl
  | throw e =>
    cases h
    rfl
  | call c k ih =>
    cases es with
    | nil => cases h
    | cons e es =>
      simp only [replay, List.cons_append] at h ⊢
      split at h
      · exact ih _ h
      · cases h

variable {body : P → Prog C R ε' γ} {q : Prog (C ⊕ P) (CallReply R ε' γ) ε α}

/-- With more events come more calls, after those before. -/
theorem started_prefix (es es' : List (Sigma R)) :
    q.started body es <+: q.started body (es ++ es') := by
  induction q generalizing es with
  | ret a => exact List.prefix_refl _
  | throw e => exact List.prefix_refl _
  | call x k ih =>
    cases x with
    | inl c =>
      cases es with
      | nil => exact List.nil_prefix
      | cons e es =>
        simp only [started, List.cons_append]
        split
        · exact ih _ es
        · exact List.prefix_refl _
    | inr p =>
      simp only [started]
      refine List.cons_prefix_cons.mpr ⟨rfl, ?_⟩
      cases h : (body p).replay es with
      | none => exact List.nil_prefix
      | some out =>
        obtain ⟨x, rest⟩ := out
        rw [replay_append h]
        exact ih _ rest

namespace Obeys

variable {m : Monitor (C ⊕ P) (CallReply R ε' γ)} {σ : m.State} {Q : Except ε α → m.State → Prop}

omit [DecidableEq C] in
/-- Issuing a command and going on with its reply. -/
theorem lift_perform_bind {c : C} {f : R c → Prog (C ⊕ P) (CallReply R ε' γ) ε α}
    (hc : m.allows σ (.inl c)) (hf : ∀ r, Obeys m (f r) (m.next σ (.inl c) r) Q) :
    Obeys m (lift (perform c) >>= f) σ Q := ⟨hc, hf⟩

omit [DecidableEq C] in
/-- Calling a procedure and going on with its outcome. -/
theorem invoke_bind {p : P} {f : Except ε' γ → Prog (C ⊕ P) (CallReply R ε' γ) ε α}
    (hp : m.allows σ (.inr p)) (hf : ∀ x, Obeys m (f x) (m.next σ (.inr p) x) Q) :
    Obeys m (invoke p >>= f) σ Q := ⟨hp, hf⟩

end Obeys

/-! ## Calls that are paid for -/

/-- The monitor of a program whose calls of one kind are paid for, one each, by commands of one
    kind. It counts those that are paid for and not made. -/
def credit (pays : C → Bool) (costs : P → Bool) : Monitor (C ⊕ P) (CallReply R ε' γ) where
  State := Nat
  init := 0
  allows n
    | .inl _ => True
    | .inr p => costs p = true → 0 < n
  next n x _ :=
    match x with
    | .inl c => if pays c then n + 1 else n
    | .inr p => if costs p then n - 1 else n

/-- There are no more such calls than commands that pay. -/
theorem Obeys.countP_started_le {pays : C → Bool} {costs : P → Bool} {n : Nat}
    {Q : Except ε α → Nat → Prop} (hq : Obeys (credit pays costs) q n Q) (es : List (Sigma R)) :
    (q.started body es).countP costs ≤ n + es.countP (pays ·.1) := by
  induction q generalizing n es with
  | ret a => exact Nat.zero_le _
  | throw e => exact Nat.zero_le _
  | call x k ih =>
    obtain ⟨hallowed, hrest⟩ := hq
    cases x with
    | inl c =>
      cases es with
      | nil => exact Nat.zero_le _
      | cons e es =>
        obtain ⟨c', r⟩ := e
        by_cases hc : c' = c
        · subst hc
          have hle := ih r (hrest r) es
          simp only [started, replyTo_self]
          rw [List.countP_cons]
          refine hle.trans ?_
          change (if pays c' then n + 1 else n) + _ ≤ _
          split <;> omega
        · simp only [started, replyTo, dif_neg hc]
          exact Nat.zero_le _
    | inr p =>
      simp only [started, List.countP_cons]
      -- the rest of the program is paid for by what is left
      have hlater : (match (body p).replay es with
          | some (x, rest) => (k x).started body rest
          | none => []).countP costs ≤ (if costs p then n - 1 else n) + es.countP (pays ·.1) := by
        split
        · next x rest h =>
          exact (ih x (hrest x) rest).trans
            (Nat.add_le_add_left ((replay_suffix h).sublist.countP_le) _)
        · exact Nat.zero_le _
      have hpaid : costs p = true → 0 < n := hallowed
      by_cases hcosts : costs p = true
      · have := hpaid hcosts
        simp only [if_pos hcosts] at hlater ⊢
        omega
      · simp only [if_neg hcosts] at hlater ⊢
        omega

/-! ## Commands after the first call -/

/-- The monitor of a program that keeps the commands of one kind for the time after its first
    call. -/
def afterCall (kept : C → Bool) : Monitor (C ⊕ P) (CallReply R ε' γ) where
  State := Bool
  init := false
  allows called
    | .inl c => kept c = true → called = true
    | .inr _ => True
  next called x _ :=
    match x with
    | .inl _ => called
    | .inr _ => true

/-- Such a command comes after a call. -/
theorem Obeys.started_ne_nil {kept : C → Bool} {Q : Except ε α → Bool → Prop}
    (hq : Obeys (afterCall kept) q false Q) {pre post : List (Sigma R)} {e : Sigma R}
    {q' : Prog C R ε α} (hpath : Path (q.inline body) (pre ++ e :: post) q')
    (hkept : kept e.1 = true) : q.started body pre ≠ [] := by
  induction q generalizing pre with
  | ret a =>
    cases pre <;> cases hpath
  | throw e =>
    cases pre <;> cases hpath
  | call x k ih =>
    obtain ⟨hallowed, hrest⟩ := hq
    cases x with
    | inl c =>
      simp only [inline] at hpath
      cases pre with
      | nil =>
        cases hpath
        cases hallowed hkept
      | cons e' pre =>
        cases hpath with
        | @cons _ _ r _ _ hpath =>
          simp only [started, replyTo_self]
          exact ih r (hrest r) hpath
    | inr p =>
      simp only [started]
      exact List.cons_ne_nil _ _

end Prog
