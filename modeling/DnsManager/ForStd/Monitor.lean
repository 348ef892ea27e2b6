import DnsManager.ForStd.Prog

/-!
# Monitors of command programs

A `Prog.Monitor` is an automaton that reads the commands a program issues with their
replies, and says which command it may issue next. `Obeys` is the weakest precondition of
a program for a monitor, whatever it is answered, with a rule for each way to build
programs.

The monitor `recorder` keeps all it has read. A property that relates the commands of one
execution is proved as what a `recorder` allows, and `Obeys.events` then gives it for the
execution against any handler.
-/

namespace Prog

variable {C : Type} {R : C → Type} {ε ε' α β S : Type}

/-- An automaton over the commands of one thread and their replies. -/
structure Monitor (C : Type) (R : C → Type) where
  State : Type
  init : State
  /-- The thread may issue the command. -/
  allows : State → C → Prop
  next : State → (c : C) → R c → State

/-- From the monitor state `σ` the program issues allowed commands only, whatever it is
    answered, and `Q` holds of its outcome and the monitor state it ends in. -/
def Obeys (m : Monitor C R) : Prog C R ε α → m.State → (Except ε α → m.State → Prop) → Prop
  | ret a, σ, Q => Q (.ok a) σ
  | throw e, σ, Q => Q (.error e) σ
  | call c k, σ, Q => m.allows σ c ∧ ∀ r, Obeys m (k r) (m.next σ c r) Q

namespace Obeys

variable {m : Monitor C R} {σ : m.State}

theorem mono {p : Prog C R ε α} {Q Q' : Except ε α → m.State → Prop} (hp : Obeys m p σ Q)
    (hQ : ∀ x σ', Q x σ' → Q' x σ') : Obeys m p σ Q' := by
  induction p generalizing σ with
  | ret a => exact hQ _ _ hp
  | throw e => exact hQ _ _ hp
  | call c k ih => exact ⟨hp.1, fun r => ih r (hp.2 r)⟩

/-- A sequence obeys the monitor when its second part does after its first. -/
theorem bind {p : Prog C R ε α} {f : α → Prog C R ε β} {Q : Except ε β → m.State → Prop}
    (hp : Obeys m p σ fun
      | .ok a, σ' => Obeys m (f a) σ' Q
      | .error e, σ' => Q (.error e) σ') : Obeys m (p >>= f) σ Q := by
  induction p generalizing σ with
  | ret a => exact hp
  | throw e => exact hp
  | call c k ih => exact ⟨hp.1, fun r => ih r (hp.2 r)⟩

theorem attempt {p : Prog C R ε α} {Q : Except ε' (Except ε α) → m.State → Prop}
    (hp : Obeys m p σ fun x σ' => Q (.ok x) σ') :
    Obeys m (p.attempt : Prog C R ε' (Except ε α)) σ Q := by
  induction p generalizing σ with
  | ret a => exact hp
  | throw e => exact hp
  | call c k ih => exact ⟨hp.1, fun r => ih r (hp.2 r)⟩

/-- Issuing a command and going on with its reply. -/
theorem perform_bind {c : C} {f : R c → Prog C R ε β} {Q : Except ε β → m.State → Prop}
    (hc : m.allows σ c) (hf : ∀ r, Obeys m (f r) (m.next σ c r) Q) :
    Obeys m (perform c >>= f) σ Q := ⟨hc, hf⟩

/-- Going on with the value of a result. -/
theorem liftExcept_bind {x : Except ε α} {f : α → Prog C R ε β}
    {Q : Except ε β → m.State → Prop} (hok : ∀ a, x = .ok a → Obeys m (f a) σ Q)
    (herror : ∀ e, x = .error e → Q (.error e) σ) : Obeys m (liftExcept x >>= f) σ Q := by
  cases x with
  | ok a => exact hok a rfl
  | error e => exact herror e rfl

theorem liftExcept {x : Except ε α} {Q : Except ε α → m.State → Prop} (hx : Q x σ) :
    Obeys m (Prog.liftExcept x) σ Q := by
  cases x <;> exact hx

/-- A loop obeys the monitor when its body does, from every monitor state with `I`, and keeps
    `I`. -/
theorem forM (I : m.State → Prop) {f : α → Prog C R ε PUnit} {xs : List α} (hσ : I σ)
    (hf : ∀ x ∈ xs, ∀ σ', I σ' → Obeys m (f x) σ' fun _ σ'' => I σ'') :
    Obeys m (forM xs f) σ fun _ σ' => I σ' := by
  induction xs generalizing σ with
  | nil => exact hσ
  | cons x xs ih =>
    rw [List.forM_cons]
    refine bind ((hf x List.mem_cons_self σ hσ).mono fun y σ' hσ' => ?_)
    cases y with
    | ok _ => exact ih hσ' fun y hy => hf y (List.mem_cons_of_mem _ hy)
    | error e => exact hσ'

end Obeys

/-- A program that issues nothing but commands which are allowed in `σ` and lead back to it
    ends in `σ`. -/
theorem Only.obeys {m : Monitor C R} {σ : m.State} {p : Prog C R ε α}
    (hp : Only (fun c => m.allows σ c ∧ ∀ r, m.next σ c r = σ) p) :
    Obeys m p σ fun _ σ' => σ' = σ := by
  induction p with
  | ret a => rfl
  | throw e => rfl
  | call c k ih =>
    obtain ⟨⟨hc, hnext⟩, hk⟩ := hp
    refine ⟨hc, fun r => ?_⟩
    rw [hnext r]
    exact ih r (hk r)

/-! ## Recording -/

/-- The monitor whose state is the list of all commands so far with their replies. -/
def recorder (allows : List (Sigma R) → C → Prop) : Monitor C R where
  State := List (Sigma R)
  init := []
  allows
  next log c r := log ++ [⟨c, r⟩]

/-- Every command of an execution was allowed after those before it. -/
theorem Obeys.events {allows : List (Sigma R) → C → Prop} {p : Prog C R ε α}
    {log : List (Sigma R)} {Q : Except ε α → List (Sigma R) → Prop}
    (hp : Obeys (recorder allows) p log Q) (h : (c : C) → S → R c × S) {s : S}
    {pre post : List (Sigma R)} {e : Sigma R} (hsplit : p.events h s = pre ++ e :: post) :
    allows (log ++ pre) e.1 := by
  induction p generalizing log s pre with
  | ret a => exact absurd hsplit (by simp [Prog.events])
  | throw e => exact absurd hsplit (by simp [Prog.events])
  | call c k ih =>
    obtain ⟨hc, hk⟩ := hp
    cases pre with
    -- the event is the first one of the program
    | nil =>
      obtain ⟨rfl, -⟩ := List.cons.inj hsplit
      rw [List.append_nil]
      exact hc
    | cons e' pre =>
      obtain ⟨rfl, htail⟩ := List.cons.inj hsplit
      have hlog := ih _ (hk (h c s).1) htail
      rwa [show log ++ ⟨c, (h c s).1⟩ :: pre = (log ++ [⟨c, (h c s).1⟩]) ++ pre by simp]

/-- The state of a monitor after some commands and their replies. -/
def Monitor.read (m : Monitor C R) (log : List (Sigma R)) : m.State :=
  log.foldl (fun σ e => m.next σ e.1 e.2) m.init

theorem Monitor.read_concat (m : Monitor C R) (log : List (Sigma R)) (e : Sigma R) :
    m.read (log ++ [e]) = m.next (m.read log) e.1 e.2 := by
  simp only [read, List.foldl_append, List.foldl_cons, List.foldl_nil]

namespace Obeys

/-- A monitor allows what the state allows that its record leads to. -/
theorem recorded {m : Monitor C R} {p : Prog C R ε α} {log : List (Sigma R)}
    {Q : Except ε α → m.State → Prop} (hp : Obeys m p (m.read log) Q) :
    Obeys (recorder fun log c => m.allows (m.read log) c) p log fun x log' => Q x (m.read log') := by
  induction p generalizing log with
  | ret a => exact hp
  | throw e => exact hp
  | call c k ih =>
    refine ⟨hp.1, fun r => @ih r (log ++ [⟨c, r⟩]) ?_⟩
    rw [m.read_concat]
    exact hp.2 r

/-- What two recorders allow. -/
theorem both {allows allows' : List (Sigma R) → C → Prop} {p : Prog C R ε α}
    {log : List (Sigma R)} {Q Q' : Except ε α → List (Sigma R) → Prop}
    (hp : Obeys (recorder allows) p log Q) (hp' : Obeys (recorder allows') p log Q') :
    Obeys (recorder fun log c => allows log c ∧ allows' log c) p log
      fun x log' => Q x log' ∧ Q' x log' := by
  induction p generalizing log with
  | ret a => exact ⟨hp, hp'⟩
  | throw e => exact ⟨hp, hp'⟩
  | call c k ih => exact ⟨⟨hp.1, hp'.1⟩, fun r => ih r (hp.2 r) (hp'.2 r)⟩

/-- A recorder may allow more. -/
theorem weaken {allows allows' : List (Sigma R) → C → Prop} {p : Prog C R ε α}
    {log : List (Sigma R)} {Q : Except ε α → List (Sigma R) → Prop}
    (hp : Obeys (recorder allows) p log Q) (h : ∀ log c, allows log c → allows' log c) :
    Obeys (recorder allows') p log Q := by
  induction p generalizing log with
  | ret a => exact hp
  | throw e => exact hp
  | call c k ih => exact ⟨h _ _ hp.1, fun r => ih r (hp.2 r)⟩

/-- What a recorder allows, without what holds at the end. -/
theorem allowing {allows allows' : List (Sigma R) → C → Prop} {p : Prog C R ε α}
    {log : List (Sigma R)} {Q : Except ε α → List (Sigma R) → Prop}
    (hp : Obeys (recorder allows) p log Q) (h : ∀ log c, allows log c → allows' log c) :
    Obeys (recorder allows') p log fun _ _ => True :=
  (hp.weaken h).mono fun _ _ _ => trivial

end Obeys

/-- The recorder that allows everything. -/
abbrev recording (R : C → Type) : Monitor C R := recorder fun _ _ => True

/-- Every command that is issued has the property that all it may issue has, and so do those
    before it. -/
theorem Only.recorded {P : C → Prop} {p : Prog C R ε α} (hp : Only P p) {log : List (Sigma R)}
    (hlog : ∀ e ∈ log, P e.1) :
    Obeys (recorder fun log c => P c ∧ ∀ e ∈ log, P e.1) p log
      fun _ (log' : List (Sigma R)) => ∀ e ∈ log', P e.1 := by
  induction p generalizing log with
  | ret a => exact hlog
  | throw e => exact hlog
  | call c k ih =>
    refine ⟨⟨hp.1, hlog⟩, fun r => ih r (hp.2 r) fun e he => ?_⟩
    rcases List.mem_append.mp he with he | he
    · exact hlog e he
    · rw [List.mem_singleton.mp he]
      exact hp.1

end Prog
