import DnsManager.ForStd.Monitor
import Mathlib.Data.List.Chain

/-!
# Pools of command programs

A `Prog.Pool` runs several programs, its threads, against one shared state. A schedule
decides which thread issues its next command; every command is executed at once and
completely, and the log records who issued it and what was answered.

What a thread does is described by a `Monitor`. The invariant rules hold for every
schedule of threads that obey it:

* `Pool.invariant_exec`: what all allowed steps preserve holds at the end of every run;
* `Pool.isChain_history`: what all allowed steps do relates any two successive states.
-/

namespace Prog

variable {C : Type} {R : C → Type} {ε α S : Type}

/-! ## Pools -/

/-- A program whose outcome nobody waits for. -/
abbrev Thread (C : Type) (R : C → Type) := Prog C R Empty Unit

/-- Run a program as a thread. -/
def detach : Prog C R ε α → Thread C R
  | ret _ => ret ()
  | throw _ => ret ()
  | call c k => call c fun r => (k r).detach

theorem Obeys.detach {m : Monitor C R} {σ : m.State} {p : Prog C R ε α}
    {Q : Except ε α → m.State → Prop} (hp : Obeys m p σ Q) :
    Obeys m p.detach σ fun _ _ => True := by
  induction p generalizing σ with
  | ret a => trivial
  | throw e => trivial
  | call c k ih => exact ⟨hp.1, fun r => ih r (hp.2 r)⟩

theorem Only.detach {P : C → Prop} {p : Prog C R ε α} (hp : Only P p) : Only P p.detach := by
  induction p with
  | ret a => trivial
  | throw e => trivial
  | call c k ih => exact ⟨hp.1, fun r => ih r (hp.2 r)⟩

/-- A thread, known by its position, has issued a command and got the reply. -/
structure Event (C : Type) (R : C → Type) where
  thread : Nat
  cmd : C
  reply : R cmd

/-- The monitor state of a thread after the events of a log. -/
def Monitor.after (m : Monitor C R) (i : Nat) (log : List (Event C R)) : m.State :=
  log.foldl (fun σ e => if e.thread = i then m.next σ e.cmd e.reply else σ) m.init

@[simp] theorem Monitor.after_nil (m : Monitor C R) (i : Nat) : m.after i [] = m.init := rfl

theorem Monitor.after_concat (m : Monitor C R) (i : Nat) (log : List (Event C R))
    (e : Event C R) :
    m.after i (log ++ [e]) =
      if e.thread = i then m.next (m.after i log) e.cmd e.reply else m.after i log := by
  simp only [Monitor.after, List.foldl_append, List.foldl_cons, List.foldl_nil]

/-- Threads over a shared state, with the events so far, oldest first. -/
structure Pool (C : Type) (R : C → Type) (S : Type) where
  state : S
  threads : List (Thread C R)
  log : List (Event C R) := []

namespace Pool

variable (h : (c : C) → S → R c × S)

/-- Thread `i` issues its next command; nothing happens if it has ended. -/
def step (pool : Pool C R S) (i : Nat) : Pool C R S :=
  match pool.threads[i]? with
  | some (.call c k) =>
    { state := (h c pool.state).2
      threads := pool.threads.set i (k (h c pool.state).1)
      log := pool.log ++ [⟨i, c, (h c pool.state).1⟩] }
  | _ => pool

/-- The threads issue commands in the order of the schedule. -/
def exec (pool : Pool C R S) (schedule : List Nat) : Pool C R S := schedule.foldl (step h) pool

theorem exec_append (pool : Pool C R S) (schedule schedule' : List Nat) :
    pool.exec h (schedule ++ schedule') = (pool.exec h schedule).exec h schedule' :=
  List.foldl_append

@[simp] theorem exec_concat (pool : Pool C R S) (schedule : List Nat) (i : Nat) :
    pool.exec h (schedule ++ [i]) = (pool.exec h schedule).step h i := exec_append ..

/-- The shared states a run passes through, the first and the last included. -/
def history : Pool C R S → List Nat → List S
  | pool, [] => [pool.state]
  | pool, i :: schedule => pool.state :: history (pool.step h i) schedule

/-- The log and the state satisfy `I`, and every thread obeys the monitor from where its
    events have brought it. -/
structure Invariant (m : Monitor C R) (I : S → List (Event C R) → Prop) (pool : Pool C R S) :
    Prop where
  holds : I pool.state pool.log
  obeys : ∀ i t, pool.threads[i]? = some t → Obeys m t (m.after i pool.log) fun _ _ => True

variable {h} {m : Monitor C R} {I : S → List (Event C R) → Prop}

/-- A pool of programs that obey the monitor from its start. -/
theorem Invariant.start {s : S} {threads : List (Thread C R)} (hI : I s [])
    (hthreads : ∀ t ∈ threads, Obeys m t m.init fun _ _ => True) :
    Invariant m I { state := s, threads } :=
  ⟨hI, fun _ t ht => hthreads t (List.mem_of_getElem? ht)⟩

/-- A step is an allowed command of one thread, or nothing. -/
theorem Invariant.step_cases {pool : Pool C R S} (hpool : Invariant m I pool) (i : Nat) :
    pool.step h i = pool ∨ ∃ c, m.allows (m.after i pool.log) c ∧
      (pool.step h i).state = (h c pool.state).2 ∧
      (pool.step h i).log = pool.log ++ [⟨i, c, (h c pool.state).1⟩] := by
  unfold step
  split
  · next c k ht => exact .inr ⟨c, (hpool.obeys i _ ht).1, rfl, rfl⟩
  · exact .inl rfl

/-- The event of a step is one of the thread that was scheduled. -/
theorem thread_of_step {pool : Pool C R S} {i : Nat} {e : Event C R}
    (hlog : (pool.step h i).log = pool.log ++ [e]) : e.thread = i := by
  unfold step at hlog
  split at hlog
  · obtain ⟨rfl, -⟩ := List.cons.inj (List.append_cancel_left hlog)
    rfl
  · simp at hlog

/-- What every allowed command preserves is preserved by a step of the pool. -/
theorem Invariant.step
    (hI : ∀ s log i c, I s log → m.allows (m.after i log) c →
      I (h c s).2 (log ++ [⟨i, c, (h c s).1⟩]))
    {pool : Pool C R S} (hpool : Invariant m I pool) (i : Nat) :
    Invariant m I (pool.step h i) := by
  unfold Pool.step
  split
  · next c k ht =>
    obtain ⟨hallowed, hrest⟩ := hpool.obeys i _ ht
    refine ⟨hI _ _ i c hpool.holds hallowed, fun j t htj => ?_⟩
    -- the thread that moved obeys from its new phase, the others from the phase they had
    rw [m.after_concat]
    rw [List.getElem?_set] at htj
    split at htj
    · next hij =>
      subst hij
      split at htj
      · cases htj
        rw [if_pos rfl]
        exact hrest _
      · cases htj
    · next hij =>
      rw [if_neg hij]
      exact hpool.obeys j t htj
  · exact hpool

/-- What every allowed command preserves holds at the end of every run. -/
theorem invariant_exec
    (hI : ∀ s log i c, I s log → m.allows (m.after i log) c →
      I (h c s).2 (log ++ [⟨i, c, (h c s).1⟩]))
    {pool : Pool C R S} (hpool : Invariant m I pool) (schedule : List Nat) :
    Invariant m I (pool.exec h schedule) := by
  induction schedule generalizing pool with
  | nil => exact hpool
  | cons i schedule ih => exact ih (hpool.step hI i)

theorem head?_history (pool : Pool C R S) (schedule : List Nat) :
    (history h pool schedule).head? = some pool.state := by
  cases schedule <;> rfl

/-- Any two successive states of a run are related as every allowed command relates them. -/
theorem isChain_history
    (hI : ∀ s log i c, I s log → m.allows (m.after i log) c →
      I (h c s).2 (log ++ [⟨i, c, (h c s).1⟩]))
    {r : S → S → Prop} (hrefl : ∀ s, r s s)
    (hr : ∀ s log i c, I s log → m.allows (m.after i log) c → r s (h c s).2)
    {pool : Pool C R S} (hpool : Invariant m I pool) (schedule : List Nat) :
    (history h pool schedule).IsChain r := by
  induction schedule generalizing pool with
  | nil => exact .singleton _
  | cons i schedule ih =>
    refine (ih (hpool.step hI i)).cons fun s hs => ?_
    -- the history of the rest starts with the state after this step
    obtain rfl : (pool.step h i).state = s := by
      rw [head?_history] at hs
      exact Option.some.inj hs
    rcases hpool.step_cases (h := h) i with hsame | ⟨c, hallowed, hstate, -⟩
    · rw [hsame]
      exact hrefl _
    · rw [hstate]
      exact hr _ _ i c hpool.holds hallowed

end Pool

end Prog
