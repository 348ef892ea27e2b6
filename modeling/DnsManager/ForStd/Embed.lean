import DnsManager.ForStd.Pool

/-!
# Programs over a part of the commands

When the commands `C` are among the commands `C'`, a program over `C` is one over `C'`. An
`Embedding` says so, and `embed` makes the program.

## Key results
- `run_embed`: the program has the executions it had, on the part of the state it works on.
- `Obeys.embed`: what it obeys as a program over `C` it obeys as one over `C'`.
-/

namespace Prog

variable {C C' : Type} {R : C → Type} {R' : C' → Type} {ε ε' α β S S' : Type}

/-- Every command of `C` is one of `C'`, and its replies can be read. -/
structure Embedding (R : C → Type) (R' : C' → Type) where
  cmd : C → C'
  reply : (c : C) → R' (cmd c) → R c

/-- The program as one over the larger set of commands. -/
def embed (ι : Embedding R R') : Prog C R ε α → Prog C' R' ε α
  | ret a => ret a
  | throw e => throw e
  | call c k => call (ι.cmd c) fun r => (k (ι.reply c r)).embed ι

variable (ι : Embedding R R')

theorem embed_bind (p : Prog C R ε α) (f : α → Prog C R ε β) :
    (p >>= f).embed ι = p.embed ι >>= fun a => (f a).embed ι := by
  induction p with
  | ret a => rfl
  | throw e => rfl
  | call c k ih => exact congrArg (call _) (funext fun r => ih _)

@[simp] theorem embed_liftExcept (x : Except ε α) :
    (liftExcept x : Prog C R ε α).embed ι = liftExcept x := by
  cases x <;> rfl

/-- The handler `h'` answers the commands as `h` does on the part `get` of its state. -/
structure Embedding.Simulates (h : (c : C) → S → R c × S) (h' : (c : C') → S' → R' c × S')
    (get : S' → S) : Prop where
  reply : ∀ c s, ι.reply c (h' (ι.cmd c) s).1 = (h c (get s)).1
  state : ∀ c s, get (h' (ι.cmd c) s).2 = (h c (get s)).2

variable {ι}

/-- An execution of the embedded program is one of the program itself. -/
theorem run_embed {h : (c : C) → S → R c × S} {h' : (c : C') → S' → R' c × S'} {get : S' → S}
    (hsim : ι.Simulates h h' get) (p : Prog C R ε α) (s : S') :
    ((p.embed ι).run h' s).1 = (p.run h (get s)).1 ∧
      get ((p.embed ι).run h' s).2 = (p.run h (get s)).2 := by
  induction p generalizing s with
  | ret a => exact ⟨rfl, rfl⟩
  | throw e => exact ⟨rfl, rfl⟩
  | call c k ih =>
    obtain ⟨hvalue, hstate⟩ := ih (ι.reply c (h' (ι.cmd c) s).1) (h' (ι.cmd c) s).2
    rw [hsim.state, hsim.reply] at hvalue hstate
    simp only [embed, run]
    rw [hsim.reply]
    exact ⟨hvalue, hstate⟩

/-- A program obeys a monitor of the larger set of commands when it obeys one of its own that
    is a part of it. -/
theorem Obeys.embed {m : Monitor C R} {m' : Monitor C' R'} (part : m'.State → m.State)
    (hallows : ∀ σ c, m.allows (part σ) c → m'.allows σ (ι.cmd c))
    (hnext : ∀ σ c r, part (m'.next σ (ι.cmd c) r) = m.next (part σ) c (ι.reply c r))
    {p : Prog C R ε α} {σ : m'.State} {Q : Except ε α → m.State → Prop}
    (hp : Obeys m p (part σ) Q) : Obeys m' (p.embed ι) σ fun x σ' => Q x (part σ') := by
  induction p generalizing σ with
  | ret a => exact hp
  | throw e => exact hp
  | call c k ih =>
    refine ⟨hallows σ c hp.1, fun r => ih _ ?_⟩
    rw [hnext]
    exact hp.2 _

/-- The commands a program issues are those it issued. -/
theorem Only.embed {P : C → Prop} {P' : C' → Prop} (hP : ∀ c, P c → P' (ι.cmd c))
    {p : Prog C R ε α} (hp : Only P p) : Only P' (p.embed ι) := by
  induction p with
  | ret a => trivial
  | throw e => trivial
  | call c k ih => exact ⟨hP c hp.1, fun r => ih _ (hp.2 _)⟩

end Prog
