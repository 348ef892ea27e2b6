import DnsManager.ForStd.Embed
import DnsManager.ForStd.Trail

/-!
# Commands that take several steps

A command of a program may stand for a procedure over commands of its own, between whose steps
other threads make theirs. `expand` puts the procedures in place: what was one command is then the
steps of its procedure and the event of its return. A procedure need not return.

## Key results
- `path_expand`: a path of the expanded program is a path of the program, if the steps are left out.
- `path_returned`: a procedure that returns has gone all its steps.
- `Pool.exec_of_answers`: a log that keeps to the threads and is answered by the handler is a run.
-/

namespace Prog

variable {C D : Type} {R : C → Type} {Q : D → Type} {ε α β S : Type}

/-! ## Paths of sequences -/

/-- A path of a sequence is one of its first part, or goes on in the second. -/
theorem Path.of_bind {p : Prog C R ε α} {f : α → Prog C R ε β} {es : List (Sigma R)}
    {q : Prog C R ε β} (h : Path (p >>= f) es q) :
    (∃ p', Path p es p') ∨
      ∃ a es₁ es₂, es = es₁ ++ es₂ ∧ Path p es₁ (ret a) ∧ Path (f a) es₂ q := by
  induction p generalizing es with
  | ret a => exact .inr ⟨a, [], es, rfl, .nil _, h⟩
  | throw e =>
    cases h with
    | nil => exact .inl ⟨_, .nil _⟩
  | call c k ih =>
    cases h with
    | nil => exact .inl ⟨_, .nil _⟩
    | @cons _ _ r es _ hrest =>
      rcases ih r hrest with ⟨p', hp⟩ | ⟨a, es₁, es₂, rfl, hp, hf⟩
      · exact .inl ⟨p', .cons hp⟩
      · exact .inr ⟨a, ⟨c, r⟩ :: es₁, es₂, rfl, .cons hp, hf⟩

/-! ## Expansion -/

/-- The commands of an expanded program. -/
inductive Step (R : C → Type) (D : Type) where
  /-- A command that is executed at once. -/
  | cmd (c : C)
  /-- A step of a procedure. -/
  | inner (d : D)
  /-- The procedure of a command returns. -/
  | returned (c : C) (r : R c)

/-- What a command is answered with. -/
@[reducible] def Step.Reply (R : C → Type) (Q : D → Type) : Step R D → Type
  | .cmd c => R c
  | .inner d => Q d
  | .returned .. => Unit

/-- The procedures of the commands that have one; a procedure that ends in `none` does not
    return. -/
abbrev Procedures (R : C → Type) (Q : D → Type) := (c : C) → Option (Prog D Q Empty (Option (R c)))

/-- The steps of a procedure are steps of the expanded program. -/
def innerSteps : Embedding Q (Step.Reply R Q) := ⟨.inner, fun _ r => r⟩

/-- The procedures in place of their commands. -/
def expand (body : Procedures R Q) : Thread C R → Thread (Step R D) (Step.Reply R Q)
  | ret _ => ret ()
  | throw e => throw e
  | call c k =>
    match body c with
    | none => call (.cmd c) fun r => (k r).expand body
    | some p => (p.embed innerSteps).bind fun
      | some r => call (.returned c r) fun _ => (k r).expand body
      | none => ret ()

/-- The command that was executed by an event, unless that is a step of a procedure. -/
def outer : Sigma (Step.Reply R Q) → Option (Sigma R)
  | ⟨.cmd c, r⟩ => some ⟨c, r⟩
  | ⟨.inner _, _⟩ => none
  | ⟨.returned c r, _⟩ => some ⟨c, r⟩

/-- The event of a step of a procedure. -/
def innerEvent (e : Sigma Q) : Sigma (Step.Reply R Q) := ⟨.inner e.1, e.2⟩

@[simp] theorem filterMap_outer_inner (es : List (Sigma Q)) :
    (es.map innerEvent).filterMap (outer (R := R)) = [] := by
  induction es with
  | nil => rfl
  | cons e es ih => exact ih

/-- The commands at the start of a path are a path. -/
theorem Path.of_append {p p' : Prog C R ε α} {es es' : List (Sigma R)}
    (h : Path p (es ++ es') p') : ∃ q, Path p es q := by
  induction es generalizing p with
  | nil => exact ⟨p, .nil p⟩
  | cons e es ih =>
    cases h with
    | cons hrest =>
      obtain ⟨q, hq⟩ := ih hrest
      exact ⟨q, .cons hq⟩

theorem Path.of_embed_inner {p : Prog D Q ε α} {es : List (Sigma (Step.Reply R Q))}
    {q : Prog (Step R D) (Step.Reply R Q) ε α} (h : Path (p.embed innerSteps) es q) :
    ∃ es' p', es = es'.map innerEvent ∧ q = p'.embed innerSteps ∧ Path p es' p' := by
  induction p generalizing es with
  | ret a =>
    cases h
    exact ⟨[], _, rfl, rfl, .nil _⟩
  | throw e =>
    cases h
    exact ⟨[], _, rfl, rfl, .nil _⟩
  | call c k ih =>
    cases h with
    | nil => exact ⟨[], call c k, rfl, rfl, .nil _⟩
    | @cons _ _ r es _ hrest =>
      obtain ⟨es', p', rfl, rfl, hp⟩ := ih r hrest
      exact ⟨⟨c, r⟩ :: es', p', rfl, rfl, .cons hp⟩

/-! ## Paths of expanded programs -/

variable {body : Procedures R Q}

/-- A path of a command with a procedure: steps of the procedure, or all of them, the return and a
    path of what follows. -/
theorem Path.of_expand_call {c : C} {k : R c → Thread C R} {p : Prog D Q Empty (Option (R c))}
    (hbody : body c = some p) {es : List (Sigma (Step.Reply R Q))}
    {t : Thread (Step R D) (Step.Reply R Q)} (h : Path ((call c k).expand body) es t) :
    (∃ (inside : List (Sigma Q)) (p' : _), es = inside.map innerEvent ∧ Path p inside p') ∨
      ∃ (inside : List (Sigma Q)) (r : R c) (rest : _),
        es = inside.map innerEvent ++ ⟨.returned c r, ()⟩ :: rest ∧ Path p inside (ret (some r)) ∧
          Path ((k r).expand body) rest t := by
  simp only [expand, hbody] at h
  -- the path has come to the end of the procedure or it has not
  rcases Path.of_bind h with ⟨t', hp⟩ | ⟨x, es₁, es₂, rfl, hp, hrest⟩
  · obtain ⟨inside, p', rfl, -, hp⟩ := hp.of_embed_inner
    exact .inl ⟨inside, p', rfl, hp⟩
  · obtain ⟨inside, p', rfl, hend, hp⟩ := hp.of_embed_inner
    obtain rfl : p' = ret x := by
      cases p' with
      | ret y => cases hend; rfl
      | throw e => cases hend
      | call d k' => cases hend
    cases x with
    | none =>
      -- the procedure never returns
      cases hrest
      exact .inl ⟨inside, _, List.append_nil _, hp⟩
    | some r =>
      cases hrest with
      | nil => exact .inl ⟨inside, _, List.append_nil _, hp⟩
      | cons hrest => exact .inr ⟨inside, r, _, rfl, hp, hrest⟩

/-- Without the steps of the procedures, a path of the expanded program is one of the program. -/
theorem path_expand {t : Thread C R} {es : List (Sigma (Step.Reply R Q))}
    {t' : Thread (Step R D) (Step.Reply R Q)} (h : Path (t.expand body) es t') :
    ∃ u, Path t (es.filterMap outer) u := by
  induction t generalizing es with
  | ret a =>
    cases h
    exact ⟨_, .nil _⟩
  | throw e => exact e.elim
  | call c k ih =>
    cases hbody : body c with
    | none =>
      simp only [expand, hbody] at h
      cases h with
      | nil => exact ⟨_, .nil _⟩
      | @cons _ _ r _ _ hrest =>
        obtain ⟨u, hu⟩ := ih r hrest
        exact ⟨u, .cons hu⟩
    | some p =>
      rcases Path.of_expand_call hbody h with
        ⟨inside, -, rfl, -⟩ | ⟨inside, r, rest, rfl, -, hrest⟩
      · rw [filterMap_outer_inner]
        exact ⟨_, .nil _⟩
      · obtain ⟨u, hu⟩ := ih r hrest
        rw [List.filterMap_append, filterMap_outer_inner]
        exact ⟨u, .cons hu⟩

/-- A command that is executed at once has no procedure. -/
theorem path_cmd {t : Thread C R} {es : List (Sigma (Step.Reply R Q))}
    {t' : Thread (Step R D) (Step.Reply R Q)} (h : Path (t.expand body) es t') {c : C} {r : R c}
    (he : ⟨.cmd c, r⟩ ∈ es) : body c = none := by
  induction t generalizing es with
  | ret a =>
    cases h
    cases he
  | throw e => exact e.elim
  | call c' k ih =>
    cases hbody : body c' with
    | none =>
      simp only [expand, hbody] at h
      cases h with
      | nil => cases he
      | @cons _ _ r' _ _ hrest =>
        rcases List.mem_cons.mp he with heq | he
        · cases heq
          exact hbody
        · exact ih r' hrest he
    | some p =>
      -- the steps of a procedure are no commands, so the command comes after its return
      have hinside : ∀ inside : List (Sigma Q), (⟨.cmd c, r⟩ : Sigma (Step.Reply R Q)) ∉
          inside.map innerEvent := by
        intro inside hmem
        obtain ⟨e, -, heq⟩ := List.mem_map.mp hmem
        cases heq
      rcases Path.of_expand_call hbody h with
        ⟨inside, -, rfl, -⟩ | ⟨inside, r', rest, rfl, -, hrest⟩
      · exact absurd he (hinside inside)
      · rcases List.mem_append.mp he with he | he
        · exact absurd he (hinside inside)
        · rcases List.mem_cons.mp he with heq | he
          · cases heq
          · exact ih r' hrest he

/-- Before the return of a procedure its thread has made the steps of the procedure, from its start
    to its end, and no others since it started. -/
theorem path_returned {t : Thread C R} {pre post : List (Sigma (Step.Reply R Q))} {c : C} {r : R c}
    {u : Unit} {t' : Thread (Step R D) (Step.Reply R Q)}
    (h : Path (t.expand body) (pre ++ ⟨.returned c r, u⟩ :: post) t') :
    ∃ p before, ∃ inside : List (Sigma Q), body c = some p ∧ pre = before ++ inside.map innerEvent ∧
      Path p inside (ret (some r)) := by
  generalize hes : pre ++ ⟨.returned c r, u⟩ :: post = es at h
  -- by induction on the program: the return is of its first command or of a later one
  induction t generalizing pre es with
  | ret a =>
    cases h
    simp at hes
  | throw e => exact e.elim
  | call c' k ih =>
    cases hbody : body c' with
    | none =>
      simp only [expand, hbody] at h
      cases h with
      | nil => simp at hes
      | @cons _ _ r' _ _ hrest =>
        cases pre with
        | nil => cases hes
        | cons e pre =>
          obtain ⟨rfl, htail⟩ := List.cons.inj hes
          obtain ⟨p, before, inside, hp, rfl, hpath⟩ := ih r' _ htail hrest
          exact ⟨p, _ :: before, inside, hp, rfl, hpath⟩
    | some p =>
      have hinside : ∀ inside : List (Sigma Q), (⟨.returned c r, u⟩ : Sigma (Step.Reply R Q)) ∉
          inside.map innerEvent := by
        intro inside hmem
        obtain ⟨e, -, heq⟩ := List.mem_map.mp hmem
        cases heq
      rcases Path.of_expand_call hbody h with
        ⟨inside, -, rfl, -⟩ | ⟨inside, r', rest, rfl, hpath, hrest⟩
      · refine absurd ?_ (hinside inside)
        rw [← hes]
        simp
      · rcases List.append_eq_append_iff.mp hes with ⟨as, hsteps, htail⟩ | ⟨bs, rfl, htail⟩
        · -- the steps go on to the return, so they end with it
          cases as with
          | nil =>
            obtain ⟨heq, -⟩ := List.cons.inj htail
            cases heq
            exact ⟨p, [], inside, hbody, by simpa using hsteps.symm, hpath⟩
          | cons e as =>
            obtain ⟨rfl, -⟩ := List.cons.inj htail
            refine absurd ?_ (hinside inside)
            rw [hsteps]
            simp
        · cases bs with
          | nil =>
            obtain ⟨heq, -⟩ := List.cons.inj htail
            cases heq
            exact ⟨p, [], inside, hbody, List.append_nil _, hpath⟩
          | cons e bs =>
            obtain ⟨rfl, hrest'⟩ := List.cons.inj htail
            obtain ⟨p', before, inside', hp, rfl, hpath'⟩ := ih r' _ hrest'.symm hrest
            exact ⟨p', inside.map innerEvent ++ ⟨.returned c' r', ()⟩ :: before, inside', hp,
              by simp, hpath'⟩

/-- A step of a procedure is one of the procedure of the command that its thread issues next, after
    the steps of the procedure that come last before it. -/
theorem path_inner {t : Thread C R} {pre post : List (Sigma (Step.Reply R Q))} {d : D} {q : Q d}
    {t' : Thread (Step R D) (Step.Reply R Q)}
    (h : Path (t.expand body) (pre ++ ⟨.inner d, q⟩ :: post) t') :
    ∃ c k p p' before, ∃ inside : List (Sigma Q), body c = some p ∧
      pre = before ++ inside.map innerEvent ∧
        Path t (pre.filterMap outer) (call c k) ∧ Path p (inside ++ [⟨d, q⟩]) p' := by
  generalize hes : pre ++ ⟨.inner d, q⟩ :: post = es at h
  -- by induction on the program: the step is of the procedure of its first command or of a later one
  induction t generalizing pre es with
  | ret a =>
    cases h
    simp at hes
  | throw e => exact e.elim
  | call c k ih =>
    cases hbody : body c with
    | none =>
      simp only [expand, hbody] at h
      cases h with
      | nil => simp at hes
      | @cons _ _ r _ _ hrest =>
        cases pre with
        | nil => cases hes
        | cons e pre =>
          obtain ⟨rfl, htail⟩ := List.cons.inj hes
          obtain ⟨c', k', p, p', before, inside, hp, rfl, hpath, hinside⟩ := ih r _ htail hrest
          exact ⟨c', k', p, p', _ :: before, inside, hp, rfl, .cons hpath, hinside⟩
    | some p =>
      -- the step is among those of this procedure
      have hfound : ∀ (inside : List (Sigma Q)) p' bs, Path p inside p' →
          inside.map innerEvent = pre ++ ⟨.inner d, q⟩ :: bs → ∃ c' k' p₁ p' before,
            ∃ inside : List (Sigma Q), body c' = some p₁ ∧
              pre = before ++ inside.map innerEvent ∧
                Path (call c k) (pre.filterMap outer) (call c' k') ∧
                  Path p₁ (inside ++ [⟨d, q⟩]) p' := by
        intro inside p' bs hpath hmap
        obtain ⟨before, rest, rfl, rfl, hrest⟩ := List.map_eq_append_iff.mp hmap
        obtain ⟨e, after, rfl, heq, -⟩ := List.map_eq_cons_iff.mp hrest
        obtain ⟨d', q'⟩ := e
        cases heq
        rw [filterMap_outer_inner]
        rw [List.append_cons] at hpath
        obtain ⟨p₁, hp₁⟩ := hpath.of_append
        exact ⟨c, k, p, p₁, [], before, hbody, rfl, .nil _, hp₁⟩
      rcases Path.of_expand_call hbody h with
        ⟨inside, p', rfl, hpath⟩ | ⟨inside, r, rest, rfl, hpath, hrest⟩
      · exact hfound inside p' post hpath hes.symm
      · rcases List.append_eq_append_iff.mp hes with ⟨bs, hsteps, htail⟩ | ⟨as, rfl, htail⟩
        · cases bs with
          | nil => cases htail
          | cons e bs =>
            obtain ⟨rfl, -⟩ := List.cons.inj htail
            exact hfound inside _ bs hpath hsteps
        · cases as with
          | nil => cases htail
          | cons e as =>
            -- the procedure has returned before
            obtain ⟨rfl, hlater⟩ := List.cons.inj htail
            obtain ⟨c', k', p', p₁, before, inside', hp, rfl, hpath', hinside⟩ :=
              ih r _ hlater.symm hrest
            refine ⟨c', k', p', p₁, inside.map innerEvent ++ ⟨.returned c r, ()⟩ :: before, inside',
              hp, by simp, ?_, hinside⟩
            rw [List.filterMap_append, filterMap_outer_inner]
            exact .cons hpath'

/-- The steps since a procedure was started come after every command that was executed at once. -/
theorem steps_after {l₁ l₂ before : List (Sigma (Step.Reply R Q))} {c : C} {r : R c}
    {inside : List (Sigma Q)} (h : l₁ ++ ⟨.cmd c, r⟩ :: l₂ = before ++ inside.map innerEvent) :
    ∃ before', l₂ = before' ++ inside.map innerEvent := by
  have hinside : (⟨.cmd c, r⟩ : Sigma (Step.Reply R Q)) ∉ inside.map innerEvent := by
    intro hmem
    obtain ⟨e, -, heq⟩ := List.mem_map.mp hmem
    cases heq
  rcases List.append_eq_append_iff.mp h with ⟨as, -, hafter⟩ | ⟨bs, -, hafter⟩
  · cases as with
    | nil =>
      refine absurd ?_ hinside
      rw [show inside.map innerEvent = ⟨.cmd c, r⟩ :: l₂ from hafter.symm]
      exact List.mem_cons_self
    | cons a as => exact ⟨as, (List.cons.inj hafter).2⟩
  · refine absurd ?_ hinside
    rw [hafter]
    exact List.mem_append_right _ List.mem_cons_self

/-! ## Runs from logs -/

namespace Pool

variable {h : (c : C) → S → R c × S}

/-- The handler answers the commands of a log in their order as the log says. -/
inductive Answers (h : (c : C) → S → R c × S) : S → List (Event C R) → S → Prop where
  | nil (s : S) : Answers h s [] s
  | cons {s s' : S} {i : Nat} {c : C} {log : List (Event C R)} (hlog : Answers h (h c s).2 log s') :
      Answers h s (⟨i, c, (h c s).1⟩ :: log) s'

/-- One more command in front of a log. -/
theorem Answers.of_step {s s₁ s' : S} {i : Nat} {c : C} {r : R c} {log : List (Event C R)}
    (hstep : h c s = (r, s₁)) (hlog : Answers h s₁ log s') : Answers h s (⟨i, c, r⟩ :: log) s' := by
  obtain rfl : (h c s).1 = r := congrArg Prod.fst hstep
  obtain rfl : (h c s).2 = s₁ := congrArg Prod.snd hstep
  exact .cons hlog

/-- The log of a run is answered by the handler. -/
theorem answers_trail (pool : Pool C R S) (schedule : List Nat) :
    Answers h pool.state ((pool.trail h schedule).map (·.event)) (pool.exec h schedule).state := by
  induction schedule generalizing pool with
  | nil => exact .nil _
  | cons i schedule ih =>
    change Answers h _ _ ((pool.step h i).exec h schedule).state
    rcases pool.step_cases h i with ⟨hsame, htrail⟩ | ⟨c, k, -, hstep, htrail⟩
    · -- the thread has ended
      rw [htrail, hsame]
      exact ih pool
    · rw [htrail, List.map_cons]
      refine .cons ?_
      have hrest := ih (pool.step h i)
      rwa [show (pool.step h i).state = (h c pool.state).2 by rw [hstep]] at hrest

/-- A log that is answered by the handler, and in which each thread goes a path of its program, is
    that of a run. -/
theorem exec_of_answers {pool : Pool C R S} {log : List (Event C R)} {s' : S}
    (hlog : Answers h pool.state log s')
    (hpaths : ∀ e ∈ log, ∃ t t', pool.threads[e.thread]? = some t ∧
      Path t (ownLog e.thread log) t') :
    (pool.trail h (log.map (·.thread))).map (·.event) = log ∧
      (pool.exec h (log.map (·.thread))).state = s' := by
  generalize hs : pool.state = s at hlog
  -- by induction on the log: the first command is the next of its thread
  induction hlog generalizing pool with
  | nil s => exact ⟨rfl, hs⟩
  | @cons s s' i c log hlog ih =>
    subst hs
    obtain ⟨t, t', ht, hpath⟩ := hpaths _ List.mem_cons_self
    rw [ownLog_cons, if_pos rfl] at hpath
    cases hpath with
    | @cons _ k _ _ _ hrest =>
      have hstep : pool.step h i = ⟨(h c pool.state).2, pool.threads.set i (k (h c pool.state).1),
          pool.log ++ [⟨i, c, (h c pool.state).1⟩]⟩ := by
        simp only [step, ht]
      have hlt := (List.getElem?_eq_some_iff.mp ht).1
      -- the threads after the step go the paths that are left
      have hlater : ∀ e ∈ log, ∃ u u', (pool.step h i).threads[e.thread]? = some u ∧
          Path u (ownLog e.thread log) u' := by
        intro e he
        rw [hstep]
        by_cases hi : i = e.thread
        · subst hi
          exact ⟨_, t', List.getElem?_set_self hlt, hrest⟩
        · obtain ⟨u, u', hu, hpath⟩ := hpaths e (List.mem_cons_of_mem _ he)
          rw [ownLog_cons, if_neg hi] at hpath
          exact ⟨u, u', (List.getElem?_set_ne hi).trans hu, hpath⟩
      obtain ⟨htrail, hstate⟩ := ih hlater (by rw [hstep])
      refine ⟨?_, hstate⟩
      simp only [List.map_cons, trail, ht]
      exact congrArg _ htrail

/-! ## Runs of expanded threads -/

/-- The event as one of the threads before they were expanded. -/
def outerEvent : Event (Step R D) (Step.Reply R Q) → Option (Event C R)
  | ⟨i, .cmd c, r⟩ => some ⟨i, c, r⟩
  | ⟨_, .inner _, _⟩ => none
  | ⟨i, .returned c r, _⟩ => some ⟨i, c, r⟩

theorem outerEvent_eq_some {e : Event (Step R D) (Step.Reply R Q)} {i : Nat} {c : C} {r : R c} :
    outerEvent e = some ⟨i, c, r⟩ ↔ e = ⟨i, .cmd c, r⟩ ∨ e = ⟨i, .returned c r, ()⟩ := by
  obtain ⟨j, d, q⟩ := e
  constructor
  · intro h
    cases d <;> cases h
    · exact .inl rfl
    · exact .inr rfl
  · rintro (h | h) <;> cases h <;> rfl

/-- An event of the threads before they were expanded stands in the trail before those after it. -/
theorem exists_of_outer_eq {entries : List (Entry (Step R D) (Step.Reply R Q) S)}
    {l₁ l₂ : List (Event C R)} {e : Event C R}
    (h : (entries.map (·.event)).filterMap outerEvent = l₁ ++ e :: l₂) :
    ∃ pre x post, entries = pre ++ x :: post ∧ outerEvent x.event = some e ∧
      (post.map (·.event)).filterMap outerEvent = l₂ := by
  rw [List.filterMap_map] at h
  obtain ⟨pre, rest, rfl, -, hrest⟩ := List.filterMap_eq_append_iff.mp h
  obtain ⟨skipped, x, post, rfl, -, hx, hpost⟩ := List.filterMap_eq_cons_iff.mp hrest
  rw [← List.filterMap_map] at hpost
  exact ⟨pre ++ skipped, x, post, (List.append_assoc ..).symm, hx, hpost⟩

theorem ownLog_outer (i : Nat) (log : List (Event (Step R D) (Step.Reply R Q))) :
    ownLog i (log.filterMap outerEvent) = (ownLog i log).filterMap (outer (R := R)) := by
  induction log with
  | nil => rfl
  | cons e log ih =>
    obtain ⟨j, c, r⟩ := e
    rw [ownLog_cons, List.filterMap_cons]
    by_cases hj : j = i
    · cases c <;> simp [outerEvent, outer, ownLog_cons, List.filterMap_cons, ih, hj]
    · cases c <;> simp [outerEvent, ownLog_cons, ih, hj]

/-- Expanded threads, and threads that only make steps of procedures. -/
def expandThreads (body : Procedures R Q) (threads : List (Thread C R)) (others : List (Thread D Q)) :
    List (Thread (Step R D) (Step.Reply R Q)) :=
  threads.map (·.expand body) ++ others.map (·.embed innerSteps)

variable {body : Procedures R Q} {threads : List (Thread C R)} {others : List (Thread D Q)}
  {g : (c : Step R D) → S → c.Reply R Q × S} {s : S} {schedule : List Nat}

/-- Whoever executes a command or returns from a procedure is an expanded thread. -/
theorem exists_expanded {x : Entry (Step R D) (Step.Reply R Q) S}
    (hx : x ∈ trail g { state := s, threads := expandThreads body threads others } schedule)
    {e : Event C R} (he : outerEvent x.event = some e) :
    ∃ t u, threads[x.event.thread]? = some t ∧ Path (t.expand body) (own x.event.thread
      (trail g { state := s, threads := expandThreads body threads others } schedule)) u := by
  obtain ⟨t, ht⟩ := exists_thread_of_mem_trail hx
  obtain ⟨u, -, hpath⟩ := path_trail (h := g) schedule ht
  have hthread : (expandThreads body threads others)[x.event.thread]? = some t := ht
  unfold expandThreads at hthread
  rw [List.getElem?_append] at hthread
  split at hthread
  · rw [List.getElem?_map, Option.map_eq_some_iff] at hthread
    obtain ⟨t', ht', rfl⟩ := hthread
    exact ⟨t', u, ht', hpath⟩
  · -- the others only make steps of procedures
    rw [List.getElem?_map, Option.map_eq_some_iff] at hthread
    obtain ⟨t', -, rfl⟩ := hthread
    obtain ⟨es, -, hes, -, -⟩ := hpath.of_embed_inner
    have hmem := mem_own.mpr ⟨x, hx, rfl, rfl⟩
    rw [hes] at hmem
    obtain ⟨e', -, heq⟩ := List.mem_map.mp hmem
    obtain ⟨y, i, c, r⟩ := x
    cases heq
    cases he

/-- Each thread goes a path of its program when the steps of the procedures are left out. -/
theorem path_outer {e : Event C R}
    (he : e ∈ ((trail g { state := s, threads := expandThreads body threads others }
      schedule).map (·.event)).filterMap outerEvent) :
    ∃ t t', threads[e.thread]? = some t ∧ Path t (ownLog e.thread
      (((trail g { state := s, threads := expandThreads body threads others }
        schedule).map (·.event)).filterMap outerEvent)) t' := by
  obtain ⟨e', he', heq⟩ := List.mem_filterMap.mp he
  obtain ⟨x, hx, rfl⟩ := List.mem_map.mp he'
  obtain ⟨t, u, ht, hpath⟩ := exists_expanded hx heq
  have hthread : x.event.thread = e.thread := by
    obtain ⟨y, i, c, r⟩ := x
    cases c <;> cases heq <;> rfl
  rw [hthread] at ht hpath
  rw [ownLog_outer, ← own_eq_ownLog]
  obtain ⟨t', ht'⟩ := path_expand hpath
  exact ⟨t, t', ht, ht'⟩

end Pool

end Prog
