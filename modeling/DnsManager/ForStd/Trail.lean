import DnsManager.ForStd.Embed

/-!
# The trail of a pool

The trail of a run lists the commands that were executed, each with the thread that issued it,
the state it met and the reply it got. What holds between the state a command leaves and the
state a later one meets, for every command there is, holds along the whole trail.

The commands of one thread form a path of its program, so that what its program obeys can be
read off them.

## Key results
- `Pool.Guarantee.pairwise_trail`: the states of a trail are related as the commands relate them.
- `Pool.path_trail`: the commands of a thread are a path of its program.
- `Obeys.path`, `Pool.obeys_trail`: every command of a thread was allowed after those before it.
-/

namespace Prog

variable {C : Type} {R : C → Type} {ε α S : Type}

/-! ## Paths -/

/-- The program issues the commands, is given the replies and goes on as the other program. -/
inductive Path : Prog C R ε α → List (Sigma R) → Prog C R ε α → Prop where
  | nil (p : Prog C R ε α) : Path p [] p
  | cons {c : C} {k : R c → Prog C R ε α} {r : R c} {es : List (Sigma R)} {p : Prog C R ε α}
      (h : Path (k r) es p) : Path (call c k) (⟨c, r⟩ :: es) p

namespace Path

/-- One more command at the end of a path. -/
theorem concat {p : Prog C R ε α} {es : List (Sigma R)} {c : C} {k : R c → Prog C R ε α}
    (hp : Path p es (call c k)) (r : R c) : Path p (es ++ [⟨c, r⟩]) (k r) := by
  generalize hq : call c k = q at hp
  induction hp with
  | nil p =>
    subst hq
    exact .cons (.nil _)
  | cons _ ih => exact .cons (ih hq)

end Path

/-- A path of a thread is one of the program it runs. -/
theorem Path.of_detach {p : Prog C R ε α} {es : List (Sigma R)} {t : Thread C R}
    (h : Path p.detach es t) : ∃ p', Path p es p' := by
  induction p generalizing es with
  | ret a =>
    cases h
    exact ⟨_, .nil _⟩
  | throw e =>
    cases h
    exact ⟨_, .nil _⟩
  | call c k ih =>
    cases h with
    | nil => exact ⟨_, .nil _⟩
    | cons hrest =>
      obtain ⟨p', hp⟩ := ih _ hrest
      exact ⟨p', .cons hp⟩

/-- A path of an embedded program is one of the program, when its commands are read back. -/
theorem Path.of_embed {C' : Type} {R' : C' → Type} {ι : Embedding R R'}
    {read : Sigma R' → Option (Sigma R)}
    (hread : ∀ c r, read ⟨ι.cmd c, r⟩ = some ⟨c, ι.reply c r⟩) {p : Prog C R ε α}
    {es : List (Sigma R')} {q : Prog C' R' ε α} (h : Path (p.embed ι) es q) :
    ∃ p', Path p (es.filterMap read) p' := by
  induction p generalizing es with
  | ret a =>
    cases h
    exact ⟨_, .nil _⟩
  | throw e =>
    cases h
    exact ⟨_, .nil _⟩
  | call c k ih =>
    cases h with
    | nil => exact ⟨_, .nil _⟩
    | @cons _ _ r es _ hrest =>
      obtain ⟨p', hp⟩ := ih _ hrest
      rw [List.filterMap_cons_some (hread c r)]
      exact ⟨p', .cons hp⟩

/-- Every command of a path was allowed after those before it. -/
theorem Obeys.path {allows : List (Sigma R) → C → Prop} {p p' : Prog C R ε α}
    {log : List (Sigma R)} {Q : Except ε α → List (Sigma R) → Prop}
    (hp : Obeys (recorder allows) p log Q) {pre post : List (Sigma R)} {e : Sigma R}
    (hpath : Path p (pre ++ e :: post) p') : allows (log ++ pre) e.1 := by
  induction pre generalizing p log with
  | nil =>
    cases hpath
    rw [List.append_nil]
    exact hp.1
  | cons e' pre ih =>
    cases hpath with
    | @cons c k r es _ hrest =>
      have hallowed : allows ((log ++ [⟨c, r⟩]) ++ pre) e.1 := ih (hp.2 r) hrest
      rwa [List.append_assoc] at hallowed

/-- What holds when the program returns holds at the end of a path on which it does. -/
theorem Obeys.of_returned {allows : List (Sigma R) → C → Prop} {p : Prog C R ε α}
    {log es : List (Sigma R)} {Q : Except ε α → List (Sigma R) → Prop}
    (hp : Obeys (recorder allows) p log Q) {a : α} (hpath : Path p es (ret a)) :
    Q (.ok a) (log ++ es) := by
  generalize hq : ret a = q at hpath
  induction hpath generalizing log with
  | nil p =>
    subst hq
    rwa [List.append_nil]
  | @cons c k r es q _ ih =>
    have hrest : Q (.ok a) ((log ++ [⟨c, r⟩]) ++ es) := ih (hp.2 r) hq
    rwa [List.append_assoc] at hrest

/-- A path stays among the commands the program may issue. -/
theorem Only.path {P : C → Prop} {p p' : Prog C R ε α} (hp : Only P p) {es : List (Sigma R)}
    (hpath : Path p es p') : ∀ e ∈ es, P e.1 := by
  induction hpath with
  | nil p => exact fun _ he => (nomatch he)
  | cons _ ih => exact List.forall_mem_cons.mpr ⟨hp.1, ih (hp.2 _)⟩

/-! ## Trails -/

namespace Pool

/-- A command that was executed, and the state it met. -/
structure Entry (C : Type) (R : C → Type) (S : Type) where
  state : S
  event : Event C R

variable (h : (c : C) → S → R c × S)

/-- The state the command has left. -/
def Entry.after (x : Entry C R S) : S := (h x.event.cmd x.state).2

/-- The commands that are executed when the threads are scheduled. -/
def trail (pool : Pool C R S) : List Nat → List (Entry C R S)
  | [] => []
  | i :: schedule =>
    match pool.threads[i]? with
    | some (.call c _) =>
      ⟨pool.state, ⟨i, c, (h c pool.state).1⟩⟩ :: trail (pool.step h i) schedule
    | _ => trail (pool.step h i) schedule

/-- The commands of one thread with their replies. -/
def own (i : Nat) (entries : List (Entry C R S)) : List (Sigma R) :=
  entries.filterMap fun x => if x.event.thread = i then some ⟨x.event.cmd, x.event.reply⟩ else none

theorem own_append (i : Nat) (xs ys : List (Entry C R S)) :
    own i (xs ++ ys) = own i xs ++ own i ys := List.filterMap_append

theorem mem_own {i : Nat} {entries : List (Entry C R S)} {e : Sigma R} :
    e ∈ own i entries ↔ ∃ x ∈ entries, x.event.thread = i ∧ ⟨x.event.cmd, x.event.reply⟩ = e := by
  simp [own]

/-- The commands of one thread in a log. -/
def ownLog (i : Nat) (log : List (Event C R)) : List (Sigma R) :=
  log.filterMap fun e => if e.thread = i then some ⟨e.cmd, e.reply⟩ else none

theorem own_eq_ownLog (i : Nat) (entries : List (Entry C R S)) :
    own i entries = ownLog i (entries.map (·.event)) := by
  simp only [own, ownLog, List.filterMap_map]
  rfl

theorem ownLog_cons (i : Nat) (e : Event C R) (log : List (Event C R)) :
    ownLog i (e :: log) =
      if e.thread = i then ⟨e.cmd, e.reply⟩ :: ownLog i log else ownLog i log := by
  unfold ownLog
  rw [List.filterMap_cons]
  by_cases hi : e.thread = i <;> simp [hi]

theorem ownLog_append (i : Nat) (log log' : List (Event C R)) :
    ownLog i (log ++ log') = ownLog i log ++ ownLog i log' := List.filterMap_append

/-- The commands of one thread in a part of a log are that part of the commands of the thread. -/
theorem ownLog_filterMap {C' : Type} {R' : C' → Type} {view : Event C' R' → Option (Event C R)}
    {read : Sigma R' → Option (Sigma R)}
    (hview : ∀ e, view e = (read ⟨e.cmd, e.reply⟩).map fun x => ⟨e.thread, x.1, x.2⟩) (i : Nat)
    (log : List (Event C' R')) :
    ownLog i (log.filterMap view) = (ownLog i log).filterMap read := by
  induction log with
  | nil => rfl
  | cons e log ih =>
    rw [List.filterMap_cons, hview, ownLog_cons]
    by_cases hi : e.thread = i
    · rw [if_pos hi, List.filterMap_cons, ← ih]
      cases read ⟨e.cmd, e.reply⟩ with
      | none => rfl
      | some x => exact (ownLog_cons ..).trans (if_pos hi)
    · rw [if_neg hi, ← ih]
      cases read ⟨e.cmd, e.reply⟩ with
      | none => rfl
      | some x => exact (ownLog_cons ..).trans (if_neg hi)

theorem mem_ownLog {i : Nat} {log : List (Event C R)} {e : Sigma R} :
    e ∈ ownLog i log ↔ ∃ e' ∈ log, e'.thread = i ∧ ⟨e'.cmd, e'.reply⟩ = e := by
  simp [ownLog]

/-- A command of the thread in the middle of a log. -/
theorem ownLog_split (pre post : List (Event C R)) (e : Event C R) :
    ownLog e.thread (pre ++ e :: post) =
      ownLog e.thread pre ++ ⟨e.cmd, e.reply⟩ :: ownLog e.thread post := by
  rw [ownLog_append, ownLog_cons, if_pos rfl]

/-- A command of the thread in the middle of a trail. -/
theorem own_split (pre post : List (Entry C R S)) (x : Entry C R S) :
    own x.event.thread (pre ++ x :: post) = own x.event.thread pre ++
      ⟨x.event.cmd, x.event.reply⟩ :: own x.event.thread post := by
  rw [own_append]
  simp [own]

/-- A command among those of one thread stands in the trail between those before and after it. -/
theorem exists_of_own_eq {i : Nat} {entries : List (Entry C R S)} {l₁ l₂ : List (Sigma R)}
    {e : Sigma R} (h : own i entries = l₁ ++ e :: l₂) :
    ∃ pre x post, entries = pre ++ x :: post ∧ own i pre = l₁ ∧ own i post = l₂ ∧
      x.event.thread = i ∧ ⟨x.event.cmd, x.event.reply⟩ = e := by
  obtain ⟨pre, rest, rfl, hpre, hrest⟩ := List.filterMap_eq_append_iff.mp h
  obtain ⟨skipped, x, post, rfl, hskipped, hx, hpost⟩ := List.filterMap_eq_cons_iff.mp hrest
  have hnone : own i skipped = [] := List.filterMap_eq_nil_iff.mpr hskipped
  split at hx
  · next hi =>
    refine ⟨pre ++ skipped, x, post, by rw [List.append_assoc], ?_, hpost, hi, Option.some.inj hx⟩
    rw [own_append, hnone, List.append_nil]
    exact hpre
  · cases hx

/-- A step is a command of one thread, or nothing. -/
theorem step_cases (pool : Pool C R S) (i : Nat) :
    (pool.step h i = pool ∧ ∀ schedule, pool.trail h (i :: schedule) = pool.trail h schedule) ∨
      ∃ c k, pool.threads[i]? = some (.call c k) ∧
        pool.step h i = ⟨(h c pool.state).2, pool.threads.set i (k (h c pool.state).1),
          pool.log ++ [⟨i, c, (h c pool.state).1⟩]⟩ ∧
        ∀ schedule, pool.trail h (i :: schedule) =
          ⟨pool.state, ⟨i, c, (h c pool.state).1⟩⟩ :: (pool.step h i).trail h schedule := by
  cases ht : pool.threads[i]? with
  | none => exact .inl ⟨by simp [step, ht], fun _ => by simp [trail, step, ht]⟩
  | some t =>
    cases t with
    | ret a => exact .inl ⟨by simp [step, ht], fun _ => by simp [trail, step, ht]⟩
    | throw e => exact .inl ⟨by simp [step, ht], fun _ => by simp [trail, step, ht]⟩
    | call c k =>
      exact .inr ⟨c, k, rfl, by simp [step, ht], fun _ => by simp [trail, ht]⟩

variable {h}

/-- The trail of a longer schedule. -/
theorem trail_append (pool : Pool C R S) (schedule schedule' : List Nat) :
    pool.trail h (schedule ++ schedule') =
      pool.trail h schedule ++ (pool.exec h schedule).trail h schedule' := by
  induction schedule generalizing pool with
  | nil => rfl
  | cons i schedule ih =>
    rw [List.cons_append]
    rcases pool.step_cases h i with ⟨hsame, htrail⟩ | ⟨c, k, -, -, htrail⟩
    · rw [htrail, htrail, ih]
      simp only [exec, List.foldl_cons, hsame]
    · rw [htrail, htrail, List.cons_append, ih]
      rfl

/-- The log of a run is its trail without the states. -/
theorem log_exec (pool : Pool C R S) (schedule : List Nat) :
    (pool.exec h schedule).log = pool.log ++ (pool.trail h schedule).map (·.event) := by
  induction schedule generalizing pool with
  | nil => exact (List.append_nil _).symm
  | cons i schedule ih =>
    change ((pool.step h i).exec h schedule).log = _
    rw [ih]
    rcases pool.step_cases h i with ⟨hsame, htrail⟩ | ⟨c, k, -, hstep, htrail⟩
    · rw [hsame, htrail]
    · rw [htrail, hstep]
      simp

/-- Every reply in a trail is the one the state gives. -/
theorem reply_of_mem_trail {pool : Pool C R S} {schedule : List Nat} {x : Entry C R S}
    (hx : x ∈ pool.trail h schedule) : x.event.reply = (h x.event.cmd x.state).1 := by
  induction schedule generalizing pool with
  | nil => cases hx
  | cons i schedule ih =>
    rcases pool.step_cases h i with ⟨-, htrail⟩ | ⟨c, k, -, -, htrail⟩
    · rw [htrail] at hx
      exact ih hx
    · rw [htrail] at hx
      rcases List.mem_cons.mp hx with rfl | hx
      · rfl
      · exact ih hx

/-- Every command leads from a state to one that is related to it, by a preorder. -/
structure Guarantee (h : (c : C) → S → R c × S) (r : S → S → Prop) : Prop where
  refl : ∀ s, r s s
  trans : ∀ {s t u}, r s t → r t u → r s u
  step : ∀ c s, r s (h c s).2

namespace Guarantee

variable {r : S → S → Prop} (hr : Guarantee h r)
include hr

/-- A step of the pool leads to a state that is related. -/
theorem pool_step (pool : Pool C R S) (i : Nat) : r pool.state (pool.step h i).state := by
  rcases pool.step_cases h i with ⟨hsame, -⟩ | ⟨c, k, -, hstep, -⟩
  · rw [hsame]
    exact hr.refl _
  · rw [hstep]
    exact hr.step _ _

theorem exec (pool : Pool C R S) (schedule : List Nat) : r pool.state (pool.exec h schedule).state := by
  induction schedule generalizing pool with
  | nil => exact hr.refl _
  | cons i schedule ih => exact hr.trans (hr.pool_step pool i) (ih _)

/-- The state at the start is related to every state a command meets. -/
theorem start_trail {pool : Pool C R S} {schedule : List Nat} {x : Entry C R S}
    (hx : x ∈ pool.trail h schedule) : r pool.state x.state := by
  induction schedule generalizing pool with
  | nil => cases hx
  | cons i schedule ih =>
    have hstep := hr.pool_step pool i
    rcases pool.step_cases h i with ⟨hsame, htrail⟩ | ⟨c, k, -, -, htrail⟩
    · rw [htrail] at hx
      exact ih hx
    · rw [htrail] at hx
      rcases List.mem_cons.mp hx with rfl | hx
      · exact hr.refl _
      · exact hr.trans hstep (ih hx)

/-- What a command leaves is related to what every later one meets. -/
theorem pairwise_trail (pool : Pool C R S) (schedule : List Nat) :
    (pool.trail h schedule).Pairwise fun x y => r (x.after h) y.state := by
  induction schedule generalizing pool with
  | nil => exact .nil
  | cons i schedule ih =>
    rcases pool.step_cases h i with ⟨-, htrail⟩ | ⟨c, k, -, hstep, htrail⟩
    · rw [htrail]
      exact ih _
    · rw [htrail]
      refine .cons (fun y hy => ?_) (ih _)
      have hrel := hr.start_trail hy
      rw [hstep] at hrel
      exact hrel

/-- What a command leaves is related to the state at the end. -/
theorem trail_exec {pool : Pool C R S} {schedule : List Nat} {x : Entry C R S}
    (hx : x ∈ pool.trail h schedule) : r (x.after h) (pool.exec h schedule).state := by
  induction schedule generalizing pool with
  | nil => cases hx
  | cons i schedule ih =>
    change r _ ((pool.step h i).exec h schedule).state
    rcases pool.step_cases h i with ⟨hsame, htrail⟩ | ⟨c, k, -, hstep, htrail⟩
    · rw [htrail] at hx
      rw [hsame]
      exact ih hx
    · rw [htrail] at hx
      rcases List.mem_cons.mp hx with rfl | hx
      · have hrel := hr.exec (pool.step h i) schedule
        rw [hstep] at hrel ⊢
        exact hrel
      · exact ih hx

end Guarantee

theorem length_threads_exec (pool : Pool C R S) (schedule : List Nat) :
    (pool.exec h schedule).threads.length = pool.threads.length := by
  induction schedule generalizing pool with
  | nil => rfl
  | cons i schedule ih =>
    change ((pool.step h i).exec h schedule).threads.length = _
    rw [ih]
    rcases pool.step_cases h i with ⟨hsame, -⟩ | ⟨c, k, -, hstep, -⟩
    · rw [hsame]
    · rw [hstep]
      exact List.length_set

/-- A command of one thread is none of another. -/
private theorem own_cons_of_ne {i : Nat} {x : Entry C R S} (hne : x.event.thread ≠ i)
    (entries : List (Entry C R S)) : own i (x :: entries) = own i entries := by
  simp [own, hne]

/-- The commands of a thread are a path of its program. -/
theorem path_trail {pool : Pool C R S} (schedule : List Nat) {i : Nat} {t : Thread C R}
    (ht : pool.threads[i]? = some t) :
    ∃ t', (pool.exec h schedule).threads[i]? = some t' ∧ Path t (own i (pool.trail h schedule)) t' := by
  induction schedule generalizing pool t with
  | nil => exact ⟨t, ht, .nil t⟩
  | cons j schedule ih =>
    change ∃ t', ((pool.step h j).exec h schedule).threads[i]? = some t' ∧ _
    rcases pool.step_cases h j with ⟨hsame, htrail⟩ | ⟨c, k, hj, hstep, htrail⟩
    · rw [htrail, hsame]
      exact ih ht
    · rw [htrail]
      by_cases hij : j = i
      · -- the command is the first one of this thread
        subst hij
        obtain rfl := Option.some.inj (hj.symm.trans ht)
        have hlt := (List.getElem?_eq_some_iff.mp ht).1
        have hset : (pool.step h j).threads[j]? = some (k (h c pool.state).1) := by
          rw [hstep]
          exact List.getElem?_set_self hlt
        obtain ⟨t', ht', hpath⟩ := ih hset
        refine ⟨t', ht', ?_⟩
        have hown := own_split [] ((pool.step h j).trail h schedule)
          (⟨pool.state, ⟨j, c, (h c pool.state).1⟩⟩ : Entry C R S)
        rw [List.nil_append] at hown
        rw [hown]
        exact .cons hpath
      · have hset : (pool.step h j).threads[i]? = some t := by
          rw [hstep]
          exact (List.getElem?_set_ne hij).trans ht
        obtain ⟨t', ht', hpath⟩ := ih hset
        refine ⟨t', ht', ?_⟩
        rw [own_cons_of_ne hij]
        exact hpath

/-- Every command in a trail is one of a thread of the pool. -/
theorem exists_thread_of_mem_trail {pool : Pool C R S} {schedule : List Nat} {x : Entry C R S}
    (hx : x ∈ pool.trail h schedule) : ∃ t, pool.threads[x.event.thread]? = some t := by
  induction schedule generalizing pool with
  | nil => cases hx
  | cons i schedule ih =>
    rcases pool.step_cases h i with ⟨-, htrail⟩ | ⟨c, k, hi, hstep, htrail⟩
    · rw [htrail] at hx
      exact ih hx
    · rw [htrail] at hx
      rcases List.mem_cons.mp hx with rfl | hx
      · exact ⟨_, hi⟩
      · obtain ⟨t, ht⟩ := ih hx
        -- a step keeps the number of threads
        have hlt := (List.getElem?_eq_some_iff.mp ht).1
        rw [hstep, List.length_set] at hlt
        exact ⟨_, List.getElem?_eq_getElem hlt⟩

/-- An event of a run is one of a thread, whose commands are a path of its program. -/
theorem path_of_mem_log {pool : Pool C R S} (hpool : pool.log = []) {schedule : List Nat}
    {e : Event C R} (he : e ∈ (pool.exec h schedule).log) :
    ∃ t t', pool.threads[e.thread]? = some t ∧
      Path t (ownLog e.thread (pool.exec h schedule).log) t' := by
  have htrail : (pool.exec h schedule).log = (pool.trail h schedule).map (·.event) := by
    rw [log_exec, hpool, List.nil_append]
  rw [htrail] at he ⊢
  obtain ⟨x, hx, rfl⟩ := List.mem_map.mp he
  obtain ⟨t, ht⟩ := exists_thread_of_mem_trail hx
  obtain ⟨t', -, hpath⟩ := path_trail (h := h) schedule ht
  exact ⟨t, t', ht, own_eq_ownLog _ (pool.trail h schedule) ▸ hpath⟩

/-- A command a thread has issued was answered in a state that is related to every later one. -/
theorem Guarantee.replied {r : S → S → Prop} (hr : Guarantee h r) {pool : Pool C R S}
    {schedule : List Nat} {pre post : List (Entry C R S)} {x : Entry C R S}
    (hsplit : pool.trail h schedule = pre ++ x :: post) {i : Nat} {c : C} {rep : R c}
    (he : ⟨c, rep⟩ ∈ own i pre) : ∃ s, rep = (h c s).1 ∧ r (h c s).2 x.state := by
  obtain ⟨y, hy, -, heq⟩ := mem_own.mp he
  have hmem : y ∈ pool.trail h schedule := by
    rw [hsplit]
    exact List.mem_append_left _ hy
  have hreply := reply_of_mem_trail hmem
  have hpairs := hr.pairwise_trail pool schedule
  rw [hsplit] at hpairs
  have hlater : r (y.after h) x.state :=
    (List.pairwise_append.mp hpairs).2.2 y hy x List.mem_cons_self
  obtain ⟨s, j, c', rep'⟩ := y
  cases heq
  exact ⟨s, hreply, hlater⟩

/-- Two commands a thread has issued were answered one after the other. -/
theorem Guarantee.replied_after {r : S → S → Prop} (hr : Guarantee h r) {pool : Pool C R S}
    {schedule : List Nat} {pre post : List (Entry C R S)} {x : Entry C R S}
    (hsplit : pool.trail h schedule = pre ++ x :: post) {i : Nat} {l₁ l₂ : List (Sigma R)} {c c' : C}
    {rep : R c} {rep' : R c'} (hown : own i pre = l₁ ++ ⟨c, rep⟩ :: l₂) (he : ⟨c', rep'⟩ ∈ l₂) :
    ∃ s s', rep = (h c s).1 ∧ rep' = (h c' s').1 ∧ r (h c s).2 s' ∧ r (h c' s').2 x.state := by
  obtain ⟨pre₁, u, pre₂, rfl, -, rfl, -, hu⟩ := exists_of_own_eq hown
  obtain ⟨v, hv, -, hv'⟩ := mem_own.mp he
  have hmem : ∀ w ∈ pre₁ ++ u :: pre₂, w ∈ pool.trail h schedule := fun w hw => by
    rw [hsplit]
    exact List.mem_append_left _ hw
  have hu₁ := reply_of_mem_trail (hmem u (by simp))
  have hv₁ := reply_of_mem_trail (hmem v (by simp [hv]))
  have hpairs := hr.pairwise_trail pool schedule
  rw [hsplit] at hpairs
  obtain ⟨hbefore, -, hlater⟩ := List.pairwise_append.mp hpairs
  have huv : r (u.after h) v.state :=
    (List.pairwise_cons.mp (List.pairwise_append.mp hbefore).2.1).1 v hv
  have hvx : r (v.after h) x.state := hlater v (by simp [hv]) x List.mem_cons_self
  obtain ⟨s, j, d, q⟩ := u
  obtain ⟨s', j', d', q'⟩ := v
  cases hu
  cases hv'
  exact ⟨s, s', hu₁, hv₁, huv, hvx⟩

/-- Of the commands of two threads one has left a state that is related to what the other has
    met. -/
theorem Guarantee.comparable {r : S → S → Prop} (hr : Guarantee h r) {pool : Pool C R S}
    {schedule : List Nat} {x y : Entry C R S} (hx : x ∈ pool.trail h schedule)
    (hy : y ∈ pool.trail h schedule) (hne : x.event.thread ≠ y.event.thread) :
    r (x.after h) y.state ∨ r (y.after h) x.state := by
  have hpairs : (pool.trail h schedule).Pairwise fun x y =>
      r (x.after h) y.state ∨ r (y.after h) x.state :=
    (hr.pairwise_trail pool schedule).imp .inl
  have : Std.Symm fun x y : Entry C R S => r (x.after h) y.state ∨ r (y.after h) x.state :=
    ⟨fun _ _ => Or.symm⟩
  exact hpairs.forall hx hy fun heq => hne (congrArg (·.event.thread) heq)

/-- Every command of a thread was allowed after those it had issued before. -/
theorem obeys_trail {pool : Pool C R S} {schedule : List Nat} {pre post : List (Entry C R S)}
    {x : Entry C R S} (hsplit : pool.trail h schedule = pre ++ x :: post) {t : Thread C R}
    (ht : pool.threads[x.event.thread]? = some t) {allows : List (Sigma R) → C → Prop}
    {Q : Except Empty Unit → List (Sigma R) → Prop}
    (hobeys : Obeys (recorder allows) t [] Q) : allows (own x.event.thread pre) x.event.cmd := by
  obtain ⟨t', -, hpath⟩ := path_trail (h := h) schedule ht
  rw [hsplit, own_split] at hpath
  exact hobeys.path hpath

/-- A thread that is not scheduled issues nothing. -/
theorem own_trail_of_notMem {pool : Pool C R S} {schedule : List Nat} {i : Nat}
    (hi : i ∉ schedule) : own i (pool.trail h schedule) = [] := by
  induction schedule generalizing pool with
  | nil => rfl
  | cons j schedule ih =>
    obtain ⟨hne, hrest⟩ := not_or.mp (List.mem_cons.not.mp hi)
    rcases pool.step_cases h j with ⟨-, htrail⟩ | ⟨c, k, -, -, htrail⟩
    · rw [htrail]
      exact ih hrest
    · rw [htrail, own_cons_of_ne (Ne.symm hne)]
      exact ih hrest

/-- A monitor of one thread has read the commands of that thread. -/
theorem after_eq_read (m : Monitor C R) (i : Nat) (entries : List (Entry C R S)) :
    m.after i (entries.map (·.event)) = m.read (own i entries) := by
  induction entries using List.reverseRecOn with
  | nil => rfl
  | append_singleton entries x ih =>
    rw [List.map_append, List.map_singleton, m.after_concat, own_append, ih]
    split
    · next hi =>
      subst hi
      have hown : own x.event.thread [x] = [⟨x.event.cmd, x.event.reply⟩] := by simp [own]
      rw [hown, m.read_concat]
    · next hi =>
      have hown : own i [x] = [] := by simp [own, hi]
      rw [hown, List.append_nil]

/-- The run up to a command of the trail. -/
theorem exists_prefix_of_split {pool : Pool C R S} {schedule : List Nat}
    {pre post : List (Entry C R S)} {x : Entry C R S}
    (hsplit : pool.trail h schedule = pre ++ x :: post) :
    ∃ before, before <+: schedule ∧ pool.trail h before = pre ∧
      (pool.exec h before).state = x.state := by
  induction schedule generalizing pool pre with
  | nil =>
    change [] = _ at hsplit
    simp at hsplit
  | cons i schedule ih =>
    rcases pool.step_cases h i with ⟨hsame, htrail⟩ | ⟨c, k, -, hstep, htrail⟩
    · rw [htrail] at hsplit
      obtain ⟨before, hbefore, hpre, hstate⟩ := ih hsplit
      refine ⟨i :: before, List.cons_prefix_cons.mpr ⟨rfl, hbefore⟩, (htrail _).trans hpre, ?_⟩
      change ((pool.step h i).exec h before).state = _
      rw [hsame]
      exact hstate
    · rw [htrail] at hsplit
      cases pre with
      | nil =>
        -- the command is the first one
        obtain ⟨rfl, -⟩ := List.cons.inj hsplit
        exact ⟨[], List.nil_prefix, rfl, rfl⟩
      | cons y pre =>
        obtain ⟨rfl, hlater⟩ := List.cons.inj hsplit
        obtain ⟨before, hbefore, rfl, hstate⟩ := ih hlater
        exact ⟨i :: before, List.cons_prefix_cons.mpr ⟨rfl, hbefore⟩, htrail _, hstate⟩

/-- The trail of one more step. -/
theorem trail_concat (pool : Pool C R S) (schedule : List Nat) (i : Nat) :
    (pool.exec h (schedule ++ [i]) = pool.exec h schedule ∧
        pool.trail h (schedule ++ [i]) = pool.trail h schedule) ∨
      ∃ c k, (pool.exec h schedule).threads[i]? = some (.call c k) ∧
        (pool.exec h (schedule ++ [i])).state = (h c (pool.exec h schedule).state).2 ∧
        pool.trail h (schedule ++ [i]) = pool.trail h schedule ++
          [⟨(pool.exec h schedule).state, ⟨i, c, (h c (pool.exec h schedule).state).1⟩⟩] := by
  rw [exec_concat, trail_append]
  rcases (pool.exec h schedule).step_cases h i with ⟨hsame, htrail⟩ | ⟨c, k, hi, hstep, htrail⟩
  · exact .inl ⟨hsame, by rw [htrail]; exact List.append_nil _⟩
  · exact .inr ⟨c, k, hi, by rw [hstep], by rw [htrail]; rfl⟩

section Invariant

variable {pool : Pool C R S} {allows : List (Sigma R) → C → Prop}
  {J : List (Entry C R S) → S → Prop}

/-- A property of the trail and the state that every allowed command preserves holds at the end
    of every run. -/
theorem trail_invariant
    (hobeys : ∀ t ∈ pool.threads, Obeys (recorder allows) t [] fun _ _ => True)
    (hstart : J [] pool.state)
    (hstep : ∀ entries s i c, J entries s → allows (own i entries) c →
      J (entries ++ [⟨s, ⟨i, c, (h c s).1⟩⟩]) (h c s).2) (schedule : List Nat) :
    J (pool.trail h schedule) (pool.exec h schedule).state := by
  induction schedule using List.reverseRecOn with
  | nil => exact hstart
  | append_singleton schedule i ih =>
    rcases pool.trail_concat (h := h) schedule i with ⟨hsame, htrail⟩ | ⟨c, k, hi, hstate, htrail⟩
    · rw [hsame, htrail]
      exact ih
    · rw [hstate, htrail]
      refine hstep _ _ _ _ ih ?_
      -- the thread was in the pool from the start, and the command is the next of its path
      have hlt : i < pool.threads.length := by
        have hlen : (pool.exec h schedule).threads.length = pool.threads.length :=
          length_threads_exec pool schedule
        have := (List.getElem?_eq_some_iff.mp hi).1
        omega
      obtain ⟨t', ht', hpath⟩ := path_trail (h := h) schedule
        (List.getElem?_eq_getElem hlt)
      obtain rfl := Option.some.inj (ht'.symm.trans hi)
      exact (hobeys _ (List.getElem_mem hlt)).path (hpath.concat (h c (pool.exec h schedule).state).1)

/-- It holds of every command of the trail, which was allowed. -/
theorem trail_invariant_split
    (hobeys : ∀ t ∈ pool.threads, Obeys (recorder allows) t [] fun _ _ => True)
    (hstart : J [] pool.state)
    (hstep : ∀ entries s i c, J entries s → allows (own i entries) c →
      J (entries ++ [⟨s, ⟨i, c, (h c s).1⟩⟩]) (h c s).2)
    {schedule : List Nat} {pre post : List (Entry C R S)} {x : Entry C R S}
    (hsplit : pool.trail h schedule = pre ++ x :: post) :
    J pre x.state ∧ allows (own x.event.thread pre) x.event.cmd := by
  have hall : ∀ pre x post, pool.trail h schedule = pre ++ x :: post →
      J pre x.state ∧ allows (own x.event.thread pre) x.event.cmd := by
    refine (trail_invariant (J := fun entries s => J entries s ∧ ∀ pre x post,
      entries = pre ++ x :: post → J pre x.state ∧ allows (own x.event.thread pre) x.event.cmd)
      hobeys ⟨hstart, fun pre x post heq => by simp at heq⟩ ?_ schedule).2
    rintro entries s i c ⟨hJ, hold⟩ hallowed
    refine ⟨hstep _ _ _ _ hJ hallowed, fun pre x post heq => ?_⟩
    rcases List.eq_nil_or_concat post with rfl | ⟨post', last, rfl⟩
    · obtain ⟨rfl, hx⟩ := List.append_inj' heq rfl
      obtain rfl := (List.cons.inj hx).1
      exact ⟨hJ, hallowed⟩
    · rw [List.concat_eq_append, ← List.cons_append, ← List.append_assoc] at heq
      obtain ⟨hentries, -⟩ := List.append_inj' heq rfl
      exact hold pre x post' hentries
  exact hall pre x post hsplit

end Invariant

end Pool

end Prog
