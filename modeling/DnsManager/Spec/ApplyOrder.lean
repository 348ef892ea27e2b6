import DnsManager.ForStd.Rfc3339
import DnsManager.Spec.ChangesetCreation
import DnsManager.Spec.Lifecycle
import DnsManager.Spec.Sample
import Mathlib.Data.List.Sort

/-!
# Change sets are applied in the order of their creation

`create_changeset` stores the time as text, and the worker lists the validated change sets by
`ORDER BY created_at`, which compares the texts. The texts of two instants have different
lengths where one shows a longer fraction than the other; their order is the order of the
instants nevertheless.

## Key results
- `createdAt_createChangeset`, `createdAt_handle`: the rows show the instants of creation.
- `started_in_order_of_creation`: the worker starts every validated change set once, and an
  earlier one before a later one, whatever fails.
-/

namespace DnsManager

open Prog (Only liftExcept)
open Rfc3339 (CivilTime InRange)

/-- chrono prints a UTC time of the years 0000 to 9999 as its RFC 3339 text. -/
class LawfulChrono [Chrono] : Prop where
  toRfc3339_instant : ∀ c : CivilTime, Chrono.toRfc3339 c.instant = c.text

/-- The texts of two instants are in their order. -/
theorem le_of_toRfc3339_le [Chrono] [LawfulChrono] {s t : Int} (hs : InRange s) (ht : InRange t)
    (hle : Chrono.toRfc3339 s ≤ Chrono.toRfc3339 t) : s ≤ t := by
  rw [← CivilTime.instant_civil hs, ← CivilTime.instant_civil ht] at hle ⊢
  rw [LawfulChrono.toRfc3339_instant, LawfulChrono.toRfc3339_instant] at hle
  apply not_lt.mp
  intro hlt
  exact absurd (CivilTime.text_lt hlt) (not_lt.mpr hle)

/-! ## The time of creation -/

/-- Every change set shows the instant `creation` gives for its id. -/
def CreatedAt [Chrono] (creation : String → Int) (db : Database) : Prop :=
  ∀ row ∈ db.changesets, InRange (creation row.id) ∧
    row.createdAt = Chrono.toRfc3339 (creation row.id)

section CreatedAt

variable [Chrono] {creation : String → Int}

theorem createdAt_setStatus {db : Database} (h : CreatedAt creation db) (id : String)
    (guard : Changeset → Bool) (status : ChangeSetStatus) (now : String) :
    CreatedAt creation (db.setStatus id guard status now) := by
  intro row hrow
  have hmem : row ∈ db.changesets.modify (fun row => row.id == id && guard row)
    (fun row => { row with status, updatedAt := now }) fun _ => rfl := hrow
  obtain ⟨old, hold, rfl⟩ := Table.mem_modify hmem
  split
  · exact h old hold
  · exact h old hold

/-- No command changes the time of creation. -/
theorem createdAt_handle {w : World} (h : CreatedAt creation w.db) (env : Env) (c : Cmd) :
    CreatedAt creation (handle env c w).2.db := by
  rcases handle_db env c w with hdb | ⟨id, guard, status, now, hdb⟩
  · rw [hdb]
    exact h
  · rw [hdb]
    exact createdAt_setStatus h id guard status now

/-- A new change set shows the instant of the request. -/
theorem createdAt_createChangeset [SerdeJson] {db db' : Database} (h : CreatedAt creation db)
    {id : String} {t : Int} (ht : InRange t) {body : CreateChangesetRequest}
    (hcreate : createChangeset db id (Chrono.toRfc3339 t) body = .ok db') :
    CreatedAt (Function.update creation id t) db' := by
  have hinsert := changesets_createChangeset hcreate
  intro row hrow
  rcases (Table.mem_insert hinsert).mp hrow with hold | rfl
  · -- the id is new, so the instants of the other change sets stay
    have hne : row.id ≠ id := Table.find?_eq_none.mp (Table.insert_eq_some hinsert).2 row hold
    rw [Function.update_of_ne hne]
    exact h row hold
  · rw [Function.update_self]
    exact ⟨ht, rfl⟩

end CreatedAt

/-! ## The order of the list -/

/-- `SELECT id, rollback_policy FROM changesets WHERE status = 'validated' ORDER BY created_at` -/
def Database.applyQueue (db : Database) : List Changeset :=
  (db.changesets.select fun row => row.status == .validated).insertionSort
    fun x y => x.createdAt ≤ y.createdAt

/-- The list is in the order of creation. -/
theorem pairwise_applyQueue [Chrono] [LawfulChrono] {creation : String → Int} {db : Database}
    (h : CreatedAt creation db) :
    (db.applyQueue.map (·.id)).Pairwise fun a b => creation a ≤ creation b := by
  have hsorted : db.applyQueue.Pairwise fun x y => x.createdAt ≤ y.createdAt :=
    List.pairwise_insertionSort ..
  rw [List.pairwise_map]
  refine hsorted.imp_of_mem fun {x y} hx hy hle => ?_
  obtain ⟨hxrange, hxtext⟩ := h x (Table.mem_select.mp ((List.mem_insertionSort _).mp hx)).1
  obtain ⟨hyrange, hytext⟩ := h y (Table.mem_select.mp ((List.mem_insertionSort _).mp hy)).1
  rw [hxtext, hytext] at hle
  exact le_of_toRfc3339_le hxrange hyrange hle

/-- In a list ordered by `f` the place of the smaller value is in front. -/
private theorem idxOf_lt_of_pairwise {f : String → Int} {l : List String}
    (hsorted : l.Pairwise fun a b => f a ≤ f b) {a b : String} (ha : a ∈ l)
    (hlt : f a < f b) : l.idxOf a < l.idxOf b := by
  apply Nat.lt_of_not_le
  intro hle
  have hai : l.idxOf a < l.length := List.idxOf_lt_length_of_mem ha
  rcases Nat.lt_or_eq_of_le hle with hba | heq
  · have hab := List.pairwise_iff_getElem.mp hsorted _ _ (hba.trans hai) hai hba
    rw [List.getElem_idxOf, List.getElem_idxOf] at hab
    omega
  · rw [(List.idxOf_inj ha).mp heq.symm] at hlt
    exact absurd hlt (lt_irrefl _)

/-! ## The order of the starts -/

/-- The change set that a command begins with: the worker tries to claim it. -/
def Cmd.startOf : Cmd → Option String
  | .updateStatus id .validated .applying => some id
  | _ => none

/-- The work on a claimed change set starts no other. -/
theorem Cmd.IsWork.startOf {c : Cmd} (hc : c.IsWork) : c.startOf = none := by
  unfold Cmd.startOf
  split
  · exact absurd rfl hc.1
  · rfl

section Worker

variable [CryptoLib] [SerdeJson] (worker : ReconcileWorker)

/-- The change sets that a pass starts, in order. Other parties act between its commands. -/
def ReconcileWorker.started (act : Nat → World → World) (env : Env) (w : World) : List String :=
  (worker.processApplyBatch.trace (Prog.interfere act (handle env)) (w, 0)).filterMap Cmd.startOf

/-- `apply_single_changeset` reads the clock and tries to claim its change set, and what it
    does then starts no other. -/
private theorem applySingleChangeset_eq (id rollbackPolicy : String) :
    ∃ rest : Nat → Except DbError Nat → WorkerM Unit,
      worker.applySingleChangeset id rollbackPolicy =
        .call .instant (fun start => .call (.updateStatus id .validated .applying) (rest start)) ∧
      ∀ start claimed, Only (fun c => c.startOf = none) (rest start claimed) := by
  unfold ReconcileWorker.applySingleChangeset updateChangesetStatus
  rw [if_neg (by decide)]
  refine ⟨_, rfl, fun start claimed => ?_⟩
  apply Only.bind
  · apply Only.liftExcept_bind
    intro affected
    split
    · exact .throw _
    · exact .pure _
  intro _
  refine .perform_bind rfl fun _ => .liftExcept_bind fun items => ?_
  apply Only.mono (P := Cmd.IsWork)
  · apply Only.bind (.attempt (only_applyItems worker items []))
    intro x
    cases x with
    | ok applied => exact only_updateChangesetStatus id nofun
    | error e => exact only_applyFailed worker id rollbackPolicy start e.1
  · exact fun c hc => hc.startOf

/-- Whatever it is answered, `apply_single_changeset` starts its change set and no other. -/
theorem starts_applySingleChangeset {S : Type} (h : (c : Cmd) → S → c.Reply × S)
    (id rollbackPolicy : String) (s : S) :
    ((worker.applySingleChangeset id rollbackPolicy).events h s).filterMap
      (fun e => e.1.startOf) = [id] := by
  obtain ⟨rest, heq, hrest⟩ := applySingleChangeset_eq worker id rollbackPolicy
  rw [heq, Prog.events, Prog.events, List.filterMap_cons_none rfl,
    List.filterMap_cons_some (f := fun e : Sigma Cmd.Reply => e.1.startOf) (b := id) rfl]
  apply congrArg (List.cons id)
  apply List.filterMap_eq_nil_iff.mpr
  intro e he
  exact (hrest _ _).of_mem_events he

/-- The pass starts the change sets of its list, in the order of the list. -/
theorem started_eq {act : Nat → World → World} {env : Env} {w : World}
    (hread : env.queries (act 0 w).queries = none) :
    worker.started act env w = (act 0 w).db.applyQueue.map (·.id) := by
  have hreply : (Prog.interfere act (handle env) .selectValidated (w, 0)).1 =
      .ok (act 0 w).db.applyQueue := by
    change ((act 0 w).query env Database.applyQueue).1 = _
    rw [World.query_of_none hread]
  -- a turn ends well whatever happens in it, and starts the change set of its row
  have hok : ∀ (row : Changeset) s,
      ((logged (worker.applySingleChangeset row.id row.rollbackPolicy)).run
        (Prog.interfere act (handle env)) s).1 = .ok ⟨⟩ := by
    intro row s
    unfold logged
    rw [Prog.run_bind, Prog.run_attempt]
    rfl
  have hturn : ∀ (row : Changeset) s,
      ((logged (worker.applySingleChangeset row.id row.rollbackPolicy)).events
        (Prog.interfere act (handle env)) s).filterMap (fun e => e.1.startOf) = [row.id] := by
    intro row s
    unfold logged
    rw [Prog.events_bind, Prog.events_attempt, Prog.run_attempt]
    change (_ ++ []).filterMap _ = _
    rw [List.append_nil]
    exact starts_applySingleChangeset worker _ row.id row.rollbackPolicy s
  have hloop : ∀ reply, reply = Except.ok (act 0 w).db.applyQueue → ∀ s,
      ((liftExcept reply >>= fun rows => forM rows fun row =>
        logged (worker.applySingleChangeset row.id row.rollbackPolicy)).events
          (Prog.interfere act (handle env)) s).filterMap (fun e => e.1.startOf) =
        (act 0 w).db.applyQueue.map (·.id) := by
    intro reply hreply s
    subst hreply
    refine (congrArg (List.filterMap _) (Prog.events_forM hok _ s)).trans ?_
    rw [List.filterMap_flatMap]
    simp only [hturn]
    rw [← List.map_eq_flatMap]
    refine List.map_map.symm.trans ?_
    exact congrArg (List.map Changeset.id) (Prog.map_fst_visits ..)
  unfold ReconcileWorker.started Prog.trace ReconcileWorker.processApplyBatch
  rw [List.filterMap_map]
  exact (List.filterMap_cons_none (f := fun e : Sigma Cmd.Reply => e.1.startOf) rfl).trans
    (hloop _ hreply _)

/-- Of the change sets that are validated when the worker reads its list, each is started
    once, and of two created at different instants the earlier one is started first. Nothing
    is assumed of the statements and provider calls after the list was read: whatever fails,
    and whatever other parties do, the later ones get their turn. -/
theorem started_in_order_of_creation [Chrono] [LawfulChrono] {act : Nat → World → World}
    {env : Env} {w : World} (hread : env.queries (act 0 w).queries = none)
    {creation : String → Int} (hcreated : CreatedAt creation (act 0 w).db) :
    let validated := (act 0 w).db.changesets.select fun row => row.status == .validated
    (worker.started act env w).Perm (validated.map (·.id)) ∧ (worker.started act env w).Nodup ∧
      (worker.started act env w).Pairwise (fun a b => creation a ≤ creation b) ∧
      ∀ a ∈ validated, ∀ b ∈ validated, creation a.id < creation b.id →
        (worker.started act env w).idxOf a.id < (worker.started act env w).idxOf b.id := by
  intro validated
  rw [started_eq worker hread]
  have hperm : ((act 0 w).db.applyQueue.map (·.id)).Perm (validated.map (·.id)) :=
    (List.perm_insertionSort _ _).map _
  have hnodup : ((act 0 w).db.applyQueue.map (·.id)).Nodup :=
    hperm.nodup_iff.mpr ((act 0 w).db.changesets.nodup_select _)
  have hsorted := pairwise_applyQueue hcreated
  refine ⟨hperm, hnodup, hsorted, fun a ha b _ hlt => ?_⟩
  exact idxOf_lt_of_pairwise hsorted (hperm.mem_iff.mpr (List.mem_map_of_mem ha)) hlt

end Worker

/-! ## Two clients within one second -/

section Sample

open Sample

/-- chrono, which reads the sample's texts only. -/
@[reducible] private def printing : Chrono where
  toRfc3339 t := if h : InRange t then (Rfc3339.civil t h).text else ""
  parseFromRfc3339 := clock.parseFromRfc3339

attribute [local instance] printing

private instance : LawfulChrono where
  toRfc3339_instant c := by
    change (if h : InRange c.instant then (Rfc3339.civil c.instant h).text else "") = c.text
    rw [dif_pos c.inRange_instant, CivilTime.civil_instant]

/-- A time after the sample's noon. -/
private def after (ns : Nat) (h : ns < Rfc3339.nsPerSecond) : CivilTime where
  year := 2024
  month := 1
  day := 15
  hour := 12
  minute := 34
  second := 56
  nanosecond := ns
  year_lt := by decide
  month_mem := by decide
  day_mem := by decide
  hour_lt := by decide
  minute_lt := by decide
  second_lt := by decide
  nanosecond_lt := h

/-- Three times of one second, which show no, three and six digits of it. -/
private def sharp : CivilTime := after 0 (by decide)
private def quarter : CivilTime := after 250000000 (by decide)
private def late : CivilTime := after 250001000 (by decide)

example : sharp.instant = noon ∧ late.text = "2024-01-15T12:34:56.250001+00:00" := by
  decide +kernel

private def changeset (id : String) (created : CivilTime) : Changeset :=
  { id, createdBy := "anonymous", description := none, status := .validated,
    rollbackPolicy := "auto", createdAt := created.text, updatedAt := created.text }

private def threeChangesets : World where
  db := { twoBindings with
    changesets := ⟨[changeset "c1" late, changeset "c2" sharp, changeset "c3" quarter],
      by decide⟩
    policyCheck := by decide
    itemChangeset := by decide
    itemRecord := by decide
    operationCheck := by decide }
  contents _ _ := none

private def creation (id : String) : Int :=
  if id = "c1" then late.instant else if id = "c2" then sharp.instant else quarter.instant

private theorem createdAt_threeChangesets : CreatedAt creation threeChangesets.db := by
  have hshows : ∀ c : CivilTime, InRange c.instant ∧ c.text = Chrono.toRfc3339 c.instant :=
    fun c => ⟨c.inRange_instant, (LawfulChrono.toRfc3339_instant c).symm⟩
  refine List.forall_mem_cons.mpr ⟨hshows late, List.forall_mem_cons.mpr ⟨hshows sharp, ?_⟩⟩
  exact List.forall_mem_singleton.mpr (hshows quarter)

/-- A world in which every query after the first one fails. -/
private def unreadable : Env :=
  { env (fun _ => .ok) with queries := fun n => if n = 0 then none else some "disk I/O error" }

/-- No item can be read, and every change set gets its turn nevertheless, in the order of
    creation. -/
theorem started_in_order_of_creation_three :
    let started := worker.started (fun _ => id) unreadable threeChangesets
    started.Perm ["c1", "c2", "c3"] ∧ started.idxOf "c2" < started.idxOf "c3" ∧
      started.idxOf "c3" < started.idxOf "c1" := by
  intro started
  have horder := @started_in_order_of_creation _ _ worker _ _ (fun _ => id) unreadable
    threeChangesets rfl creation createdAt_threeChangesets
  obtain ⟨hperm, -, -, hbefore⟩ := horder
  refine ⟨hperm, ?_, ?_⟩
  · exact hbefore (changeset "c2" sharp) (by decide) (changeset "c3" quarter) (by decide)
      (by decide +kernel)
  · exact hbefore (changeset "c3" quarter) (by decide) (changeset "c1" late) (by decide)
      (by decide +kernel)

end Sample

end DnsManager
