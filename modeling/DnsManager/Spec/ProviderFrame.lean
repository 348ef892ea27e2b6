import DnsManager.Api.System
import DnsManager.Spec.Lifecycle

/-!
# What the provider zones do not matter to

Only the calls of a provider look at what the provider zones hold, and at the number of the next
call. `World.seeing` changes both: every other command is answered the same, and leaves the same
world but for them.

## Key results
- `handle_seeing`, `handleApi_seeing`: such a command of the worker, and every one of the handlers.
-/

namespace DnsManager

/-- The world with other provider zones and another number of the next call. -/
def World.seeing (w : World) (contents : Contents) (calls : Nat) : World := { w with contents, calls }

namespace World

variable (env : Env) (calls : Nat → CallOutcome) (w : World) (σ : Contents) (n : Nat)

theorem query_seeing {α : Type} (answer : Database → α) :
    (w.seeing σ n).query { env with calls } answer =
      ((w.query env answer).1, (w.query env answer).2.seeing σ n) := by
  unfold query seeing
  cases env.queries w.queries <;> rfl

theorem write_seeing (statement : Database → Except Violation Database) :
    (w.seeing σ n).write { env with calls } statement =
      ((w.write env statement).1, (w.write env statement).2.seeing σ n) := by
  unfold write seeing
  cases env.writes w.writes with
  | some e => rfl
  | none =>
    dsimp only
    cases statement w.db <;> rfl

theorem createChangeset_seeing [SerdeJson] (row : Changeset)
    (items : List CreateChangesetItemRequest) :
    (w.seeing σ n).createChangeset { env with calls } row items =
      ((w.createChangeset env row items).1, (w.createChangeset env row items).2.seeing σ n) := by
  unfold createChangeset seeing
  cases env.writes w.writes with
  | some e => rfl
  | none =>
    dsimp only
    cases insertWithItems w.db row items <;> rfl

end World

variable (env : Env) (calls : Nat → CallOutcome) (w : World) (σ : Contents) (n : Nat)

private theorem updateStatusWhere_seeing (id : String) (source target : ChangeSetStatus) :
    updateStatusWhere { env with calls } (w.seeing σ n) id source target =
      ((updateStatusWhere env w id source target).1,
        (updateStatusWhere env w id source target).2.seeing σ n) := by
  unfold updateStatusWhere World.seeing
  cases env.writes w.writes with
  | some e => rfl
  | none =>
    dsimp only
    by_cases hstatus : w.db.statusOf id = some source
    · rw [if_pos hstatus, if_pos hstatus]
      rfl
    · rw [if_neg hstatus, if_neg hstatus]

private theorem updateStatusTx_seeing (id : String) (target : ChangeSetStatus) (snapshot : Nat) :
    updateStatusTx { env with calls } (w.seeing σ n) id target snapshot =
      ((updateStatusTx env w id target snapshot).1,
        (updateStatusTx env w id target snapshot).2.seeing σ n) := by
  unfold updateStatusTx World.seeing
  cases env.writes w.writes with
  | some e => rfl
  | none =>
    dsimp only
    by_cases hcommits : w.commits = snapshot
    · rw [if_pos hcommits, if_pos hcommits]
      rfl
    · rw [if_neg hcommits, if_neg hcommits]

/-- A command that writes to no provider. -/
theorem handle_seeing {c : Cmd} (hc : c.isProviderWrite = false) :
    handle { env with calls } c (w.seeing σ n) =
      ((handle env c w).1, (handle env c w).2.seeing σ n) := by
  cases c with
  | upsertRecord | deleteRecord => cases hc
  | instant => rfl
  | updateStatus id source target => exact updateStatusWhere_seeing env calls w σ n id source target
  | txUpdate id target snapshot => exact updateStatusTx_seeing env calls w σ n id target snapshot
  | txSelect id =>
    exact World.query_seeing env calls w σ n fun db => (db.changesets.find? id, w.commits)
  | _ => simp only [handle, World.query_seeing]

/-- A command of the handlers. -/
theorem handleApi_seeing [SerdeJson] (c : ApiCmd) :
    handleApi { env with calls } c (w.seeing σ n) =
      ((handleApi env c w).1, (handleApi env c w).2.seeing σ n) := by
  cases c with
  | respond response => rfl
  | txCreateChangeset row items => exact World.createChangeset_seeing env calls w σ n row items
  | insertZone | insertRecord | insertBinding => simp only [handleApi, World.write_seeing]
  | _ => simp only [handleApi, World.query_seeing]

end DnsManager
