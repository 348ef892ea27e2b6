/-!
# The change set life cycle (`core/src/changeset.rs`)

    Draft → Validated → Applying → Applied
                           │
                           ├─(immediate failure, auto)─→ RollingBack → RolledBack
                           │                                        └→ RollbackFailed
                           └─(permanent or partial failure)─→ Frozen
-/

namespace DnsManager

/-- `ChangeSetStatus` -/
inductive ChangeSetStatus where
  | draft | validated | applying | applied
  | rollingBack | rolledBack | rollbackFailed | frozen
deriving DecidableEq, Repr

namespace ChangeSetStatus

/-- `ChangeSetStatus::can_transition_to` -/
def canTransitionTo : ChangeSetStatus → ChangeSetStatus → Bool
  | draft, validated => true
  | validated, applying => true
  | applying, applied => true
  | applying, rollingBack => true
  | applying, frozen => true
  | rollingBack, rolledBack => true
  | rollingBack, rollbackFailed => true
  | _, _ => false

/-- `ChangeSetStatus::is_terminal` -/
def isTerminal : ChangeSetStatus → Bool
  | applied | rolledBack | rollbackFailed | frozen => true
  | _ => false

/-- `status_to_db`, the same table in the worker and in the API. -/
def toDb : ChangeSetStatus → String
  | draft => "draft"
  | validated => "validated"
  | applying => "applying"
  | applied => "applied"
  | rollingBack => "rolling_back"
  | rolledBack => "rolled_back"
  | rollbackFailed => "rollback_failed"
  | frozen => "frozen"

/-- `status_from_db`; `none` is the internal error for a text outside the table. -/
def fromDb (s : String) : Option ChangeSetStatus :=
  match s with
  | "draft" => some draft
  | "validated" => some validated
  | "applying" => some applying
  | "applied" => some applied
  | "rolling_back" => some rollingBack
  | "rolled_back" => some rolledBack
  | "rollback_failed" => some rollbackFailed
  | "frozen" => some frozen
  | _ => none

/-- The API reads back every status the worker writes. -/
@[simp] theorem fromDb_toDb (s : ChangeSetStatus) : fromDb s.toDb = some s := by
  cases s <;> rfl

/-- No transition leaves a terminal status. -/
theorem not_canTransitionTo_of_isTerminal {s t : ChangeSetStatus} (h : s.isTerminal = true) :
    s.canTransitionTo t = false := by
  cases s <;> cases t <;> first | rfl | cases h

/-- How far a status lies along the life cycle; every transition goes forward. -/
def rank : ChangeSetStatus → Nat
  | draft => 0
  | validated => 1
  | applying => 2
  | rollingBack => 3
  | applied | frozen | rolledBack | rollbackFailed => 4

theorem rank_lt_of_canTransitionTo {s t : ChangeSetStatus} (h : s.canTransitionTo t = true) :
    s.rank < t.rank := by
  cases s <;> cases t <;> first | decide | cases h

end ChangeSetStatus

end DnsManager
