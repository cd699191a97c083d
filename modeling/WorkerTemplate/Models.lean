import WorkerTemplate.Message

/-!
# The tables

The rows of `task_execution` and of `task_attempt`.  A flush of a changed instance sends
the columns that differ from the values the session loaded; `ExecutionChanges` is the
list of these columns.
-/

namespace WorkerTemplate

/-- A point in time, in some unit of a clock that never runs backwards. -/
abbrev Time : Type := ℕ

inductive TaskStatus where
  | pending
  | queued
  | running
  | retrying
  | completed
  | failed
  | cancelled
  | partial_
  deriving DecidableEq, Repr

/-- The text of a status. -/
def TaskStatus.value : TaskStatus → String
  | .pending => "pending"
  | .queued => "queued"
  | .running => "running"
  | .retrying => "retrying"
  | .completed => "completed"
  | .failed => "failed"
  | .cancelled => "cancelled"
  | .partial_ => "partial"

/-- A row of `task_execution`. -/
structure TaskExecution where
  id : UUID
  createdAt : Time
  taskName : Text
  status : TaskStatus := .pending
  totalSteps : Option ℕ := none
  completedSteps : ℕ := 0
  statusMessage : Option String := none
  tenantId : UUID
  parentTaskId : Option UUID := none
  configSnapshot : Option Dict := none
  resultUrl : Option String := none
  errorDetail : Option String := none
  startedAt : Option Time := none
  completedAt : Option Time := none
  retryCount : ℕ := 0
  maxRetries : ℕ := 3

/-- The outcome of a retry dispatch decision. -/
inductive TaskDispatchResult where
  | blocked
  | dispatched
  | dispatchFailed
  | pending
  | shadowed
  deriving DecidableEq, Repr

/-- A row of `task_attempt`.  The table is kept in the order in which its rows were
created, so the column `created_at` is their position. -/
structure TaskAttempt where
  /-- The primary key, which the server generates when the row is inserted. -/
  id : Option ℕ := none
  taskExecutionId : UUID
  tenantId : UUID
  attemptNumber : ℕ
  statusBefore : TaskStatus
  statusAfter : TaskStatus
  errorDetail : Option String
  dispatchResult : TaskDispatchResult
  deriving DecidableEq, Repr

/-! ### Changed columns -/

/-- The new value of a column, when it differs from the old one. -/
def changed {α : Type} [DecidableEq α] (old new : α) : Option α :=
  if new = old then none else some new

@[simp]
theorem changed_getD {α : Type} [DecidableEq α] (old new : α) :
  (changed old new).getD old = new
  := by
  unfold changed
  split
  case isTrue h => simp [h]
  case isFalse h => rfl

/-- The columns of a `task_execution` row that an `UPDATE` sets, with their values. -/
structure ExecutionChanges where
  status : Option TaskStatus := none
  completedSteps : Option ℕ := none
  statusMessage : Option (Option String) := none
  resultUrl : Option (Option String) := none
  errorDetail : Option (Option String) := none
  startedAt : Option (Option Time) := none
  completedAt : Option (Option Time) := none
  retryCount : Option ℕ := none
  deriving DecidableEq

namespace TaskExecution

/-- The columns in which the instance `new` differs from the loaded instance `old`. -/
def changes (old new : TaskExecution) : ExecutionChanges where
  status := changed old.status new.status
  completedSteps := changed old.completedSteps new.completedSteps
  statusMessage := changed old.statusMessage new.statusMessage
  resultUrl := changed old.resultUrl new.resultUrl
  errorDetail := changed old.errorDetail new.errorDetail
  startedAt := changed old.startedAt new.startedAt
  completedAt := changed old.completedAt new.completedAt
  retryCount := changed old.retryCount new.retryCount

/-- The row with the columns set. -/
def set (row : TaskExecution) (c : ExecutionChanges) : TaskExecution :=
  { row with
    status := c.status.getD row.status
    completedSteps := c.completedSteps.getD row.completedSteps
    statusMessage := c.statusMessage.getD row.statusMessage
    resultUrl := c.resultUrl.getD row.resultUrl
    errorDetail := c.errorDetail.getD row.errorDetail
    startedAt := c.startedAt.getD row.startedAt
    completedAt := c.completedAt.getD row.completedAt
    retryCount := c.retryCount.getD row.retryCount }

variable (row : TaskExecution) (c : ExecutionChanges)

@[simp]
theorem set_id : (row.set c).id = row.id := rfl

@[simp]
theorem set_tenantId : (row.set c).tenantId = row.tenantId := rfl

@[simp]
theorem set_maxRetries : (row.set c).maxRetries = row.maxRetries := rfl

@[simp]
theorem set_empty : row.set {} = row := rfl

end TaskExecution

end WorkerTemplate
