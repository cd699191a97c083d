import WorkerTemplate.Hook

/-!
# The data access services

The services flush and never commit.  A session keeps the instance of an execution it
has loaded: selecting the row again returns that instance with the values it holds, a
flush sends the columns that were changed, and only a refresh reads the row anew.  A flush
that finds no changed column sets nothing and locks nothing.
-/

namespace WorkerTemplate

namespace TaskStatus

/-- `_TERMINAL_STATUSES`. -/
def terminalStatuses : List TaskStatus := [.completed, .failed, .cancelled, .partial_]

/-- Whether a status is terminal. -/
def IsTerminal (status : TaskStatus) : Prop := status ∈ terminalStatuses

instance : DecidablePred IsTerminal := fun status =>
  inferInstanceAs (Decidable (status ∈ terminalStatuses))

end TaskStatus

namespace Invocation

/-- The objects after the session has kept an instance under its primary key. -/
def keep (s : Invocation) (task : TaskExecution) : Invocation :=
  { s with identityMap := Function.update s.identityMap task.id (some task) }

variable (s : Invocation) (task task' : TaskExecution)

@[simp]
theorem attempt_keep : (s.keep task).attempt = s.attempt := rfl

@[simp]
theorem result_keep : (s.keep task).result = s.result := rfl

@[simp]
theorem identityMap_keep : (s.keep task).identityMap task.id = some task := by simp [keep]

theorem identityMap_keep_of_id {i : UUID} (h : task.id = i) :
  (s.keep task).identityMap i = some task
  := by
  subst h
  apply identityMap_keep

/-- Of two instances with one primary key the later one is kept. -/
theorem keep_keep (h : task'.id = task.id) :
  (s.keep task).keep task' = s.keep task'
  := by
  simp [keep, h]

end Invocation

/-- Create a new task execution record, with the primary key and the time of creation that the
server generates. -/
def createTaskExecution (id : UUID) (createdAt : Time) (taskName : Text) (tenantId : UUID)
    (maxRetries : ℕ) (configSnapshot : Option Dict := none) (parentTaskId : Option UUID := none)
    (totalSteps : Option ℕ := none) : TaskExecution where
  id := id
  createdAt := createdAt
  taskName := taskName
  tenantId := tenantId
  configSnapshot := configSnapshot
  parentTaskId := parentTaskId
  maxRetries := maxRetries
  totalSteps := totalSteps

namespace Hook

/-- The session keeps an instance. -/
def keep (task : TaskExecution) : Hook Unit :=
  modify (fun s => s.keep task)

/-- Fetch a task execution by ID, optionally scoped to tenant. -/
def getTaskExecution (taskId : UUID) (tenantId : Option UUID) : Hook (Option TaskExecution) := do
  match ← execute (.selectExecution taskId tenantId) with
  | none => pure none
  | some row =>
      match (← get).identityMap row.id with
      | some task => pure (some task)
      | none =>
          keep row
          pure (some row)

/-- `await session.refresh(task)`. -/
def refresh (task : TaskExecution) : Hook TaskExecution := do
  match ← execute (.selectExecution task.id none) with
  | none => pure task
  | some row =>
      keep row
      pure row

end Hook

/-- The optional fields `update_task_status` may set. -/
structure StatusUpdate where
  statusMessage : Option String := none
  errorDetail : Option String := none
  resultUrl : Option String := none
  completedSteps : Option ℕ := none

/-- The instance with the attributes `update_task_status` assigns. -/
def TaskExecution.assign (task : TaskExecution) (status : TaskStatus) (fields : StatusUpdate)
    (now : Time) : TaskExecution :=
  { task with
    status := status
    statusMessage := fields.statusMessage.or task.statusMessage
    errorDetail := fields.errorDetail.or task.errorDetail
    resultUrl := fields.resultUrl.or task.resultUrl
    completedSteps := fields.completedSteps.getD task.completedSteps
    startedAt := if status = .running ∧ task.startedAt = none then some now else task.startedAt
    completedAt := if status.IsTerminal then some now else task.completedAt
    retryCount := if status = .retrying then task.retryCount + 1 else task.retryCount }

/-- Only a status of retrying sends a retry count, one more than the instance has. -/
theorem TaskExecution.retryCount_changes_assign (task : TaskExecution) (status : TaskStatus)
    (fields : StatusUpdate) (now : Time) :
  (task.changes (task.assign status fields now)).retryCount
    = if status = .retrying then some (task.retryCount + 1) else none
  := by
  simp only [changes, assign, changed]
  split
  · simp
  · simp

/-- Assigning attributes and sending the changed ones to the row the instance was loaded
from gives the instance. -/
theorem TaskExecution.set_changes_assign (task : TaskExecution) (status : TaskStatus)
    (fields : StatusUpdate) (now : Time) :
  task.set (task.changes (task.assign status fields now)) = task.assign status fields now
  := by
  simp [set, changes, assign]

namespace Hook

/-- Update task execution status and optional fields. -/
def updateTaskStatus (taskId : UUID) (status : TaskStatus) (fields : StatusUpdate) :
    Hook (Option TaskExecution) := do
  match ← getTaskExecution taskId none with
  | none => pure none
  | some task =>
      let now ← perform .now
      execute (.updateExecution task.id (task.changes (task.assign status fields now)))
      let task ← refresh task
      pure (some task)

/-- Record a durable audit entry for one retry decision. -/
def recordTaskAttempt (taskExecutionId tenantId : UUID) (attemptNumber : ℕ)
    (statusBefore statusAfter : TaskStatus) (errorDetail : Option String)
    (dispatchResult : TaskDispatchResult) : Hook Unit :=
  execute (.insertAttempt
    { taskExecutionId, tenantId, attemptNumber, statusBefore, statusAfter, errorDetail,
      dispatchResult })

/-- Load the latest pending-or-dispatched attempt for an attempt number. -/
def getLatestPendingOrDispatchedTaskAttempt (taskExecutionId : UUID) (attemptNumber : ℕ) :
    Hook (Option TaskAttempt) :=
  execute (.selectAttempt (.pendingOrDispatched taskExecutionId attemptNumber))

/-- Load an attempt whose dispatch state can be recovered after a DB failure. -/
def getTaskAttemptDispatchState (taskExecutionId : UUID) (attemptNumber : ℕ) :
    Hook (Option TaskAttempt) :=
  getLatestPendingOrDispatchedTaskAttempt taskExecutionId attemptNumber

/-- Load the latest unresolved dispatch for restart-safe reconciliation. -/
def getLatestPendingTaskAttempt (taskExecutionId : UUID) : Hook (Option TaskAttempt) :=
  execute (.selectAttempt (.pending taskExecutionId))

/-- Mark the pending audit entry for a sent retry as dispatched idempotently. -/
def markTaskAttemptDispatched (taskExecutionId : UUID) (attemptNumber : ℕ) : Hook Bool := do
  match ← getLatestPendingOrDispatchedTaskAttempt taskExecutionId attemptNumber with
  | none => pure false
  | some attempt =>
      if attempt.dispatchResult = .pending then
        execute (.updateAttempt attempt.id .dispatched)
      pure true

end Hook

end WorkerTemplate
