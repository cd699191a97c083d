import WorkerTemplate.Middleware.StateTracking

/-!
# Deliveries

A receiver that takes a message from the queue calls the hooks around the body of its task,
with one result.  A hook that raises ends the delivery.
-/

namespace WorkerTemplate

namespace Hook

/-- The result of a task whose body has returned. -/
def succeeded : TaskiqResult := { isErr := false, error := none }

/-- The result of a task whose body has raised. -/
def raised (exception : PyException) : TaskiqResult := { isErr := true, error := some exception }

/-- The hooks after the body of a task. -/
def finish (settings : Settings) (message : TaskiqMessage) : Option PyException → Hook Unit
  | none => do
      modifyResult fun _ => succeeded
      postExecute settings message
  | some exception => do
      modifyResult fun _ => raised exception
      onError settings message exception
      postExecute settings message

/-- A message is delivered to a worker. -/
def deliver (settings : Settings) (message : TaskiqMessage) : Hook Unit := do
  preExecute settings message
  let outcome ← perform (.body message)
  finish settings message outcome

/-- An instance sets a status itself, in a session of its own. -/
def setStatus (taskExecutionId : UUID) (status : TaskStatus) (fields : StatusUpdate) : Hook Unit :=
  withSession do
    let _ ← updateTaskStatus taskExecutionId status fields
    commit

end Hook

/-- A hook that taskiq calls with a message. -/
inductive HookCall where
  | preExecute
  | onError (exception : PyException)
  | postExecute

/-- The hook that is called. -/
def HookCall.hook (settings : Settings) (message : TaskiqMessage) : HookCall → Hook Unit
  | .preExecute => Hook.preExecute settings message
  | .onError exception => Hook.onError settings message exception
  | .postExecute => Hook.postExecute settings message

/-! ### A worker -/

namespace Example

def tenantId : UUID := 7

def taskExecutionId : UUID := 1

/-- A message of an execution, with its tenant. -/
def message : TaskiqMessage where
  taskId := "1".toList
  taskName := "job".toList
  labels := [("task_execution_id", .uuid taskExecutionId)]
  args := []
  kwargs := [("tenant_id", .uuid tenantId)]

/-- The settings of a worker that retries no task. -/
def defaults : Settings where
  noResultText := "no result"

/-- The settings of a worker that retries the task of the message. -/
def settings : Settings where
  taskRetryEnabled := true
  taskRetryTenantAllowlist := tenantId.text
  taskRetryTaskAllowlist := "job".toList
  noResultText := "no result"

/-- The row of a running execution. -/
def row (retryCount maxRetries : ℕ) : TaskExecution where
  id := taskExecutionId
  createdAt := 0
  taskName := "job".toList
  status := .running
  tenantId := tenantId
  retryCount := retryCount
  maxRetries := maxRetries

def exception : PyException := .other "RuntimeError" "crash"

/-- The objects of a worker whose task has raised. -/
def failed : Invocation where
  result := { isErr := true, error := some exception }

end Example

end WorkerTemplate
