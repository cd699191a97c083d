import WorkerTemplate.Services

/-!
# The state tracking middleware

The hooks that record the state of a `TaskExecution`: `preExecute` before the body of a
task, `onError` after a body that raised, and `postExecute` after both.  Every hook uses
sessions of its own, and is repeated as a whole when a session raises
`OperationalError`.
-/

namespace WorkerTemplate

/-- The configuration the middleware reads, whether the realtime emitter has been initialised,
and the text of `NoResultError()`. -/
structure Settings where
  taskRetryEnabled : Bool := false
  taskRetryShadowMode : Bool := true
  taskRetryTenantAllowlist : Text := []
  taskRetryTaskAllowlist : Text := []
  emitterInitialized : Bool := true
  noResultText : String

/-- `str(exception)`. -/
def Settings.text (settings : Settings) : PyException → String
  | .noResultError => settings.noResultText
  | .other _ t => t

/-- Return whether automatic retries are enabled for this task and tenant. -/
def Settings.retryGateAllows (settings : Settings) (taskName : Text) (tenantId : UUID) : Bool :=
  if !settings.taskRetryEnabled then false
  else
    let tenantAllowlist := settings.taskRetryTenantAllowlist.entries
    let taskAllowlist := settings.taskRetryTaskAllowlist.entries
    if tenantAllowlist.isEmpty || taskAllowlist.isEmpty then false
    else tenantId.text ∈ tenantAllowlist && taskName ∈ taskAllowlist

def recoveryAuditNotFound : String := "retry recovery found no matching audit row"

def reconciliationAuditNotFound : String :=
  "retry dispatch reconciliation found no matching audit row"

def dispatchAuditNotFound : String := "retry dispatch completed but its audit row was not found"

def recoveredAuditNotFound : String := "retry dispatch recovery found no matching audit row"

/-- What one `on_error` invocation decided to do about retrying, and why. -/
structure RetryDecision where
  status : TaskStatus
  statusMsg : String
  retryAlreadyRecorded : Bool
  shouldRetry : Bool
  retryAllowed : Bool
  retryShadowed : Bool
  statusBefore : TaskStatus
  attemptNumber : ℕ
  deriving DecidableEq, Repr

/-- Shared invocation state threaded through `on_error`'s retry-decision helpers. -/
structure ErrorContext where
  task : Option TaskExecution
  taskExecutionId : UUID
  message : TaskiqMessage
  errorDetail : String

namespace OnErrorAttempt

/-- Whether the row is the one this invocation has written before. -/
def recognizes (attempt : OnErrorAttempt) : Option TaskExecution → Bool
  | none => false
  | some task =>
      attempt.recordedStatus.isSome && attempt.recordedRetryCount.isSome &&
        some task.status == attempt.recordedStatus &&
        some task.retryCount == attempt.recordedRetryCount &&
        task.statusMessage == attempt.statusMessage

/-- `attempt.attempt_number or n`: the number 0 counts as absent. -/
def attemptNumberOr (attempt : OnErrorAttempt) (n : ℕ) : ℕ :=
  match attempt.attemptNumber with
  | some (k + 1) => k + 1
  | _ => n

/-- `attempt.status_message or message`: the empty message counts as absent. -/
def statusMessageOr (attempt : OnErrorAttempt) (message : String) : String :=
  match attempt.statusMessage with
  | some m => if m = "" then message else m
  | none => message

end OnErrorAttempt

/-- Decide the status/message for this error and whether a retry is due. -/
def Settings.resolveRetryDecision (settings : Settings) (ctx : ErrorContext)
    (attempt : OnErrorAttempt) : RetryDecision :=
  let retryAlreadyRecorded := attempt.recognizes ctx.task
  let shouldRetry := ctx.task.any (fun task => task.retryCount < task.maxRetries)
  let retryAllowed := shouldRetry &&
    ctx.task.any (fun task => settings.retryGateAllows ctx.message.taskName task.tenantId)
  let retryShadowed := shouldRetry && !retryAllowed && settings.taskRetryShadowMode
  let retryCount := ctx.task.elim 0 (·.retryCount)
  let maxRetries := ctx.task.elim 0 (·.maxRetries)
  let outcome : TaskStatus × String :=
    if retryAlreadyRecorded then
      (attempt.recordedStatus.getD .failed,
        attempt.statusMessageOr "Task failed (max retries exceeded)")
    else if shouldRetry then
      if retryAllowed then
        (.retrying, s!"Retrying ({retryCount + 1}/{maxRetries})")
      else if retryShadowed then
        (.retrying, "Retry shadowed (automatic retry disabled)")
      else (.failed, "Task failed (automatic retry disabled)")
    else (.failed, "Task failed (max retries exceeded)")
  { status := outcome.1
    statusMsg := outcome.2
    retryAlreadyRecorded
    shouldRetry
    retryAllowed
    retryShadowed
    statusBefore := ctx.task.elim .running (·.status)
    attemptNumber := ctx.task.elim 1 (·.retryCount + 1) }

namespace Hook

/-! ### Events -/

/-- Emit a task event to the org room.  An emitter that was not initialised emits
nothing, and a failure is logged and never raised. -/
def emitTaskEvent (settings : Settings) (tenantId : UUID) (event : TaskEvent) : Hook Unit := do
  if settings.emitterInitialized then
    let _ ← perform (.emit ("org:".toList ++ tenantId.text) event)

/-- Emit a real-time event for a status change. -/
def emitStatusEvent (settings : Settings) (message : TaskiqMessage) (status : TaskStatus)
    (statusMessage errorDetail : Option String) : Hook Unit := do
  match message.extractTaskExecutionId, message.extractTenantId with
  | some taskId, some tenantId =>
      let taskName := message.taskName
      match status with
      | .completed => emitTaskEvent settings tenantId (.completed { taskId, taskName, tenantId })
      | .failed =>
          emitTaskEvent settings tenantId (.failed { taskId, taskName, errorDetail, tenantId })
      | status =>
          emitTaskEvent settings tenantId
            (.statusChanged { taskId, taskName, status := status.value, statusMessage, tenantId })
  | _, _ => pure ()

/-! ### Before and after the body -/

/-- Set task status to RUNNING. -/
def preExecute (settings : Settings) (message : TaskiqMessage) : Hook Unit :=
  dbRetry do
    match message.extractTaskExecutionId with
    | none => pure ()
    | some taskExecutionId =>
        withSession do
          let _ ← updateTaskStatus taskExecutionId .running
            { statusMessage := some "Task started" }
          commit
        emitStatusEvent settings message .running (some "Task started") none

/-- Set task status to COMPLETED or FAILED based on result. -/
def postExecute (settings : Settings) (message : TaskiqMessage) : Hook Unit :=
  dbRetry do
    match message.extractTaskExecutionId with
    | none => pure ()
    | some taskExecutionId =>
        let result := (← get).result
        if result.error = some .noResultError then pure ()
        else if result.shadowRetry then pure ()
        else if result.isErr then
          let errorDetail := result.error.elim "None" settings.text
          withSession do
            let _ ← updateTaskStatus taskExecutionId .failed
              { errorDetail := some errorDetail, statusMessage := some "Task failed" }
            commit
          emitStatusEvent settings message .failed (some "Task failed") (some errorDetail)
        else
          withSession do
            let _ ← updateTaskStatus taskExecutionId .completed
              { statusMessage := some "Task completed successfully" }
            commit
          emitStatusEvent settings message .completed (some "Task completed successfully") none

/-! ### After an error -/

/-- Re-enqueue the message for a retry attempt under the same task_id. -/
def requeue (message : TaskiqMessage) : Hook Bool :=
  perform (.kiq message)

/-- The record of the invocation is changed. -/
def modifyAttempt (f : OnErrorAttempt → OnErrorAttempt) : Hook Unit :=
  modify (fun s => { s with attempt := f s.attempt })

/-- The result of the task is changed. -/
def modifyResult (f : TaskiqResult → TaskiqResult) : Hook Unit :=
  modify (fun s => { s with result := f s.result })

/-- Persist the first status/audit write for this on_error invocation. -/
def recordInitialErrorStatus (ctx : ErrorContext) (decision : RetryDecision) : Hook Unit := do
  let expectedRetryCount := ctx.task.map fun task =>
    if decision.status = .retrying then task.retryCount + 1 else task.retryCount
  let _ ← updateTaskStatus ctx.taskExecutionId decision.status
    { errorDetail := some ctx.errorDetail, statusMessage := some decision.statusMsg }
  modifyAttempt fun attempt =>
    { attempt with
      recordedStatus := some decision.status
      recordedRetryCount := expectedRetryCount
      statusMessage := some decision.statusMsg }
  match ctx.task with
  | none => pure ()
  | some task =>
      if decision.shouldRetry && !decision.retryAllowed then
        recordTaskAttempt ctx.taskExecutionId task.tenantId decision.attemptNumber
          decision.statusBefore decision.status (some ctx.errorDetail)
          (if decision.retryShadowed then .shadowed else .blocked)
      else if decision.retryAllowed then
        modifyAttempt fun attempt => { attempt with attemptNumber := some decision.attemptNumber }
        recordTaskAttempt ctx.taskExecutionId task.tenantId decision.attemptNumber
          decision.statusBefore .retrying (some ctx.errorDetail) .pending

/-- The sent message is recorded, and the result is left to its receiver. -/
def markDispatched (taskExecutionId : UUID) (attemptNumber : ℕ) (notFound : String) :
    Hook Unit := do
  let marked ← markTaskAttemptDispatched taskExecutionId attemptNumber
  if !marked then
    throw (.missingRetryAudit notFound)
  commit
  modifyResult fun result => { result with error := some .noResultError }

/-- Requeue the message and record the outcome. Returns the final (status, message). -/
def dispatchRetry (ctx : ErrorContext) (decision : RetryDecision) : Hook (TaskStatus × String) := do
  let requeued ← requeue ctx.message
  if requeued then
    markDispatched ctx.taskExecutionId
      ((← get).attempt.attemptNumberOr decision.attemptNumber) dispatchAuditNotFound
    pure (decision.status, decision.statusMsg)
  else
    let statusMsg := "Task failed (retry dispatch error)"
    let _ ← updateTaskStatus ctx.taskExecutionId .failed
      { errorDetail := some ctx.errorDetail, statusMessage := some statusMsg }
    modifyAttempt fun attempt =>
      { attempt with recordedStatus := some .failed, statusMessage := some statusMsg }
    match ctx.task with
    | none => pure ()
    | some task =>
        recordTaskAttempt ctx.taskExecutionId task.tenantId decision.attemptNumber .retrying
          .failed (some ctx.errorDetail) .dispatchFailed
    commit
    pure (.failed, statusMsg)

/-- Repair dispatch audit state after the broker send preceded a DB failure. -/
def recoverDispatchAudit (ctx : ErrorContext) (attemptNumber : ℕ) : Hook Unit :=
  markDispatched ctx.taskExecutionId attemptNumber recoveredAuditNotFound

/-- The branch of an error hook that finds its own write in the row: a message already sent
is recorded, and a pending one is sent. -/
def recoverRetry (ctx : ErrorContext) (decision : RetryDecision) : Hook (TaskStatus × String) := do
  let recoveredAttempt ← getTaskAttemptDispatchState ctx.taskExecutionId
    ((← get).attempt.attemptNumberOr decision.attemptNumber)
  match recoveredAttempt with
  | none => throw (.missingRetryAudit recoveryAuditNotFound)
  | some attempt =>
      if attempt.dispatchResult = .dispatched then
        recoverDispatchAudit ctx attempt.attemptNumber
        pure (decision.status, decision.statusMsg)
      else
        commit
        dispatchRetry ctx decision

/-- A pending attempt left by an earlier call is taken for sent. -/
def reconcilePending (taskExecutionId : UUID) : Hook Unit := do
  match ← getLatestPendingTaskAttempt taskExecutionId with
  | none => pure ()
  | some pendingAttempt =>
      let marked ← markTaskAttemptDispatched taskExecutionId pendingAttempt.attemptNumber
      if !marked then
        throw (.missingRetryAudit reconciliationAuditNotFound)

/-- The branch of an error hook that records a retry. -/
def recordRetry (ctx : ErrorContext) (decision : RetryDecision) : Hook (TaskStatus × String) := do
  reconcilePending ctx.taskExecutionId
  recordInitialErrorStatus ctx decision
  commit
  dispatchRetry ctx decision

/-- The branch of an error hook that sends nothing. -/
def recordFailure (ctx : ErrorContext) (decision : RetryDecision) : Hook (TaskStatus × String) := do
  if !decision.retryAlreadyRecorded then
    recordInitialErrorStatus ctx decision
  commit
  pure (decision.status, decision.statusMsg)

/-- What an error hook does about its decision. Returns the (status, message) to emit. -/
def recordDecision (ctx : ErrorContext) (decision : RetryDecision) :
    Hook (TaskStatus × String) :=
  if decision.retryAllowed then
    if decision.retryAlreadyRecorded then recoverRetry ctx decision
    else recordRetry ctx decision
  else recordFailure ctx decision

/-- The session of one pass of an error hook. -/
def errorSession (settings : Settings) (message : TaskiqMessage) (exception : PyException)
    (taskExecutionId : UUID) : Hook (TaskStatus × String) := do
  let task ← getTaskExecution taskExecutionId none
  let ctx : ErrorContext :=
    { task, taskExecutionId, message
      errorDetail := s!"{exception.typeName}: {settings.text exception}" }
  let decision := settings.resolveRetryDecision ctx (← get).attempt
  let emitted ← recordDecision ctx decision
  if decision.retryShadowed then
    modifyResult fun result => { result with shadowRetry := true }
  pure emitted

/-- One pass of an error hook. -/
def errorPass (settings : Settings) (message : TaskiqMessage) (exception : PyException)
    (taskExecutionId : UUID) : Hook Unit := do
  let (status, statusMsg) ←
    withSession (errorSession settings message exception taskExecutionId)
  emitStatusEvent settings message status (some statusMsg)
    (some s!"{exception.typeName}: {settings.text exception}")

/-- Record an error, retrying with invocation-scoped idempotency state. -/
def recordErrorStatus (settings : Settings) (message : TaskiqMessage) (exception : PyException)
    (taskExecutionId : UUID) : Hook Unit :=
  dbRetry (errorPass settings message exception taskExecutionId)

/-- Set task status to FAILED or RETRYING based on retry count. -/
def onError (settings : Settings) (message : TaskiqMessage) (exception : PyException) :
    Hook Unit := do
  match message.extractTaskExecutionId with
  | none => pure ()
  | some taskExecutionId =>
      modifyAttempt fun _ => {}
      recordErrorStatus settings message exception taskExecutionId

end Hook

end WorkerTemplate
