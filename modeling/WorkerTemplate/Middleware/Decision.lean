import WorkerTemplate.Middleware.StateTracking

/-!
# Decisions

What an error hook decides about the row it has loaded, and what it writes to record its
decision.
-/

namespace WorkerTemplate

/-! ### Recognizing a row -/

/-- A record recognizes a row by its status, its retry count and its status message. -/
theorem OnErrorAttempt.recognizes_iff (attempt : OnErrorAttempt) (row : TaskExecution) :
  attempt.recognizes (some row) = true
    ↔ attempt.recordedStatus = some row.status ∧ attempt.recordedRetryCount = some row.retryCount ∧
      attempt.statusMessage = row.statusMessage
  := by
  obtain ⟨status, count, statusMessage, number⟩ := attempt
  simp only [recognizes, Bool.and_eq_true, beq_iff_eq]
  constructor
  · rintro ⟨⟨⟨⟨-, -⟩, hstatus⟩, hcount⟩, hmessage⟩
    simp [← hstatus, ← hcount, hmessage]
  · rintro ⟨rfl, rfl, rfl⟩
    simp

/-! ### Deciding -/

namespace Settings

variable (settings : Settings) {ctx : ErrorContext} (attempt : OnErrorAttempt)
variable {row : TaskExecution} (hctx : ctx.task = some row)

section Row

include hctx

/-- A retry is allowed when the budget is not used up and the gate is open. -/
theorem retryAllowed_resolveRetryDecision :
  (settings.resolveRetryDecision ctx attempt).retryAllowed
    = (decide (row.retryCount < row.maxRetries)
        && settings.retryGateAllows ctx.message.taskName row.tenantId)
  := by
  simp only [resolveRetryDecision, hctx, Option.any_some]

theorem shouldRetry_resolveRetryDecision :
  (settings.resolveRetryDecision ctx attempt).shouldRetry
    = decide (row.retryCount < row.maxRetries)
  := by
  simp only [resolveRetryDecision, hctx, Option.any_some]

theorem retryAlreadyRecorded_resolveRetryDecision :
  (settings.resolveRetryDecision ctx attempt).retryAlreadyRecorded
    = attempt.recognizes (some row)
  := by
  simp only [resolveRetryDecision, hctx]

theorem attemptNumber_resolveRetryDecision :
  (settings.resolveRetryDecision ctx attempt).attemptNumber = row.retryCount + 1
  := by
  simp only [resolveRetryDecision, hctx, Option.elim_some]

/-- A retry is shadowed only when it is not allowed. -/
theorem retryShadowed_resolveRetryDecision :
  (settings.resolveRetryDecision ctx attempt).retryShadowed
    = (decide (row.retryCount < row.maxRetries)
        && !settings.retryGateAllows ctx.message.taskName row.tenantId
        && settings.taskRetryShadowMode)
  := by
  simp only [resolveRetryDecision, hctx, Option.any_some]
  cases decide (row.retryCount < row.maxRetries) with
  | true => simp
  | false => simp

/-- The first decision about a row is to retry when a retry is allowed or shadowed, and to
fail otherwise. -/
theorem status_resolveRetryDecision (hrecorded : attempt.recognizes (some row) = false) :
  (settings.resolveRetryDecision ctx attempt).status
    = if (settings.resolveRetryDecision ctx attempt).retryAllowed
          || (settings.resolveRetryDecision ctx attempt).retryShadowed
      then .retrying else .failed
  := by
  rw [retryAllowed_resolveRetryDecision settings attempt hctx,
    retryShadowed_resolveRetryDecision settings attempt hctx]
  simp only [resolveRetryDecision, hctx, hrecorded, Option.any_some]
  cases decide (row.retryCount < row.maxRetries) with
  | true =>
      cases settings.retryGateAllows ctx.message.taskName row.tenantId with
      | true => simp
      | false =>
          cases settings.taskRetryShadowMode with
          | true => simp
          | false => simp
  | false => simp

/-- The first decision about a row whose retry is shadowed says so. -/
theorem statusMsg_resolveRetryDecision_of_shadowed
    (hrecorded : attempt.recognizes (some row) = false)
    (hshadowed : (settings.resolveRetryDecision ctx attempt).retryShadowed = true) :
  (settings.resolveRetryDecision ctx attempt).statusMsg
    = "Retry shadowed (automatic retry disabled)"
  := by
  rw [retryShadowed_resolveRetryDecision settings attempt hctx] at hshadowed
  simp only [Bool.and_eq_true, decide_eq_true_eq, Bool.not_eq_true'] at hshadowed
  obtain ⟨⟨hlt, hgate⟩, hshadow⟩ := hshadowed
  simp [resolveRetryDecision, hctx, hrecorded, hlt, hgate, hshadow]

end Row

/-- A decision to retry, when it was not made before, is one about a row whose budget is not
used up. -/
theorem lt_of_status_resolveRetryDecision
    (hnew : (settings.resolveRetryDecision ctx attempt).retryAlreadyRecorded = false)
    (hstatus : (settings.resolveRetryDecision ctx attempt).status = .retrying) :
  ∃ row, ctx.task = some row ∧ row.retryCount < row.maxRetries
  := by
  cases htask : ctx.task with
  | none => simp [resolveRetryDecision, htask, OnErrorAttempt.recognizes] at hstatus
  | some row =>
      use row, rfl
      rw [retryAlreadyRecorded_resolveRetryDecision settings attempt htask] at hnew
      rw [status_resolveRetryDecision settings attempt htask hnew,
        retryAllowed_resolveRetryDecision settings attempt htask,
        retryShadowed_resolveRetryDecision settings attempt htask] at hstatus
      by_contra hlt
      simp [hlt] at hstatus

end Settings

/-- How the parts of a decision that was not made before fit together. -/
structure RetryDecision.Coherent (decision : RetryDecision) : Prop where
  retrying : decision.status = .retrying ↔
    decision.retryAllowed = true ∨ decision.retryShadowed = true
  allowed : decision.retryAllowed = true → decision.shouldRetry = true
  shadowed : decision.retryShadowed = true →
    decision.shouldRetry = true ∧ decision.retryAllowed = false

theorem Settings.coherent_resolveRetryDecision (settings : Settings) {ctx : ErrorContext}
    (attempt : OnErrorAttempt) {row : TaskExecution} (hctx : ctx.task = some row)
    (hnew : (settings.resolveRetryDecision ctx attempt).retryAlreadyRecorded = false) :
  (settings.resolveRetryDecision ctx attempt).Coherent
  := by
  rw [settings.retryAlreadyRecorded_resolveRetryDecision attempt hctx] at hnew
  constructor
  · rw [settings.status_resolveRetryDecision attempt hctx hnew]
    rw [← Bool.or_eq_true]
    split
    case isTrue h => exact iff_of_true rfl h
    case isFalse h => exact iff_of_false (by simp) h
  · rw [settings.retryAllowed_resolveRetryDecision attempt hctx,
      settings.shouldRetry_resolveRetryDecision attempt hctx, Bool.and_eq_true]
    apply And.left
  · rw [settings.retryShadowed_resolveRetryDecision attempt hctx,
      settings.retryAllowed_resolveRetryDecision attempt hctx,
      settings.shouldRetry_resolveRetryDecision attempt hctx]
    simp only [Bool.and_eq_true, Bool.not_eq_true']
    rintro ⟨⟨hlt, hgate⟩, -⟩
    simp [hlt, hgate]

/-- A retry is allowed only for a row that was found. -/
theorem Settings.task_isSome_of_retryAllowed {settings : Settings} {ctx : ErrorContext}
    {attempt : OnErrorAttempt}
    (h : (settings.resolveRetryDecision ctx attempt).retryAllowed = true) :
  ctx.task.isSome
  := by
  cases htask : ctx.task with
  | none => simp [Settings.resolveRetryDecision, htask] at h
  | some row => rfl

/-! ### Recording -/

/-- The attempt number a record holds is the one it is read with. -/
theorem OnErrorAttempt.attemptNumberOr_of_eq {attempt : OnErrorAttempt} {n : ℕ}
    (h : attempt.attemptNumber = some n) :
  attempt.attemptNumberOr n = n
  := by
  cases n with
  | zero => simp [attemptNumberOr, h]
  | succ n => simp [attemptNumberOr, h]

/-- The record of a call that has recorded a decision about a row. -/
def OnErrorAttempt.record (attempt : OnErrorAttempt) (decision : RetryDecision)
    (task : TaskExecution) : OnErrorAttempt where
  recordedStatus := some decision.status
  recordedRetryCount :=
    some (if decision.status = .retrying then task.retryCount + 1 else task.retryCount)
  statusMessage := some decision.statusMsg
  attemptNumber :=
    if decision.retryAllowed then some decision.attemptNumber else attempt.attemptNumber

/-- What the helpers of a pass share when it has loaded a row. -/
def ErrorContext.ofRow (settings : Settings) (message : TaskiqMessage) (exception : PyException)
    (i : UUID) (row : TaskExecution) : ErrorContext where
  task := some row
  taskExecutionId := i
  message := message
  errorDetail := s!"{exception.typeName}: {settings.text exception}"

/-- The fields a decision updates. -/
def ErrorContext.update (ctx : ErrorContext) (statusMsg : String) : StatusUpdate :=
  { errorDetail := some ctx.errorDetail, statusMessage := some statusMsg }

/-- The audit row of a decision about a row, unless the retries are exhausted. -/
def ErrorContext.auditRow (ctx : ErrorContext) (decision : RetryDecision) (task : TaskExecution) :
    Option TaskAttempt :=
  if decision.shouldRetry && !decision.retryAllowed then
    some
      { taskExecutionId := ctx.taskExecutionId
        tenantId := task.tenantId
        attemptNumber := decision.attemptNumber
        statusBefore := decision.statusBefore
        statusAfter := decision.status
        errorDetail := some ctx.errorDetail
        dispatchResult := if decision.retryShadowed then .shadowed else .blocked }
  else if decision.retryAllowed then
    some
      { taskExecutionId := ctx.taskExecutionId
        tenantId := task.tenantId
        attemptNumber := decision.attemptNumber
        statusBefore := decision.statusBefore
        statusAfter := .retrying
        errorDetail := some ctx.errorDetail
        dispatchResult := .pending }
  else none

end WorkerTemplate
