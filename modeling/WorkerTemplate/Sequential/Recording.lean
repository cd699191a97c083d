import WorkerTemplate.Sequential.Describes
import WorkerTemplate.Sequential.Lost

/-!
# Recording a decision

What the branches of an error hook do up to their first commit, in a transaction that is
going to be committed and in one that is going to be lost.
-/

namespace WorkerTemplate

/-- The world after a decision about a row has been recorded. -/
def World.decided (w : World) (ctx : ErrorContext) (decision : RetryDecision)
    (task : TaskExecution) : World :=
  (w.updated task decision.status (ctx.update decision.statusMsg)).push
    ((ctx.auditRow decision task).toList.map .insertAttempt)

theorem World.fate_decided (w : World) (ctx : ErrorContext) (decision : RetryDecision)
    (task : TaskExecution) :
  (w.decided ctx decision task).fate = w.fate
  := rfl

/-- The database after a decision about a row has been recorded. -/
def Database.decided (db : Database) (ctx : ErrorContext) (decision : RetryDecision)
    (task : TaskExecution) (now : Time) : Database :=
  (db.apply (.updateExecution task.id
    (task.changes (task.assign decision.status (ctx.update decision.statusMsg) now)))).view
      ((ctx.auditRow decision task).toList.map .insertAttempt)

/-- Recording a decision about a row updates the row. -/
theorem Database.execution?_decided {db : Database} {ctx : ErrorContext}
    {decision : RetryDecision} {i : UUID} {task : TaskExecution} (now : Time)
    (h : db.execution? i = some task) :
  (db.decided ctx decision task now).execution? i
    = some (task.assign decision.status (ctx.update decision.statusMsg) now)
  := by
  have hid : task.id = i := Database.id_of_execution? h
  have hinsert (db : Database) (rows : List TaskAttempt) :
      (db.view (rows.map .insertAttempt)).execution? i = db.execution? i := by
    apply Database.eq_view (f := fun db => db.execution? i)
    intro e he db
    obtain ⟨row, -, rfl⟩ := List.mem_map.mp he
    rfl
  rw [Database.decided, hinsert, hid, Database.execution?_updateExecution_self, h, Option.map_some,
    TaskExecution.set_changes_assign]

theorem World.view_decided (w : World) (ctx : ErrorContext) (decision : RetryDecision)
    (task : TaskExecution) :
  (w.decided ctx decision task).view = w.view.decided ctx decision task w.clock
  := by
  rw [World.decided, World.view_push, World.updated, World.view_push, World.view_tick]
  rfl

/-- The transaction that records a decision about a row reads the row with the decision. -/
theorem World.execution?_view_decided {w : World} {ctx : ErrorContext} {decision : RetryDecision}
    {i : UUID} {task : TaskExecution} (hview : w.view.execution? i = some task) :
  (w.decided ctx decision task).view.execution? i
    = some (task.assign decision.status (ctx.update decision.statusMsg) w.clock)
  := by
  rw [World.view_decided]
  apply Database.execution?_decided w.clock hview

namespace Hook

variable {s : Invocation} {w : World} {ctx : ErrorContext} {decision : RetryDecision}

/-! ### Transactions that are committed -/

/-- Recording a decision about a row updates the row and inserts its audit row. -/
theorem exec_recordInitialErrorStatus (hw : w.Up) {task : TaskExecution}
    (hctx : ctx.task = some task)
    (hmap : s.identityMap ctx.taskExecutionId = some task)
    (hview : w.view.execution? ctx.taskExecutionId = some task) :
  exec (recordInitialErrorStatus ctx decision) s w
    = ((.ok (),
        { s.keep (task.assign decision.status (ctx.update decision.statusMsg) w.clock) with
          attempt := s.attempt.record decision task }),
        w.decided ctx decision task)
  := by
  have hup : (w.updated task decision.status (ctx.update decision.statusMsg)).Up := hw
  rw [recordInitialErrorStatus]
  change exec (updateTaskStatus ctx.taskExecutionId decision.status
    (ctx.update decision.statusMsg) >>= _) s w = _
  rw [exec_bind_ok (exec_updateTaskStatus hw decision.status _ (Or.inr hmap) hview)]
  rw [modifyAttempt, exec_bind_ok (exec_modify _ _ _)]
  simp only [hctx, World.decided, ErrorContext.auditRow]
  cases hallowed : decision.retryAllowed with
  | true =>
      simp only [Bool.not_true, Bool.and_false, Bool.false_eq_true, if_false, if_true]
      rw [modifyAttempt, exec_bind_ok (exec_modify _ _ _), exec_recordTaskAttempt hup]
      simp only [OnErrorAttempt.record, hallowed]
      rfl
  | false =>
      simp only [Bool.not_false, Bool.and_true, Bool.false_eq_true, if_false]
      cases hshould : decision.shouldRetry with
      | true =>
          simp only [if_true]
          rw [exec_recordTaskAttempt hup]
          simp only [OnErrorAttempt.record, hallowed]
          rfl
      | false =>
          simp only [Bool.false_eq_true, if_false, OnErrorAttempt.record, hallowed]
          simp only [Option.toList_none, List.map_nil, World.push_nil]
          rfl

/-- The effects of taking a pending attempt for sent. -/
def reconcileEffects (db : Database) (i : UUID) : List Effect :=
  match db.latestAttempt? (.pending i) with
  | none => []
  | some attempt => markEffects db i attempt.attemptNumber

/-- A pending attempt is found under its number, so that reconciling never raises. -/
theorem exec_reconcilePending (hw : w.Up) (i : UUID) :
  exec (reconcilePending i) s w = ((.ok (), s), w.push (reconcileEffects w.view i))
  := by
  rw [reconcilePending, getLatestPendingTaskAttempt, exec_bind_ok (exec_execute hw _)]
  simp only [Database.answer, Statement.effects, World.push_nil, reconcileEffects]
  cases hfound : w.view.latestAttempt? (.pending i) with
  | none =>
      rw [World.push_nil]
      rfl
  | some attempt =>
      obtain ⟨hmem, hholds⟩ := Database.of_latestAttempt? hfound
      have hmarked : (w.view.latestAttempt?
          (.pendingOrDispatched i attempt.attemptNumber)).isSome := by
        apply Database.latestAttempt?_isSome hmem
        simp only [AttemptFilter.holds, Bool.and_eq_true, decide_eq_true_eq] at hholds
        simp [AttemptFilter.holds, hholds]
      simp only []
      rw [exec_bind_ok (exec_markTaskAttemptDispatched hw i attempt.attemptNumber), hmarked]
      rfl

/-- Marking an attempt leaves the executions alone. -/
theorem execution?_view_markEffects (db : Database) (i j : UUID) (n : ℕ) :
  (db.view (markEffects db i n)).execution? j = db.execution? j
  := by
  unfold markEffects
  split
  · rfl
  · split
    · rfl
    · rfl

theorem execution?_view_reconcileEffects (db : Database) (i j : UUID) :
  (db.view (reconcileEffects db i)).execution? j = db.execution? j
  := by
  unfold reconcileEffects
  split
  · rfl
  · apply execution?_view_markEffects

/-- Reconciling adds no attempt. -/
theorem length_attempts_reconcileEffects (db : Database) (i : UUID) :
  (db.view (reconcileEffects db i)).attempts.length = db.attempts.length
  := by
  unfold reconcileEffects markEffects
  split
  · rfl
  · split
    · rfl
    · split
      · simp
      · rfl

/-- The session of a pass loads the row and acts on the decision about it. -/
theorem exec_errorSession (hw : w.Up) (settings : Settings) (message : TaskiqMessage)
    (exception : PyException) {i : UUID} {row : TaskExecution} (hmap : s.identityMap i = none)
    (hview : w.view.execution? i = some row) {ctx : ErrorContext} {decision : RetryDecision}
    (hctx : ctx = .ofRow settings message exception i row)
    (hdecision : decision = settings.resolveRetryDecision ctx s.attempt) :
  exec (errorSession settings message exception i) s w
    = exec
        (recordDecision ctx decision >>= fun emitted =>
          if decision.retryShadowed then
            modifyResult (fun result => { result with shadowRetry := true }) >>= fun _ =>
              pure emitted
          else pure emitted)
        (s.keep row) w
  := by
  subst hdecision hctx
  rw [errorSession, exec_bind_ok (exec_getTaskExecution hw hmap hview),
    exec_bind_ok (exec_get _ _)]
  rfl

/-! ### Transactions that are lost -/

variable {J : OnErrorAttempt → TaskiqResult → Prop}

theorem inert_recordInitialErrorStatus
    (hstatus : ∀ a r, J a r → J { a with
      recordedStatus := some decision.status
      recordedRetryCount := ctx.task.map fun task =>
        if decision.status = .retrying then task.retryCount + 1 else task.retryCount
      statusMessage := some decision.statusMsg } r)
    (hnumber : ∀ a r, J a r → J { a with attemptNumber := some decision.attemptNumber } r) :
  Inert J (recordInitialErrorStatus ctx decision)
  := by
  apply (inert_updateTaskStatus _ _ _).bind
  intro _
  apply (inert_modifyAttempt hstatus).bind
  intro _
  cases ctx.task with
  | none => apply inert_pure
  | some task =>
      simp only []
      split
      · apply inert_recordTaskAttempt
      · split
        · apply (inert_modifyAttempt hnumber).bind
          intro _
          apply inert_recordTaskAttempt
        · apply inert_pure

theorem inert_reconcilePending (i : UUID) :
  Inert J (reconcilePending i)
  := by
  apply (inert_execute _).bind
  intro r
  cases r with
  | none => apply inert_pure
  | some attempt =>
      apply (inert_markTaskAttemptDispatched _ _).bind
      intro marked
      cases marked with
      | false => apply (doomed_throw _).inert
      | true => apply inert_pure

/-- Finding a recorded retry ends in a commit before anything is sent. -/
theorem doomed_recoverRetry :
  Doomed J (recoverRetry ctx decision)
  := by
  apply inert_get.bind_doomed
  intro s
  apply (inert_execute _).bind_doomed
  intro recovered
  cases recovered with
  | none => apply doomed_throw
  | some attempt =>
      simp only []
      split
      · apply (doomed_markDispatched _ _ _).bind
      · apply doomed_commit.bind

/-- What a record and a result have in common when a decision was to be recorded in a
transaction that is lost: the result is left alone, and the record is that of the
decision, if the decision is a new one, or else is left alone but for its number. -/
def RecordedOrLeft (ctx : ErrorContext) (decision : RetryDecision) (attempt : OnErrorAttempt)
    (result : TaskiqResult) (a : OnErrorAttempt) (r : TaskiqResult) : Prop :=
  r = result ∧
    (a = attempt ∨
      decision.retryAlreadyRecorded = false ∧
        ((a.recordedStatus = attempt.recordedStatus ∧
            a.recordedRetryCount = attempt.recordedRetryCount ∧
            a.statusMessage = attempt.statusMessage) ∨
          (a.recordedStatus = some decision.status ∧
            a.recordedRetryCount = ctx.task.map (fun task =>
              if decision.status = .retrying then task.retryCount + 1 else task.retryCount) ∧
            a.statusMessage = some decision.statusMsg)))

/-- Acting on a decision raises before anything is sent, when the first transaction is
lost. -/
theorem doomed_recordDecision (ctx : ErrorContext) (decision : RetryDecision)
    (attempt : OnErrorAttempt) (result : TaskiqResult) :
  Doomed (RecordedOrLeft ctx decision attempt result) (recordDecision ctx decision)
  := by
  have hinert (hnew : decision.retryAlreadyRecorded = false) :
      Inert (RecordedOrLeft ctx decision attempt result)
        (recordInitialErrorStatus ctx decision) := by
    apply inert_recordInitialErrorStatus
    · rintro a r ⟨rfl, -⟩
      exact ⟨rfl, Or.inr ⟨hnew, Or.inr ⟨rfl, rfl, rfl⟩⟩⟩
    · rintro a r ⟨rfl, rfl | ⟨-, hleft | hrecorded⟩⟩
      · exact ⟨rfl, Or.inr ⟨hnew, Or.inl ⟨rfl, rfl, rfl⟩⟩⟩
      · exact ⟨rfl, Or.inr ⟨hnew, Or.inl hleft⟩⟩
      · exact ⟨rfl, Or.inr ⟨hnew, Or.inr hrecorded⟩⟩
  unfold recordDecision
  split
  case isTrue hallowed =>
    cases hnew : decision.retryAlreadyRecorded with
    | true => apply doomed_recoverRetry
    | false =>
        apply (inert_reconcilePending _).bind_doomed
        intro _
        apply (hinert hnew).bind_doomed
        intro _
        apply doomed_commit.bind
  case isFalse hallowed =>
    cases hnew : decision.retryAlreadyRecorded with
    | true =>
        simp only [recordFailure, hnew]
        apply doomed_commit.bind
    | false =>
        simp only [recordFailure, hnew]
        apply (hinert hnew).bind_doomed
        intro _
        apply doomed_commit.bind

end Hook

end WorkerTemplate
