import WorkerTemplate.Sequential.Recording

/-!
# Sending a message

What an error hook does after its first commit: it sends the message and records what
became of it in a second transaction.  The ledger of the call describes the tables before
and after.
-/

namespace WorkerTemplate

/-- A call of `on_error` for an execution whose retries are allowed, with what the tables
and the broker held when it began. -/
structure Call where
  settings : Settings
  message : TaskiqMessage
  exception : PyException
  taskExecutionId : UUID
  tenantId : UUID
  maxRetries : ℕ
  /-- The number of audit rows before the call. -/
  attempts : ℕ
  /-- The messages accepted before the call. -/
  sent : List TaskiqMessage
  execution : message.extractTaskExecutionId = some taskExecutionId
  allowed : settings.retryGateAllows message.taskName tenantId = true

/-- The error a call writes into its execution. -/
def Call.errorDetail (c : Call) : String :=
  s!"{c.exception.typeName}: {c.settings.text c.exception}"

/-- The status message of an execution whose message was rejected. -/
def Call.rejectedMessage : String := "Task failed (retry dispatch error)"

/-- How a pass ends is seen from what it returns or raises and from the result. -/
def Outcome.Ends {α : Type} (result : TaskiqResult) (r : Except OperationalError α)
    (result' : TaskiqResult) : Outcome → Prop
  | .raised => (∃ e, r = .error e) ∧ result' = result
  | .settled => (∃ a, r = .ok a) ∧ result' = result
  | .resent => (∃ a, r = .ok a) ∧ result' = { result with error := some .noResultError }

namespace Ledger

/-- A ledger describes the row of an execution and the record of a call. -/
structure DescribesRow (c : Call) (L : Ledger) (attempt : OnErrorAttempt) (row : TaskExecution) :
    Prop where
  tenantId : row.tenantId = c.tenantId
  maxRetries : row.maxRetries = c.maxRetries
  status : row.status = L.status
  retryCount : row.retryCount = L.retryCount
  recorded : attempt.recognizes (some row) = L.recorded
  number : L.recorded = true → L.retryCount < c.maxRetries →
    ∀ retry ∈ L.current, attempt.attemptNumber = some retry.number
  rejected : L.recorded = true → L.retryCount < c.maxRetries → L.status = .failed →
    row.statusMessage = some Call.rejectedMessage
  errorDetail : L.recorded = true → row.errorDetail = some c.errorDetail

/-- A ledger describes the tables, the messages of the broker and the record of a call. -/
structure Describes (c : Call) (L : Ledger) (attempt : OnErrorAttempt) (w : World) : Prop where
  row : ∃ row, w.db.execution? c.taskExecutionId = some row ∧ L.DescribesRow c attempt row
  audits : L.Audits c.taskExecutionId c.attempts w.db.attempts
  sent : w.sent = c.sent ++ List.replicate L.sent c.message

variable {c : Call} {L : Ledger} {attempt : OnErrorAttempt} {w w' : World}

/-- The description of a world is one of its tables and its messages. -/
theorem Describes.congr (h : L.Describes c attempt w) (hdb : w'.db = w.db)
    (hsent : w'.sent = w.sent) :
  L.Describes c attempt w'
  where
  row := by simpa only [hdb] using h.row
  audits := by simpa only [hdb] using h.audits
  sent := by simpa only [hsent] using h.sent

/-- Dispatching the current retry changes nothing that is seen from the row. -/
theorem DescribesRow.mark {row : TaskExecution} (h : L.DescribesRow c attempt row) :
  L.mark.DescribesRow c attempt row
  where
  tenantId := h.tenantId
  maxRetries := h.maxRetries
  status := h.status
  retryCount := h.retryCount
  recorded := h.recorded
  rejected := h.rejected
  errorDetail := h.errorDetail
  number := by
    intro hrecorded hlt retry hretry
    simp only [Ledger.mark, Option.mem_def, Option.map_eq_some_iff] at hretry
    obtain ⟨retry', hretry', rfl⟩ := hretry
    apply h.number hrecorded hlt retry' hretry'

end Ledger

/-- The record of a call whose message was rejected. -/
def OnErrorAttempt.reject (attempt : OnErrorAttempt) : OnErrorAttempt :=
  { attempt with recordedStatus := some .failed, statusMessage := some Call.rejectedMessage }

namespace Hook

variable {s : Invocation} {w : World}

/-! ### Marking a sent message -/

/-- Marking an attempt that is found commits and leaves the outcome to the receiver. -/
theorem exec_markDispatched (hw : w.fate = .commits) {i : UUID} {n : ℕ} (notFound : String)
    (hfound : (w.view.latestAttempt? (.pendingOrDispatched i n)).isSome) :
  exec (markDispatched i n notFound) s w
    = ((.ok (), { s with result := { s.result with error := some .noResultError } }),
        (w.push (markEffects w.view i n)).committed)
  := by
  have hmark := exec_markTaskAttemptDispatched (s := s) (World.up_of_commits hw) i n
  have hfate : (w.push (markEffects w.view i n)).fate = .commits := hw
  rw [hfound] at hmark
  rw [markDispatched, exec_bind_ok hmark]
  change exec (commit >>= _) s _ = _
  rw [exec_bind_ok (exec_commit hfate)]
  rfl

/-- An ambiguous commit marks the attempt and raises. -/
theorem exec_markDispatched_applied (hw : w.fate = .applied) {i : UUID} {n : ℕ}
    (notFound : String)
    (hfound : (w.view.latestAttempt? (.pendingOrDispatched i n)).isSome) :
  exec (markDispatched i n notFound) s w
    = ((.error .driver, s),
        (w.push (markEffects w.view i n)).disconnected (w.push (markEffects w.view i n)).view)
  := by
  have hmark := exec_markTaskAttemptDispatched (s := s) (World.up_of_applied hw) i n
  have hfate : (w.push (markEffects w.view i n)).fate = .applied := hw
  rw [hfound] at hmark
  rw [markDispatched, exec_bind_ok hmark]
  change exec (commit >>= _) s _ = _
  rw [exec_bind_error (exec_commit_applied hfate)]

/-! ### Failing an execution in a transaction that is lost -/

/-- A transaction that is lost after the first statement loads an execution. -/
theorem exec_getTaskExecution_lost {k : ℕ} (hw : w.fate = .lost (k + 1)) {i : UUID}
    {task : TaskExecution} (hmap : s.identityMap i = none ∨ s.identityMap i = some task)
    (hview : w.view.execution? i = some task) :
  ∃ s', exec (getTaskExecution i none) s w = ((.ok (some task), s'), { w with fate := .lost k }) ∧
    s'.attempt = s.attempt ∧ s'.result = s.result
  := by
  have hid : task.id = i := Database.id_of_execution? hview
  have hrun : exec (execute (.selectExecution i none)) s w
      = ((.ok (some task), s), { w with fate := .lost k }) := by
    rw [exec_execute_lost hw]
    simp only [Database.answer, hview, Statement.effects, World.push_nil]
  rw [getTaskExecution, exec_bind_ok hrun]
  simp only []
  rw [exec_bind_ok (exec_get _ _)]
  simp only [hid]
  rcases hmap with hmap | hmap
  · rw [hmap]
    exact ⟨s.keep task, rfl, rfl, rfl⟩
  · rw [hmap]
    exact ⟨s, rfl, rfl, rfl⟩

/-- Failing an execution takes three statements: a transaction that is lost by one of them
loses the failure before the record of the call is changed. -/
theorem exec_updateTaskStatus_lost {k : ℕ} (hw : w.fate = .lost k) {i : UUID}
    {task : TaskExecution} (status : TaskStatus) (fields : StatusUpdate)
    (hmap : s.identityMap i = some task) (hview : w.view.execution? i = some task) :
  ∃ r s' w', exec (updateTaskStatus i status fields) s w = ((r, s'), w') ∧
    s'.attempt = s.attempt ∧ s'.result = s.result ∧ w.Agrees w' ∧
    if k < 3 then ∃ e, r = .error e else ∃ a, r = .ok a ∧ w'.fate = .lost (k - 3)
  := by
  have hagrees : w.Agrees w := World.Agrees.refl w
  cases k with
  | zero =>
      refine ⟨.error .driver, s, w, ?_, rfl, rfl, hagrees, .driver, rfl⟩
      rw [updateTaskStatus, getTaskExecution,
        exec_bind_error (exec_bind_error (exec_execute_lost_zero hw _))]
  | succ k =>
      obtain ⟨s', hget, hattempt, hresult⟩ := exec_getTaskExecution_lost hw (Or.inr hmap) hview
      rw [updateTaskStatus, exec_bind_ok hget]
      simp only []
      rw [exec_bind_ok exec_now]
      cases k with
      | zero =>
          rw [exec_bind_error (exec_execute_lost_zero rfl _)]
          exact ⟨_, _, _, rfl, hattempt, hresult, ⟨rfl, rfl, rfl, rfl, rfl, rfl, rfl⟩, _, rfl⟩
      | succ k =>
          rw [exec_bind_ok (exec_execute_lost rfl _)]
          cases k with
          | zero =>
              rw [refresh, exec_bind_error (exec_bind_error (exec_execute_lost_zero rfl _))]
              exact ⟨_, _, _, rfl, hattempt, hresult, ⟨rfl, rfl, rfl, rfl, rfl, rfl, rfl⟩, _, rfl⟩
          | succ k =>
              rw [refresh, bind_assoc, exec_bind_ok (exec_execute_lost rfl _)]
              simp only [if_neg (Nat.not_lt.mpr (Nat.le_add_left 3 k))]
              split
              · exact ⟨_, _, _, rfl, hattempt, hresult, ⟨rfl, rfl, rfl, rfl, rfl, rfl, rfl⟩, _,
                  rfl, rfl⟩
              · exact ⟨_, _, _, rfl, hattempt, hresult, ⟨rfl, rfl, rfl, rfl, rfl, rfl, rfl⟩, _,
                  rfl, rfl⟩

/-! ### Sending the message of a retry -/

/-- The world after a message has been accepted. -/
def accepted (w : World) (message : TaskiqMessage) : World :=
  { w with sent := w.sent ++ [message] }

theorem exec_requeue_accepted (hw : w.accepts = true) (message : TaskiqMessage) :
  exec (requeue message) s w = ((.ok true, s), accepted w message)
  := by
  rw [requeue, exec_perform]
  simp only [World.handle, if_pos hw, accepted]
  rw [hw]

theorem exec_requeue_rejected (hw : w.accepts = false) (message : TaskiqMessage) :
  exec (requeue message) s w = ((.ok false, s), w)
  := by
  rw [requeue, exec_perform]
  simp only [World.handle, hw, Bool.false_eq_true, if_false]

/-- What the second transaction of a pass starts from: the message of a recorded retry that
is pending is about to be sent. -/
structure AboutToSend (c : Call) (L : Ledger) (plan : SessionPlan) (ctx : ErrorContext)
    (decision : RetryDecision) (s : Invocation) (w : World) : Prop where
  describes : L.Describes c s.attempt w
  loaded : s.identityMap c.taskExecutionId = w.db.execution? c.taskExecutionId
  own : w.own = []
  fate : w.fate = plan.fate 1
  accepts : w.accepts = plan.accepts
  recorded : L.recorded = true
  current : ∃ retry, L.current = some retry ∧ retry.dispatched = false ∧
    s.attempt.attemptNumberOr decision.attemptNumber = retry.number
  failed : L.status = .failed → L.retryCount < c.maxRetries
  task : ctx.task.isSome
  taskExecutionId : ctx.taskExecutionId = c.taskExecutionId
  message : ctx.message = c.message
  errorDetail : ctx.errorDetail = c.errorDetail

variable {c : Call} {L : Ledger} {plan : SessionPlan} {ctx : ErrorContext}
  {decision : RetryDecision}

theorem AboutToSend.view (h : AboutToSend c L plan ctx decision s w) :
  w.view = w.db
  := by
  rw [World.view, h.own, Database.view_nil]

/-- A ledger with one more message describes the world in which it was accepted. -/
theorem AboutToSend.send (h : AboutToSend c L plan ctx decision s w) :
  L.send.Describes c s.attempt (accepted w c.message)
  where
  row := by
    obtain ⟨row, hrow, hdescribes⟩ := h.describes.row
    exact ⟨row, hrow, ⟨hdescribes.tenantId, hdescribes.maxRetries, hdescribes.status,
      hdescribes.retryCount, hdescribes.recorded, hdescribes.number, hdescribes.rejected,
      hdescribes.errorDetail⟩⟩
  audits := ⟨h.describes.audits.split⟩
  sent := by
    simp only [accepted, h.describes.sent, Ledger.send, List.replicate_succ', List.append_assoc]

/-- The world in which the audit row of an accepted message is marked is described by the
ledger whose current retry is dispatched. -/
theorem AboutToSend.mark (h : AboutToSend c L plan ctx decision s w) {retry : Retry}
    (hretry : L.current = some retry) {w' : World}
    (hdb : w'.db = w.db.view (markEffects w.db c.taskExecutionId retry.number))
    (hsent : w'.sent = w.sent ++ [c.message]) :
  L.send.mark.Describes c s.attempt w'
  where
  row := by
    obtain ⟨row, hrow, hdescribes⟩ := h.send.row
    use row
    rw [hdb, execution?_view_markEffects]
    exact ⟨hrow, hdescribes.mark⟩
  audits := by
    obtain ⟨-, -, -, haudits, -⟩ := h.describes.audits.current hretry
    rw [hdb]
    exact ⟨haudits.split⟩
  sent := by
    rw [hsent]
    apply h.send.sent

/-- A message that is accepted is marked by the second transaction, as far as this is not
lost. -/
theorem AboutToSend.exec_accepted (h : AboutToSend c L plan ctx decision s w)
    (haccepts : plan.accepts = true) :
  ∃ r s' w', exec (dispatchRetry ctx decision) s w = ((r, s'), w') ∧
    (L.dispatch decision.attemptNumber plan).1.Ends s.result r s'.result ∧
    (L.dispatch decision.attemptNumber plan).2.Describes c s'.attempt w' ∧ w'.plan = w.plan
  := by
  obtain ⟨retry, hretry, -, hnumber⟩ := h.current
  have hrequeue : exec (requeue ctx.message) s w = ((.ok true, s), accepted w c.message) := by
    rw [h.message]
    apply exec_requeue_accepted (h.accepts.trans haccepts)
  obtain ⟨row, hfound, -⟩ := h.describes.audits.current hretry
  have hview : (accepted w c.message).view = w.db := h.view
  have hmarked : ((accepted w c.message).view.latestAttempt?
      (.pendingOrDispatched c.taskExecutionId retry.number)).isSome := by
    rw [hview, hfound]
    rfl
  rw [dispatchRetry, exec_bind_ok hrequeue]
  simp only [if_true]
  rw [exec_bind_ok (exec_get _ _), hnumber, h.taskExecutionId]
  simp only [Ledger.dispatch, haccepts, if_true]
  cases hfate : plan.fate 1 with
  | commits =>
      have hcommits : (accepted w c.message).fate = .commits := h.fate.trans hfate
      rw [exec_bind_ok (exec_markDispatched hcommits _ hmarked)]
      refine ⟨_, _, _, rfl, ⟨⟨_, rfl⟩, rfl⟩, ?_, rfl⟩
      apply h.mark hretry _ rfl
      simp only [World.committed, World.view_push, hview]
  | lost k =>
      have hlost : (accepted w c.message).fate = .lost k := h.fate.trans hfate
      obtain ⟨e, s', w', hrun, ⟨hattempt, hresult⟩, hagrees⟩ :=
        (doomed_markDispatched (J := fun a r => a = s.attempt ∧ r = s.result)
          c.taskExecutionId retry.number dispatchAuditNotFound).bind
          (fun _ => pure (decision.status, decision.statusMsg)) s _ k ⟨rfl, rfl⟩ hlost
      refine ⟨_, _, _, hrun, ⟨⟨_, rfl⟩, hresult⟩, ?_, hagrees.plan⟩
      rw [hattempt]
      apply h.send.congr hagrees.db hagrees.sent
  | applied =>
      have happlied : (accepted w c.message).fate = .applied := h.fate.trans hfate
      rw [exec_bind_error (exec_markDispatched_applied happlied _ hmarked)]
      refine ⟨_, _, _, rfl, ⟨⟨_, rfl⟩, rfl⟩, ?_, rfl⟩
      apply h.mark hretry _ rfl
      simp only [World.disconnected, World.view_push, hview]

/-- A ledger with a rejected message describes the world in which the execution has been
failed and the rejection audited. -/
theorem AboutToSend.reject (h : AboutToSend c L plan ctx decision s w) {row : TaskExecution}
    (hrow : w.db.execution? c.taskExecutionId = some row) {attempt : TaskAttempt}
    (hnumber : attempt.attemptNumber = decision.attemptNumber)
    (hfailed : attempt.dispatchResult = .dispatchFailed) {w' : World}
    (hdb : w'.db = (((w.updated row .failed (ctx.update Call.rejectedMessage)).push
      [.insertAttempt attempt]).view))
    (hsent : w'.sent = w.sent) :
  (L.reject decision.attemptNumber).Describes c s.attempt.reject w'
  := by
  obtain ⟨row', hrow', hdescribes⟩ := h.describes.row
  obtain rfl : row' = row := Option.some_injective _ (hrow'.symm.trans hrow)
  have hid : row'.id = c.taskExecutionId := Database.id_of_execution? hrow
  have hdb' : w'.db = (w.db.apply (.updateExecution c.taskExecutionId (row'.changes
      (row'.assign .failed (ctx.update Call.rejectedMessage) w.clock)))).apply
        (.insertAttempt attempt) := by
    rw [hdb, World.updated, World.view_push, World.view_push, World.view_tick, h.view, hid]
    rfl
  have hassigned : w'.db.execution? c.taskExecutionId
      = some (row'.assign .failed (ctx.update Call.rejectedMessage) w.clock) := by
    rw [hdb', Database.execution?_insertAttempt, Database.execution?_updateExecution_self, hrow,
      Option.map_some, TaskExecution.set_changes_assign]
  have hcount : s.attempt.recordedRetryCount = some row'.retryCount := by
    have hrecognizes := hdescribes.recorded
    rw [h.recorded, OnErrorAttempt.recognizes_iff] at hrecognizes
    apply hrecognizes.2.1
  constructor
  · refine ⟨_, hassigned, ?_⟩
    constructor
    · apply hdescribes.tenantId
    · apply hdescribes.maxRetries
    · rfl
    · apply hdescribes.retryCount
    · have hrecorded : (L.reject decision.attemptNumber).recorded = true := h.recorded
      rw [hrecorded, OnErrorAttempt.recognizes_iff]
      exact ⟨rfl, hcount, rfl⟩
    · intro hrecorded hlt
      apply hdescribes.number hrecorded hlt
    · intro _ _ _
      rfl
    · intro _
      exact congrArg some h.errorDetail
  · rw [hdb', ← hnumber]
    apply Ledger.Audits.reject _ attempt hfailed
    apply h.describes.audits
  · rw [hsent, h.describes.sent]
    rfl

/-- When the failure of an execution is lost after it has been put into the record of the
call, the record recognizes the row only if it was failed before. -/
theorem AboutToSend.rejectLost (h : AboutToSend c L plan ctx decision s w) :
  Ledger.Describes c { L with recorded := L.status = .failed } s.attempt.reject w
  where
  row := by
    obtain ⟨row, hrow, hdescribes⟩ := h.describes.row
    have hrecognizes := hdescribes.recorded
    rw [h.recorded, OnErrorAttempt.recognizes_iff] at hrecognizes
    obtain ⟨-, hcount, -⟩ := hrecognizes
    refine ⟨row, hrow, hdescribes.tenantId, hdescribes.maxRetries, hdescribes.status,
      hdescribes.retryCount, ?_, ?_, ?_, fun _ => hdescribes.errorDetail h.recorded⟩
    · rw [Bool.eq_iff_iff, OnErrorAttempt.recognizes_iff, decide_eq_true_eq]
      constructor
      · rintro ⟨hstatus, -, -⟩
        rw [← hdescribes.status]
        apply (Option.some_injective _ hstatus).symm
      · intro hstatus
        refine ⟨?_, hcount, ?_⟩
        · rw [hdescribes.status, hstatus]
          rfl
        · rw [hdescribes.rejected h.recorded (h.failed hstatus) hstatus]
          rfl
    · intro _ hlt
      apply hdescribes.number h.recorded hlt
    · intro _ hlt
      apply hdescribes.rejected h.recorded hlt
  audits := ⟨h.describes.audits.split⟩
  sent := h.describes.sent

/-- A message that is rejected fails the execution by the second transaction, as far as this
is not lost. -/
theorem AboutToSend.exec_rejected (h : AboutToSend c L plan ctx decision s w)
    (haccepts : plan.accepts = false) :
  ∃ r s' w', exec (dispatchRetry ctx decision) s w = ((r, s'), w') ∧
    (L.dispatch decision.attemptNumber plan).1.Ends s.result r s'.result ∧
    (L.dispatch decision.attemptNumber plan).2.Describes c s'.attempt w' ∧ w'.plan = w.plan
  := by
  have hrequeue : exec (requeue ctx.message) s w = ((.ok false, s), w) :=
    exec_requeue_rejected (h.accepts.trans haccepts) ctx.message
  obtain ⟨row, hrow, hdescribes⟩ := h.describes.row
  have hmap : s.identityMap ctx.taskExecutionId = some row := by
    rw [h.taskExecutionId, h.loaded, hrow]
  have hview : w.view.execution? ctx.taskExecutionId = some row := by
    rw [h.view, h.taskExecutionId, hrow]
  obtain ⟨task, htask⟩ := Option.isSome_iff_exists.mp h.task
  rw [dispatchRetry, exec_bind_ok hrequeue]
  simp only [Bool.false_eq_true, if_false]
  change ∃ r s' w', exec (updateTaskStatus ctx.taskExecutionId .failed
    (ctx.update Call.rejectedMessage) >>= _) s w = ((r, s'), w') ∧ _
  simp only [Ledger.dispatch, haccepts, Bool.false_eq_true, if_false]
  -- Up to its commit the transaction of a pass that is not lost fails the execution.
  have hup (hw : w.Up) (k : Hook (TaskStatus × String)) :
      ∃ s' attempt, exec (updateTaskStatus ctx.taskExecutionId .failed
        (ctx.update Call.rejectedMessage) >>= fun _ => modifyAttempt OnErrorAttempt.reject >>=
          fun _ => recordTaskAttempt ctx.taskExecutionId task.tenantId decision.attemptNumber
            .retrying .failed (some ctx.errorDetail) .dispatchFailed >>= fun _ => k) s w
        = exec k s' ((w.updated row .failed (ctx.update Call.rejectedMessage)).push
            [.insertAttempt attempt]) ∧
      s'.attempt = s.attempt.reject ∧ s'.result = s.result ∧
      attempt.attemptNumber = decision.attemptNumber ∧
      attempt.dispatchResult = .dispatchFailed := by
    have hup' : (w.updated row .failed (ctx.update Call.rejectedMessage)).Up := hw
    rw [exec_bind_ok (exec_updateTaskStatus hw .failed _ (Or.inr hmap) hview)]
    rw [modifyAttempt, exec_bind_ok (exec_modify _ _ _)]
    rw [exec_bind_ok (exec_recordTaskAttempt hup' _ _ _ _ _ _ _)]
    exact ⟨_, _, rfl, rfl, rfl, rfl, rfl⟩
  simp only [htask]
  cases hfate : plan.fate 1 with
  | commits =>
      have hw : w.fate = .commits := h.fate.trans hfate
      obtain ⟨s', attempt, hrun, hattempt, hresult, hnumber, hfailed⟩ :=
        hup (World.up_of_commits hw) (commit >>= fun _ => pure (.failed, Call.rejectedMessage))
      refine ⟨_, _, _, hrun.trans (exec_bind_ok (exec_commit hw)), ⟨⟨_, rfl⟩, hresult⟩, ?_, rfl⟩
      rw [hattempt]
      exact h.reject hrow hnumber hfailed rfl rfl
  | lost k =>
      have hw : w.fate = .lost k := h.fate.trans hfate
      obtain ⟨r, s', w', hrun, hattempt, hresult, hagrees, hr⟩ :=
        exec_updateTaskStatus_lost hw .failed (ctx.update Call.rejectedMessage) hmap hview
      split at hr
      case isTrue hk =>
        obtain ⟨e, rfl⟩ := hr
        refine ⟨_, _, _, exec_bind_error hrun, ⟨⟨_, rfl⟩, hresult⟩, ?_, hagrees.plan⟩
        simp only [hattempt, if_pos hk]
        apply h.describes.congr hagrees.db hagrees.sent
      case isFalse hk =>
        obtain ⟨a, rfl, hw'⟩ := hr
        rw [exec_bind_ok hrun, modifyAttempt, exec_bind_ok (exec_modify _ _ _)]
        have hdoomed : Doomed (fun a r => a = s.attempt.reject ∧ r = s.result)
            (recordTaskAttempt ctx.taskExecutionId task.tenantId decision.attemptNumber
              .retrying .failed (some ctx.errorDetail) .dispatchFailed >>= fun _ => commit >>=
                fun _ => pure (TaskStatus.failed, Call.rejectedMessage)) := by
          apply (inert_recordTaskAttempt _ _ _ _ _ _ _).bind_doomed
          intro _
          apply doomed_commit.bind
        obtain ⟨e, s'', w'', hrun', ⟨hattempt', hresult'⟩, hagrees'⟩ :=
          hdoomed { s' with attempt := s'.attempt.reject } w' _ ⟨by rw [hattempt], hresult⟩ hw'
        refine ⟨_, _, _, hrun', ⟨⟨_, rfl⟩, hresult'⟩, ?_, hagrees'.plan.trans hagrees.plan⟩
        simp only [hattempt', if_neg hk]
        apply h.rejectLost.congr (hagrees.trans hagrees').db (hagrees.trans hagrees').sent
  | applied =>
      have hw : w.fate = .applied := h.fate.trans hfate
      obtain ⟨s', attempt, hrun, hattempt, hresult, hnumber, hfailed⟩ :=
        hup (World.up_of_applied hw) (commit >>= fun _ => pure (.failed, Call.rejectedMessage))
      refine ⟨_, _, _, hrun.trans (exec_bind_error (exec_commit_applied hw)), ⟨⟨_, rfl⟩, hresult⟩,
        ?_, rfl⟩
      rw [hattempt]
      exact h.reject hrow hnumber hfailed rfl rfl

/-- The second transaction of a pass does to the tables what it does to the ledger. -/
theorem AboutToSend.follows (h : AboutToSend c L plan ctx decision s w) :
  ∃ r s' w', exec (dispatchRetry ctx decision) s w = ((r, s'), w') ∧
    (L.dispatch decision.attemptNumber plan).1.Ends s.result r s'.result ∧
    (L.dispatch decision.attemptNumber plan).2.Describes c s'.attempt w' ∧ w'.plan = w.plan
  := by
  cases haccepts : plan.accepts with
  | true => apply h.exec_accepted haccepts
  | false => apply h.exec_rejected haccepts

end Hook

end WorkerTemplate
