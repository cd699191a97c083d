import WorkerTemplate.Sequential.Dispatching

/-!
# A call of an error hook follows its ledger

Every pass of `on_error` for an execution whose retries are allowed does to the tables
what the pass of the ledger does to the ledger, and ends as it does.  So a whole call,
which makes up to three passes, is a run of the ledger.
-/

namespace WorkerTemplate

/-! ### The decision of a pass -/

namespace Call

variable (c : Call)

/-- What the helpers of a pass share when it has loaded a row. -/
def context (row : TaskExecution) : ErrorContext :=
  .ofRow c.settings c.message c.exception c.taskExecutionId row

@[simp]
theorem taskExecutionId_context (row : TaskExecution) :
  (c.context row).taskExecutionId = c.taskExecutionId
  := rfl

/-- The decision of a pass that has loaded a row. -/
def decision (attempt : OnErrorAttempt) (row : TaskExecution) : RetryDecision :=
  c.settings.resolveRetryDecision (c.context row) attempt

variable {c} {L : Ledger} {attempt : OnErrorAttempt} {row : TaskExecution}

theorem retryAllowed_decision (h : L.DescribesRow c attempt row) :
  (c.decision attempt row).retryAllowed = decide (L.retryCount < c.maxRetries)
  := by
  have hallowed : c.settings.retryGateAllows (c.context row).message.taskName row.tenantId
      = true := by
    rw [h.tenantId]
    apply c.allowed
  rw [decision, Settings.retryAllowed_resolveRetryDecision c.settings attempt rfl, hallowed,
    Bool.and_true, h.retryCount, h.maxRetries]

theorem shouldRetry_decision (h : L.DescribesRow c attempt row) :
  (c.decision attempt row).shouldRetry = decide (L.retryCount < c.maxRetries)
  := by
  rw [decision, Settings.shouldRetry_resolveRetryDecision c.settings attempt rfl, h.retryCount,
    h.maxRetries]

theorem retryAlreadyRecorded_decision (h : L.DescribesRow c attempt row) :
  (c.decision attempt row).retryAlreadyRecorded = L.recorded
  := by
  rw [decision, Settings.retryAlreadyRecorded_resolveRetryDecision c.settings attempt rfl,
    h.recorded]

theorem attemptNumber_decision (h : L.DescribesRow c attempt row) :
  (c.decision attempt row).attemptNumber = L.retryCount + 1
  := by
  rw [decision, Settings.attemptNumber_resolveRetryDecision c.settings attempt rfl, h.retryCount]

/-- An execution whose gate is open is never shadowed. -/
theorem retryShadowed_decision (h : L.DescribesRow c attempt row) :
  (c.decision attempt row).retryShadowed = false
  := by
  have hallowed : c.settings.retryGateAllows (c.context row).message.taskName row.tenantId
      = true := by
    rw [h.tenantId]
    apply c.allowed
  rw [decision, Settings.retryShadowed_resolveRetryDecision c.settings attempt rfl, hallowed]
  simp

theorem status_decision (h : L.DescribesRow c attempt row) (hrecorded : L.recorded = false) :
  (c.decision attempt row).status
    = if L.retryCount < c.maxRetries then .retrying else .failed
  := by
  have hctx : (c.context row).task = some row := rfl
  have hstatus := c.settings.status_resolveRetryDecision attempt hctx (h.recorded.trans hrecorded)
  have hallowed := retryAllowed_decision h
  have hshadowed := retryShadowed_decision h
  rw [decision] at hallowed hshadowed ⊢
  rw [hstatus, hallowed, hshadowed]
  simp

end Call

/-! ### Recording -/

namespace Ledger

variable {c : Call} {L : Ledger} {attempt attempt' : OnErrorAttempt} {row : TaskExecution}

/-- The row of a ledger after its decision has been recorded. -/
theorem DescribesRow.record (h : L.DescribesRow c attempt row) (hrecorded : L.recorded = false)
    (now : Time) :
  (L.record c.maxRetries).DescribesRow c (attempt.record (c.decision attempt row) row)
    (row.assign (c.decision attempt row).status
      ((c.context row).update (c.decision attempt row).statusMsg) now)
  := by
  have hstatus := Call.status_decision h hrecorded
  have hallowed := Call.retryAllowed_decision h
  have hrecognizes : (attempt.record (c.decision attempt row) row).recognizes
      (some (row.assign (c.decision attempt row).status
        ((c.context row).update (c.decision attempt row).statusMsg) now)) = true := by
    rw [OnErrorAttempt.recognizes_iff]
    exact ⟨rfl, rfl, rfl⟩
  by_cases hlt : L.retryCount < c.maxRetries
  · rw [if_pos hlt] at hstatus
    constructor
    · apply h.tenantId
    · apply h.maxRetries
    · rw [Ledger.record, if_pos hlt]
      apply hstatus
    · rw [Ledger.record, if_pos hlt]
      simp only [TaskExecution.assign, hstatus, if_true, h.retryCount]
    · rw [hrecognizes, recorded_record]
    · intro _ _ retry hretry
      rw [current_record hlt] at hretry
      obtain ⟨⟩ := hretry
      simp only [OnErrorAttempt.record, hallowed, hlt, decide_true, if_true,
        Call.attemptNumber_decision h]
    · intro _ _ hfailed
      rw [Ledger.record, if_pos hlt] at hfailed
      cases hfailed
    · intro _
      rfl
  · rw [if_neg hlt] at hstatus
    have hcount : (L.record c.maxRetries).retryCount = L.retryCount := by
      rw [Ledger.record, if_neg hlt]
    constructor
    · apply h.tenantId
    · apply h.maxRetries
    · rw [Ledger.record, if_neg hlt]
      apply hstatus
    · rw [hcount]
      simp only [TaskExecution.assign, hstatus, reduceCtorEq, if_false, h.retryCount]
    · rw [hrecognizes, recorded_record]
    · intro _ hlt'
      rw [hcount] at hlt'
      apply absurd hlt' hlt
    · intro _ hlt'
      rw [hcount] at hlt'
      apply absurd hlt' hlt
    · intro _
      rfl

/-- A ledger goes on describing a row whose recording was lost. -/
theorem DescribesRow.recordedOrLeft (h : L.DescribesRow c attempt row) (hL : L.Sound c.maxRetries)
    {result result' : TaskiqResult}
    (hleft : Hook.RecordedOrLeft (c.context row) (c.decision attempt row) attempt result attempt'
      result') :
  L.DescribesRow c attempt' row
  := by
  obtain ⟨-, rfl | ⟨hnew, hleft⟩⟩ := hleft
  · apply h
  · rw [Call.retryAlreadyRecorded_decision h] at hnew
    refine ⟨h.tenantId, h.maxRetries, h.status, h.retryCount, ?_, ?_, h.rejected, h.errorDetail⟩
    · rw [hnew, Bool.eq_false_iff, Ne, OnErrorAttempt.recognizes_iff]
      rcases hleft with ⟨hstatus, hcount, hmessage⟩ | ⟨hstatus, hcount, -⟩
      · rw [hstatus, hcount, hmessage, ← OnErrorAttempt.recognizes_iff, h.recorded, hnew]
        apply Bool.false_ne_true
      · rintro ⟨hstatus', hcount', -⟩
        have hdecision := Call.status_decision h hnew
        split at hdecision
        case isTrue hlt =>
          -- The retry count would have been raised.
          rw [hcount] at hcount'
          simp only [Call.context, ErrorContext.ofRow, Option.map_some, hdecision, if_true,
            Option.some.injEq] at hcount'
          omega
        case isFalse hlt =>
          -- The row would have failed, but it has a pending retry.
          rw [hstatus, hdecision, Option.some.injEq, h.status] at hstatus'
          rcases hL.untouched hnew with ⟨-, -, hlt'⟩ | ⟨hretrying, -⟩
          · apply hlt hlt'
          · rw [hretrying] at hstatus'
            cases hstatus'
    · intro hrecorded
      rw [hnew] at hrecorded
      cases hrecorded

/-- Reconciling dispatches the current retry, and otherwise changes older rows only. -/
theorem Audits.reconcile {i : UUID} {before m : ℕ} {db : Database}
    (h : L.Audits i before db.attempts) (hL : L.Sound m) (hrecorded : L.recorded = false) :
  L.mark.Audits i before (db.view (Hook.reconcileEffects db i)).attempts
  := by
  rcases hL.untouched hrecorded with ⟨hnone, haudit, -⟩ | ⟨-, retry, hcurrent, hpending⟩
  · obtain ⟨old, past, current, failures, hsplit, hold, hpast, hcurrent, hfailures, -⟩ := h.split
    simp only [audit, List.append_eq_nil_iff, List.map_eq_nil_iff] at haudit
    obtain ⟨⟨hpast', -⟩, hfailures'⟩ := haudit
    rw [hnone, Option.map_none, Option.map_eq_none_iff] at hcurrent
    rw [hpast', List.map_eq_nil_iff] at hpast
    rw [hfailures', List.map_nil, List.map_eq_nil_iff] at hfailures
    subst hcurrent hpast hfailures
    constructor
    refine ⟨(db.view (Hook.reconcileEffects db i)).attempts, [], none, [], by simp, ?_, ?_, ?_, ?_,
      by simp⟩
    · rw [Hook.length_attempts_reconcileEffects, hsplit]
      simpa using hold
    · simp [mark, hpast']
    · simp [mark, hnone]
    · simp [mark, hfailures']
  · obtain ⟨row, hfound, hentry, hmark, hpending'⟩ := h.current hcurrent
    have hnumber : row.attemptNumber = retry.number := (Prod.ext_iff.mp hentry).1
    rw [Hook.reconcileEffects, hpending' hpending]
    simp only [hnumber]
    apply hmark

/-- A ledger describes the tables when its decision has been recorded. -/
theorem DescribesRow.describes_record (h : L.DescribesRow c attempt row)
    (hrecorded : L.recorded = false) {w : World}
    (hview : w.view.execution? c.taskExecutionId = some row)
    (haudits : (if L.retryCount < c.maxRetries then L.mark else L).Audits c.taskExecutionId
      c.attempts w.view.attempts)
    (hsent : w.sent = c.sent ++ List.replicate L.sent c.message) (w' : World)
    (hdb : w'.db = (w.decided (c.context row) (c.decision attempt row) row).view)
    (hsent' : w'.sent = w.sent) :
  (L.record c.maxRetries).Describes c (attempt.record (c.decision attempt row) row) w'
  where
  row := by
    refine ⟨_, ?_, h.record hrecorded w.clock⟩
    rw [hdb, World.execution?_view_decided hview]
  audits := by
    have hallowed := Call.retryAllowed_decision h
    have hshould := Call.shouldRetry_decision h
    have hupdated : ∀ (fields : StatusUpdate), (w.updated row (c.decision attempt row).status
        fields).view.attempts = w.view.attempts := by
      intro fields
      rw [World.updated, World.view_push, World.view_tick]
      rfl
    rw [hdb, World.decided, World.view_push]
    by_cases hlt : L.retryCount < c.maxRetries
    · rw [if_pos hlt] at haudits
      rw [decide_eq_true hlt] at hallowed hshould
      simp only [ErrorContext.auditRow, hallowed, hshould, Bool.not_true, Bool.and_false,
        Bool.false_eq_true, if_false, if_true, Option.toList_some, List.map_singleton,
        Database.view_singleton]
      apply Audits.insert _ hlt
      · simp only [TaskAttempt.entry, Call.attemptNumber_decision h]
      · rfl
      · rw [hupdated]
        apply haudits
    · rw [if_neg hlt] at haudits
      rw [decide_eq_false hlt] at hallowed hshould
      simp only [ErrorContext.auditRow, hallowed, hshould, Bool.false_and, Bool.false_eq_true,
        if_false, Option.toList_none, List.map_nil, Database.view_nil, hupdated]
      rw [Ledger.record, if_neg hlt]
      exact ⟨haudits.split⟩
  sent := by
    rw [hsent', hsent, Ledger.record]
    split
    · rfl
    · rfl

end Ledger

/-! ### Passes -/

namespace Hook

/-- What the session of a pass starts from. -/
structure AtStart (c : Call) (L : Ledger) (plan : SessionPlan) (s : Invocation) (w : World) :
    Prop where
  describes : L.Describes c s.attempt w
  sound : L.Sound c.maxRetries
  fresh : s.identityMap c.taskExecutionId = none
  own : w.own = []
  fate : w.fate = plan.fate 0
  later : w.later 0 = plan.fate 1
  accepts : w.accepts = plan.accepts

/-- A run of a part of a pass does to the tables what the pass does to the ledger, and ends
as it does. -/
def Follows {α : Type} (c : Call) (pass : Outcome × Ledger) (h : Hook α) (s : Invocation)
    (w : World) (result : TaskiqResult) : Prop :=
  ∃ r s' w', exec h s w = ((r, s'), w') ∧ pass.1.Ends result r s'.result ∧
    pass.2.Describes c s'.attempt w' ∧ w'.plan = w.plan

variable {c : Call} {L : Ledger} {plan : SessionPlan} {s : Invocation} {w : World}

theorem AtStart.view (h : AtStart c L plan s w) :
  w.view = w.db
  := by
  rw [World.view, h.own, Database.view_nil]

/-- A pass whose first transaction is lost raises and leaves the ledger as it is. -/
theorem AtStart.follows_lost (h : AtStart c L plan s w) {k : ℕ} (hplan : plan.fate 0 = .lost k) :
  Follows c (L.pass c.maxRetries plan)
    (errorSession c.settings c.message c.exception c.taskExecutionId) s w s.result
  := by
  have hw : w.fate = .lost k := h.fate.trans hplan
  have hpass : L.pass c.maxRetries plan = (.raised, L) := by
    unfold Ledger.pass
    rw [hplan]
    simp
  obtain ⟨row, hrow, hdescribes⟩ := h.describes.row
  rw [hpass]
  cases k with
  | zero =>
      refine ⟨_, _, _, ?_, ⟨⟨.driver, rfl⟩, rfl⟩, h.describes, rfl⟩
      rw [errorSession, getTaskExecution,
        exec_bind_error (exec_bind_error (exec_execute_lost_zero hw _))]
  | succ k =>
      rw [← h.view] at hrow
      obtain ⟨s', hget, hattempt, hresult⟩ := exec_getTaskExecution_lost hw (Or.inl h.fresh) hrow
      unfold Follows
      rw [errorSession, exec_bind_ok hget, exec_bind_ok (exec_get _ _)]
      obtain ⟨e, s'', w', hrun, hleft, hagrees⟩ :=
        doomed_recordDecision (c.context row) (c.decision s.attempt row) s.attempt s.result s'
          { w with fate := .lost k } k
          ⟨hresult, Or.inl hattempt⟩ rfl
      rw [hattempt]
      refine ⟨_, _, _, exec_bind_error hrun, ⟨⟨e, rfl⟩, hleft.1⟩, ?_, hagrees.plan⟩
      apply Ledger.Describes.congr _ hagrees.db hagrees.sent
      rw [h.view] at hrow
      exact ⟨⟨row, hrow, hdescribes.recordedOrLeft h.sound hleft⟩, h.describes.audits,
        h.describes.sent⟩

/-- The session of a pass loads the row and acts on the decision about it. -/
theorem AtStart.exec_errorSession (h : AtStart c L plan s w) (hw : w.Up) {row : TaskExecution}
    (hrow : w.db.execution? c.taskExecutionId = some row)
    (hdescribes : L.DescribesRow c s.attempt row) :
  exec (errorSession c.settings c.message c.exception c.taskExecutionId) s w
    = exec (recordDecision (c.context row) (c.decision s.attempt row)) (s.keep row) w
  := by
  have hshadowed := Call.retryShadowed_decision hdescribes
  rw [← h.view] at hrow
  have hcontext : c.context row
      = .ofRow c.settings c.message c.exception c.taskExecutionId row := rfl
  have hdecision : c.decision s.attempt row
      = c.settings.resolveRetryDecision (c.context row) s.attempt := rfl
  rw [Hook.exec_errorSession hw c.settings c.message c.exception h.fresh hrow hcontext hdecision,
    hshadowed]
  simp only [Bool.false_eq_true, if_false]
  congr 1
  apply bind_pure

/-- The audit row of the current retry is found under its number. -/
theorem AtStart.exec_recovered (h : AtStart c L plan s w) (hw : w.Up)
    (hrecorded : L.recorded = true) (hlt : L.retryCount < c.maxRetries) {row : TaskExecution}
    (hdescribes : L.DescribesRow c s.attempt row) {retry : Retry}
    (hretry : L.current = some retry) :
  s.attempt.attemptNumberOr (c.decision s.attempt row).attemptNumber = retry.number ∧
    ∃ attempt : TaskAttempt, attempt.entry = retry.entry ∧
      exec (recoverRetry (c.context row) (c.decision s.attempt row)) (s.keep row) w
        = exec
            (if attempt.dispatchResult = .dispatched then do
              recoverDispatchAudit (c.context row) attempt.attemptNumber
              pure ((c.decision s.attempt row).status, (c.decision s.attempt row).statusMsg)
            else do
              commit
              dispatchRetry (c.context row) (c.decision s.attempt row)) (s.keep row) w
  := by
  obtain ⟨attempt, hfound, hentry, -⟩ := h.describes.audits.current hretry
  have hnumber : s.attempt.attemptNumberOr (c.decision s.attempt row).attemptNumber
      = retry.number := by
    obtain ⟨n, hn⟩ := Nat.exists_eq_succ_of_ne_zero (h.sound.number retry hretry)
    rw [OnErrorAttempt.attemptNumberOr, hdescribes.number hrecorded hlt retry hretry, hn]
  refine ⟨hnumber, attempt, hentry, ?_⟩
  have hselect : exec (getTaskAttemptDispatchState (c.context row).taskExecutionId
      ((s.keep row).attempt.attemptNumberOr (c.decision s.attempt row).attemptNumber))
      (s.keep row) w = ((.ok (some attempt), s.keep row), w) := by
    rw [getTaskAttemptDispatchState, getLatestPendingOrDispatchedTaskAttempt, exec_execute hw]
    simp only [Invocation.attempt_keep, hnumber, Statement.effects, World.push_nil,
      Database.answer, h.view, Call.taskExecutionId_context, hfound]
  rw [recoverRetry, exec_bind_ok (exec_get _ _), exec_bind_ok hselect]

/-- The pass of a ledger whose current retry is dispatched finds that there is nothing left to
do. -/
theorem AtStart.follows_recoverDispatched (h : AtStart c L plan s w) (hw : w.Up)
    (hrecorded : L.recorded = true) (hlt : L.retryCount < c.maxRetries) {row : TaskExecution}
    (hrow : w.db.execution? c.taskExecutionId = some row)
    (hdescribes : L.DescribesRow c s.attempt row) {retry : Retry} (hretry : L.current = some retry)
    (hdispatched : retry.dispatched = true) :
  Follows c (L.pass c.maxRetries plan)
    (recoverRetry (c.context row) (c.decision s.attempt row)) (s.keep row) w s.result
  := by
  obtain ⟨-, attempt, hentry, hrun⟩ := h.exec_recovered hw hrecorded hlt hdescribes hretry
  obtain ⟨row', hfound, hentry', hmark, -⟩ := h.describes.audits.current hretry
  obtain ⟨hnumber, hresult⟩ := Prod.ext_iff.mp hentry
  have hattempt : attempt.dispatchResult = .dispatched := by
    simpa [TaskAttempt.entry, Retry.entry, hdispatched] using hresult
  have hmarkL : L.mark = L := by
    simp only [Ledger.mark, hretry, Option.map_some, Retry.mark]
    rw [← hdispatched, ← hretry]
  have hmarked : (w.view.latestAttempt?
      (.pendingOrDispatched c.taskExecutionId retry.number)).isSome := by
    rw [h.view, hfound]
    rfl
  have hL (w' : World) (hdb : w'.db = w.view.view (markEffects w.view c.taskExecutionId
      retry.number)) (hsent : w'.sent = w.sent) : L.Describes c s.attempt w' := by
    rw [h.view] at hdb
    rw [hmarkL] at hmark
    refine ⟨⟨row, ?_, hdescribes⟩, ?_, ?_⟩
    · rw [hdb, execution?_view_markEffects, hrow]
    · rw [hdb]
      apply hmark
    · rw [hsent, h.describes.sent]
  unfold Follows
  have hnumber' : attempt.attemptNumber = retry.number := hnumber
  rw [hrun, if_pos hattempt, recoverDispatchAudit, Call.taskExecutionId_context, hnumber']
  simp only [Ledger.pass, hrecorded, if_true, hlt, hretry, Option.any_some, hdispatched]
  rcases hw.commits_or_applied with hfate | hfate
  · rw [← h.fate, hfate, exec_bind_ok (exec_markDispatched hfate _ hmarked)]
    refine ⟨_, _, _, rfl, ⟨⟨_, rfl⟩, rfl⟩, ?_, rfl⟩
    exact hL _ (World.view_push _ _) rfl
  · rw [← h.fate, hfate, exec_bind_error (exec_markDispatched_applied hfate _ hmarked)]
    refine ⟨_, _, _, rfl, ⟨⟨_, rfl⟩, rfl⟩, ?_, rfl⟩
    exact hL _ (World.view_push _ _) rfl

/-- The pass of a ledger whose current retry is pending sends its message. -/
theorem AtStart.follows_recoverPending (h : AtStart c L plan s w) (hw : w.Up)
    (hrecorded : L.recorded = true) (hlt : L.retryCount < c.maxRetries) {row : TaskExecution}
    (hrow : w.db.execution? c.taskExecutionId = some row)
    (hdescribes : L.DescribesRow c s.attempt row) {retry : Retry} (hretry : L.current = some retry)
    (hpending : retry.dispatched = false) :
  Follows c (L.pass c.maxRetries plan)
    (recoverRetry (c.context row) (c.decision s.attempt row)) (s.keep row) w s.result
  := by
  obtain ⟨hnumber, attempt, hentry, hrun⟩ := h.exec_recovered hw hrecorded hlt hdescribes hretry
  obtain ⟨-, hresult⟩ := Prod.ext_iff.mp hentry
  have hattempt : attempt.dispatchResult ≠ .dispatched := by
    have hresult' : attempt.dispatchResult = .pending := by
      simpa [TaskAttempt.entry, Retry.entry, hpending] using hresult
    rw [hresult']
    decide
  have hid : row.id = c.taskExecutionId := Database.id_of_execution? hrow
  unfold Follows
  rw [hrun, if_neg hattempt]
  simp only [Ledger.pass, hrecorded, if_true, hlt, hretry, Option.any_some, hpending,
    Bool.false_eq_true, if_false]
  rcases hw.commits_or_applied with hfate | hfate
  · rw [← h.fate, hfate, exec_bind_ok (exec_commit hfate)]
    simp only []
    have hsend : AboutToSend c L plan (c.context row) (c.decision s.attempt row) (s.keep row)
        w.committed := by
      constructor
      · exact h.describes.congr h.view rfl
      · rw [← hid, Invocation.identityMap_keep, hid]
        change some row = w.view.execution? c.taskExecutionId
        rw [h.view, hrow]
      · rfl
      · apply h.later
      · apply h.accepts
      · apply hrecorded
      · exact ⟨retry, hretry, hpending, hnumber⟩
      · intro _
        apply hlt
      · rfl
      · rfl
      · rfl
      · rfl
    rw [← Call.attemptNumber_decision hdescribes]
    apply hsend.follows
  · rw [← h.fate, hfate, exec_bind_error (exec_commit_applied hfate)]
    refine ⟨_, _, _, rfl, ⟨⟨_, rfl⟩, rfl⟩, ?_, rfl⟩
    exact h.describes.congr h.view rfl

/-- The pass of a ledger that is not recorded records a retry and sends its message. -/
theorem AtStart.follows_recordRetry (h : AtStart c L plan s w) (hw : w.Up)
    (hrecorded : L.recorded = false) (hlt : L.retryCount < c.maxRetries) {row : TaskExecution}
    (hrow : w.db.execution? c.taskExecutionId = some row)
    (hdescribes : L.DescribesRow c s.attempt row) :
  Follows c (L.pass c.maxRetries plan)
    (recordRetry (c.context row) (c.decision s.attempt row)) (s.keep row) w s.result
  := by
  have hid : row.id = c.taskExecutionId := Database.id_of_execution? hrow
  have hstatus : (c.decision s.attempt row).status = .retrying := by
    rw [Call.status_decision hdescribes hrecorded, if_pos hlt]
  have hallowed := Call.retryAllowed_decision hdescribes
  rw [decide_eq_true hlt] at hallowed
  have hmap : (s.keep row).identityMap (c.context row).taskExecutionId = some row := by
    rw [Call.taskExecutionId_context, ← hid, Invocation.identityMap_keep]
  have hview : (w.push (reconcileEffects w.view c.taskExecutionId)).view.execution?
      (c.context row).taskExecutionId = some row := by
    rw [World.view_push, Call.taskExecutionId_context, execution?_view_reconcileEffects, h.view,
      hrow]
  have hup : (w.push (reconcileEffects w.view c.taskExecutionId)).Up := hw
  have hctx : (c.context row).task = some row := rfl
  have hrecord (w' : World) := hdescribes.describes_record hrecorded hview
    (by
      rw [if_pos hlt, World.view_push, h.view]
      apply h.describes.audits.reconcile h.sound hrecorded)
    h.describes.sent w'
  unfold Follows
  rw [recordRetry, exec_bind_ok (exec_reconcilePending hw _), Call.taskExecutionId_context,
    exec_bind_ok (exec_recordInitialErrorStatus hup hctx hmap hview)]
  simp only [Ledger.pass, hrecorded, Bool.false_eq_true, if_false, hlt, if_true]
  rcases hw.commits_or_applied with hfate | hfate
  · rw [← h.fate, hfate,
      exec_bind_ok (exec_commit ((World.fate_decided (w.push _) _ _ _).trans hfate)),
      ← Call.attemptNumber_decision hdescribes]
    apply AboutToSend.follows
    constructor
    · exact hrecord _ rfl rfl
    · refine Eq.trans ?_ (World.execution?_view_decided hview).symm
      exact Invocation.identityMap_keep_of_id _ _ hid
    · rfl
    · apply h.later
    · apply h.accepts
    · apply Ledger.recorded_record
    · refine ⟨_, Ledger.current_record hlt, rfl, ?_⟩
      change OnErrorAttempt.attemptNumberOr (s.attempt.record _ row) _ = _
      simp only [OnErrorAttempt.attemptNumberOr, OnErrorAttempt.record, hallowed, if_true,
        Call.attemptNumber_decision hdescribes]
    · intro hfailed
      rw [Ledger.record, if_pos hlt] at hfailed
      cases hfailed
    · rfl
    · rfl
    · rfl
    · rfl
  · rw [← h.fate, hfate,
      exec_bind_error (exec_commit_applied ((World.fate_decided (w.push _) _ _ _).trans hfate))]
    refine ⟨_, _, _, rfl, ⟨⟨_, rfl⟩, rfl⟩, ?_, rfl⟩
    exact hrecord _ rfl rfl

/-- The pass of a ledger whose retries are exhausted fails the execution, unless this is
recorded already. -/
theorem AtStart.follows_recordFailure (h : AtStart c L plan s w) (hw : w.Up)
    (hlt : ¬ L.retryCount < c.maxRetries) {row : TaskExecution}
    (hrow : w.db.execution? c.taskExecutionId = some row)
    (hdescribes : L.DescribesRow c s.attempt row) :
  Follows c (L.pass c.maxRetries plan)
    (recordFailure (c.context row) (c.decision s.attempt row)) (s.keep row) w s.result
  := by
  have hid : row.id = c.taskExecutionId := Database.id_of_execution? hrow
  have hnew := Call.retryAlreadyRecorded_decision hdescribes
  unfold Follows
  cases hrecorded : L.recorded with
  | true =>
      rw [hrecorded] at hnew
      simp only [recordFailure, hnew, Bool.not_true, Bool.false_eq_true, if_false, Ledger.pass,
        hrecorded, if_true, hlt]
      rcases hw.commits_or_applied with hfate | hfate
      · rw [← h.fate, hfate, exec_bind_ok (exec_commit hfate)]
        refine ⟨_, _, _, rfl, ⟨⟨_, rfl⟩, rfl⟩, ?_, rfl⟩
        exact h.describes.congr h.view rfl
      · rw [← h.fate, hfate, exec_bind_error (exec_commit_applied hfate)]
        refine ⟨_, _, _, rfl, ⟨⟨_, rfl⟩, rfl⟩, ?_, rfl⟩
        exact h.describes.congr h.view rfl
  | false =>
      have hmap : (s.keep row).identityMap (c.context row).taskExecutionId = some row := by
        rw [Call.taskExecutionId_context, ← hid, Invocation.identityMap_keep]
      have hview : w.view.execution? (c.context row).taskExecutionId = some row := by
        rw [h.view, Call.taskExecutionId_context, hrow]
      have hctx : (c.context row).task = some row := rfl
      have hrecord (w' : World) := hdescribes.describes_record hrecorded hview
        (by
          rw [if_neg hlt, h.view]
          apply h.describes.audits)
        h.describes.sent w'
      rw [hrecorded] at hnew
      simp only [recordFailure, hnew, Bool.not_false, if_true, Ledger.pass, hrecorded,
        Bool.false_eq_true, if_false, hlt]
      rw [exec_bind_ok (exec_recordInitialErrorStatus hw hctx hmap hview)]
      rcases hw.commits_or_applied with hfate | hfate
      · rw [← h.fate, hfate, exec_bind_ok (exec_commit ((World.fate_decided w _ _ _).trans hfate))]
        refine ⟨_, _, _, rfl, ⟨⟨_, rfl⟩, rfl⟩, ?_, rfl⟩
        exact hrecord _ rfl rfl
      · rw [← h.fate, hfate,
          exec_bind_error (exec_commit_applied ((World.fate_decided w _ _ _).trans hfate))]
        refine ⟨_, _, _, rfl, ⟨⟨_, rfl⟩, rfl⟩, ?_, rfl⟩
        exact hrecord _ rfl rfl

/-- The session of a pass does to the tables what the pass does to the ledger. -/
theorem AtStart.follows (h : AtStart c L plan s w) :
  Follows c (L.pass c.maxRetries plan)
    (errorSession c.settings c.message c.exception c.taskExecutionId) s w s.result
  := by
  by_cases hw : w.Up
  · obtain ⟨row, hrow, hdescribes⟩ := h.describes.row
    have hallowed := Call.retryAllowed_decision hdescribes
    have hnew := Call.retryAlreadyRecorded_decision hdescribes
    unfold Follows
    rw [h.exec_errorSession hw hrow hdescribes, recordDecision]
    by_cases hlt : L.retryCount < c.maxRetries
    · rw [decide_eq_true hlt] at hallowed
      rw [hallowed, hnew, if_pos rfl]
      cases hrecorded : L.recorded with
      | true =>
          obtain ⟨retry, hretry⟩ := Option.isSome_iff_exists.mp (h.sound.retry hrecorded hlt)
          cases hdispatched : retry.dispatched with
          | true =>
              apply h.follows_recoverDispatched hw hrecorded hlt hrow hdescribes hretry hdispatched
          | false =>
              apply h.follows_recoverPending hw hrecorded hlt hrow hdescribes hretry hdispatched
      | false => apply h.follows_recordRetry hw hrecorded hlt hrow hdescribes
    · rw [decide_eq_false hlt] at hallowed
      rw [hallowed, if_neg Bool.false_ne_true]
      apply h.follows_recordFailure hw hlt hrow hdescribes
  · obtain ⟨k, hlost⟩ := World.lost_of_not_up hw
    apply h.follows_lost (h.fate.symm.trans hlost)

end Hook

end WorkerTemplate
