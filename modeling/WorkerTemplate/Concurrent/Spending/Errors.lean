import WorkerTemplate.Concurrent.Spending.Protocol

/-!
# What an error hook spends

The session of an error hook that increments the retry count of an execution records an attempt in
the same transaction.
-/

namespace WorkerTemplate

namespace Hook

open Spending

variable {α : Type} {i j : UUID} {n : ℕ} {s : Invocation} {c : Knowledge}

theorem frugal_markTaskAttemptDispatched (k : UUID) (number : ℕ) :
  Frugal i (markTaskAttemptDispatched k number)
  := by
  apply maintains_markTaskAttemptDispatched
  · apply frugal_perform (unspent_nil i)
  · intro id
    apply frugal_perform
    rintro changes hchanges
    cases List.mem_singleton.mp hchanges

theorem frugal_markDispatched (k : UUID) (number : ℕ) (notFound : String) :
  Frugal i (markDispatched k number notFound)
  := by
  have hend : Frugal i (do
      commit
      modifyResult fun result => { result with error := some .noResultError }) := by
    apply frugal_commit.bind
    intro _
    apply frugal_modify
  apply (frugal_markTaskAttemptDispatched k number).bind
  intro marked
  apply Maintains.ite
  · apply (maintains_throw _).bind
    intro _
    apply hend
  · apply hend

/-- Sending a message, and giving an execution up when it is rejected, spends no retry. -/
theorem frugal_dispatchRetry (ctx : ErrorContext) (decision : RetryDecision) :
  Frugal i (dispatchRetry ctx decision)
  := by
  have hend : Frugal i (do
      commit
      pure (TaskStatus.failed, "Task failed (retry dispatch error)")) := by
    apply frugal_commit.bind
    intro _
    apply maintains_pure
  apply (frugal_perform (unspent_nil i)).bind
  intro requeued
  apply Maintains.ite
  · apply maintains_get.bind
    intro s
    apply (frugal_markDispatched _ _ _).bind
    intro _
    apply maintains_pure
  · apply (frugal_updateTaskStatus _ (by simp) _).bind
    intro _
    apply (frugal_modify _).bind
    intro _
    cases ctx.task with
    | none => apply hend
    | some task =>
        apply Maintains.bind
        · apply frugal_execute
          rintro changes hchanges
          cases List.mem_singleton.mp hchanges
        · intro _
          apply hend

theorem frugal_recoverRetry (ctx : ErrorContext) (decision : RetryDecision) :
  Frugal i (recoverRetry ctx decision)
  := by
  apply maintains_get.bind
  intro s
  apply (frugal_execute (unspent_nil i)).bind
  rintro (_ | attempt)
  · apply maintains_throw
  · apply Maintains.ite
    · apply (frugal_markDispatched _ _ _).bind
      intro _
      apply maintains_pure
    · apply frugal_commit.bind
      intro _
      apply frugal_dispatchRetry

/-- The instance that a session has of an execution has a retry count that was read. -/
def Counted (i j : UUID) (s : Invocation) (c : Knowledge) : Prop :=
  ∀ task, s.identityMap j = some task → task.id = j ∧ (j = i → task.retryCount ≤ c.seen)

/-- Loading an execution in a transaction that has spent no retry reads its retry count. -/
theorem obeys_getTaskExecution_spending (hs : Counted i j s c) (hown : Unspent i c.own) :
  Obeys (Spending.protocol i) (getTaskExecution j none)
    (fun r s' c' => Counted i j s' c' ∧ Unspent i c'.own ∧
      ∀ task, r = .ok (some task) → s'.identityMap j = some task) s c
  := by
  apply obeys_getTaskExecution trivial
  · rintro e _ rfl
    exact ⟨hs, unspent_nil i, by rintro task ⟨⟩⟩
  · rintro _ rfl
    exact ⟨hs, hown.append (unspent_nil i), by rintro task ⟨⟩⟩
  · rintro row c' ⟨rfl, hown', hseen, hcount⟩
    rw [← hown'] at hown
    have hs' : Counted i row.id s c' := by
      intro task htask
      obtain ⟨hid, hle⟩ := hs task htask
      exact ⟨hid, fun hi => (hle hi).trans hseen⟩
    constructor
    · intro task htask
      refine ⟨hs', hown, ?_⟩
      rintro _ ⟨⟩
      apply htask
    · intro _
      refine ⟨?_, hown, ?_⟩
      · intro task htask
        rw [Invocation.identityMap_keep] at htask
        cases htask
        exact ⟨rfl, fun hi => hcount hi (hown' ▸ hown)⟩
      · rintro _ ⟨⟩
        apply Invocation.identityMap_keep

/-- A status may be updated in a transaction that has spent no retry, and the update spends one
only for a retry of the execution. -/
theorem obeys_updateTaskStatus_spending (hs : Counted i j s c) (hown : Unspent i c.own)
    (status : TaskStatus) (fields : StatusUpdate) :
  Obeys (Spending.protocol i) (updateTaskStatus j status fields)
    (fun _ _ c' => (j = i → status ≠ .retrying) → Unspent i c'.own) s c
  := by
  apply obeys_updateTaskStatus (obeys_getTaskExecution_spending hs hown)
  · rintro e s' c' ⟨-, hown', -⟩ _
    apply hown'
  · rintro s' c' ⟨-, hown', -⟩ _
    apply hown'
  · rintro task s' c' ⟨hs', hown', htask⟩
    obtain ⟨rfl, hle⟩ := hs' task (htask task rfl)
    use trivial
    rintro now c₁ rfl
    refine ⟨?_, ?_, ?_⟩
    · rintro rfl n hn
      rw [TaskExecution.retryCount_changes_assign] at hn
      split at hn
      case isTrue =>
        cases hn
        apply Nat.succ_le_succ (hle rfl)
      case isFalse => cases hn
    · rintro e _ rfl _
      apply unspent_nil
    · rintro _ rfl
      have hkept (hstatus : task.id = i → status ≠ .retrying) :
          Unspent i (c₁.own ++ Statement.effects (.updateExecution task.id
            (task.changes (task.assign status fields now)))) := by
        apply hown'.append
        intro changes hchanges
        cases List.mem_singleton.mp hchanges
        rw [TaskExecution.retryCount_changes_assign, if_neg (hstatus rfl)]
      apply obeys_refresh trivial
      · rintro e _ rfl _
        apply unspent_nil
      · rintro _ rfl hstatus
        apply (hkept hstatus).append (unspent_nil i)
      · rintro row c₂ ⟨-, hown₂, -, -⟩ hstatus
        rw [hown₂]
        apply hkept hstatus

section Decision

variable {settings : Settings} {ctx : ErrorContext} {attempt : OnErrorAttempt}

/-- A retry that the first write of an error hook spends is recorded by the same write. -/
theorem obeys_recordInitialErrorStatus_spending (hs : Counted i ctx.taskExecutionId s c)
    (hown : Unspent i c.own)
    (hnew : (settings.resolveRetryDecision ctx attempt).retryAlreadyRecorded = false) :
  Obeys (Spending.protocol i)
    (recordInitialErrorStatus ctx (settings.resolveRetryDecision ctx attempt))
    (fun r _ c' => r = .ok () → Balanced i c'.own) s c
  := by
  rw [recordInitialErrorStatus, obeys_bind]
  apply (obeys_updateTaskStatus_spending hs hown _ _).mono
  rintro (e | _) s' c' hkept
  · rintro ⟨⟩
  · rw [next_ok, obeys_bind, modifyAttempt, obeys_modify, next_ok]
    -- A row that is inserted when the status is retrying records the retry.
    have hinserts {row : TaskAttempt} (hrow : row.taskExecutionId = ctx.taskExecutionId)
        (hstatus : (settings.resolveRetryDecision ctx attempt).status = .retrying →
          row.statusAfter = .retrying) :
        Balanced i (c'.own ++ [.insertAttempt row]) := by
      by_cases hretry : ctx.taskExecutionId = i ∧
          (settings.resolveRetryDecision ctx attempt).status = .retrying
      · right
        use row, List.mem_append_right _ (List.mem_singleton_self _)
        rw [TaskAttempt.retries, hrow, hretry.1, hstatus hretry.2]
        simp
      · left
        apply Unspent.append
        · apply hkept
          intro hi hstatus
          apply hretry ⟨hi, hstatus⟩
        · rintro changes hchanges
          cases List.mem_singleton.mp hchanges
    have hfailed (hstatus : (settings.resolveRetryDecision ctx attempt).status ≠ .retrying) :
        Balanced i c'.own := Or.inl (hkept (fun _ => hstatus))
    cases htask : ctx.task with
    | none =>
        intro _
        apply hfailed
        intro hstatus
        obtain ⟨row, hrow, -⟩ := settings.lt_of_status_resolveRetryDecision attempt hnew hstatus
        rw [htask] at hrow
        cases hrow
    | some task =>
        have hcoherent := settings.coherent_resolveRetryDecision attempt htask hnew
        simp only []
        split
        case isTrue =>
          rw [recordTaskAttempt, obeys_execute]
          use trivial
          rintro (e | _) _ rfl
          · rintro ⟨⟩
          · intro _
            apply hinserts rfl
            intro hstatus
            apply hstatus
        case isFalse hrefused =>
          split
          case isTrue =>
            rw [obeys_bind, modifyAttempt, obeys_modify, next_ok, recordTaskAttempt, obeys_execute]
            use trivial
            rintro (e | _) _ rfl
            · rintro ⟨⟩
            · intro _
              apply hinserts rfl
              intro _
              rfl
          case isFalse hallowed =>
            intro _
            apply hfailed
            intro hstatus
            rcases hcoherent.retrying.mp hstatus with h | hshadowed
            · apply hallowed h
            · obtain ⟨hretry, hnot⟩ := hcoherent.shadowed hshadowed
              apply hrefused
              simp [hretry, hnot]

/-- A pass spends a retry only together with its attempt. -/
theorem obeys_recordDecision_spending (hs : Counted i ctx.taskExecutionId s c)
    (hown : Unspent i c.own) :
  Obeys (Spending.protocol i)
    (recordDecision ctx (settings.resolveRetryDecision ctx attempt)) (fun _ _ _ => True) s c
  := by
  have hfrugal {β : Type} {h : Hook β} (hh : Frugal i h) {s : Invocation} {c : Knowledge}
      (hc : Unspent i c.own) : Obeys (Spending.protocol i) h (fun _ _ _ => True) s c := by
    apply (hh s c ⟨Nat.zero_le _, hc⟩).mono
    intro _ _ _ _
    trivial
  rw [recordDecision]
  split
  case isTrue =>
    split
    case isTrue => apply hfrugal (frugal_recoverRetry _ _) hown
    case isFalse hnew =>
      -- Reconciling leaves the instances of the session and what it has read alone.
      have hreconcile : Maintains (Spending.protocol i)
          (fun s' c' => s' = s ∧ Sparing i c.seen c')
          (reconcilePending ctx.taskExecutionId) := by
        have hmark (number : ℕ) : Maintains (Spending.protocol i)
            (fun s' c' => s' = s ∧ Sparing i c.seen c')
            (markTaskAttemptDispatched ctx.taskExecutionId number) := by
          apply maintains_markTaskAttemptDispatched
          · apply maintains_perform_spending (unspent_nil i)
          · intro id
            apply maintains_perform_spending
            rintro changes hchanges
            cases List.mem_singleton.mp hchanges
        apply (maintains_execute (maintains_perform_spending (unspent_nil i) _)).bind
        rintro (_ | row)
        · apply maintains_pure
        · apply (hmark _).bind
          intro marked
          apply Maintains.ite
          · apply maintains_throw
          · apply maintains_pure
      rw [recordRetry, obeys_bind]
      apply (hreconcile s c ⟨rfl, le_rfl, hown⟩).mono
      rintro (e | _) s' c' ⟨rfl, hseen, hown'⟩
      · trivial
      · have hs' : Counted i ctx.taskExecutionId s' c' := by
          intro task htask
          obtain ⟨hid, hle⟩ := hs task htask
          exact ⟨hid, fun hi => (hle hi).trans hseen⟩
        rw [next_ok, obeys_bind]
        apply (obeys_recordInitialErrorStatus_spending hs' hown'
          (Bool.not_eq_true _ ▸ hnew)).mono
        rintro (e | _) s'' c'' hbalanced
        · trivial
        · rw [next_ok, obeys_bind, obeys_commit]
          use hbalanced rfl
          rintro (e | _) _ rfl
          · trivial
          · apply hfrugal (frugal_dispatchRetry _ _) (unspent_nil i)
  case isFalse =>
    rw [recordFailure]
    split
    case isTrue hnew =>
      rw [Bool.not_eq_true'] at hnew
      rw [obeys_bind]
      apply (obeys_recordInitialErrorStatus_spending hs hown hnew).mono
      rintro (e | _) s' c' hbalanced
      · trivial
      · rw [next_ok, obeys_bind, obeys_commit]
        use hbalanced rfl
        rintro (e | _) _ rfl
        · trivial
        · trivial
    case isFalse =>
      rw [obeys_bind, obeys_commit]
      use Or.inl hown
      rintro (e | _) _ rfl
      · trivial
      · trivial

end Decision

/-- A pass spends a retry only together with its attempt, in a session that was just opened. -/
theorem obeys_errorSession_spending (settings : Settings) (message : TaskiqMessage)
    (exception : PyException) (j : UUID) (hmap : s.identityMap = fun _ => none)
    (hown : Unspent i c.own) :
  Obeys (Spending.protocol i) (errorSession settings message exception j) (fun _ _ _ => True) s c
  := by
  have hs : Counted i j s c := by
    intro task htask
    rw [hmap] at htask
    cases htask
  rw [errorSession, obeys_bind]
  apply (obeys_getTaskExecution_spending hs hown).mono
  rintro (e | task) s' c' ⟨hs', hown', -⟩
  · trivial
  · rw [next_ok, obeys_bind, obeys_get, next_ok, obeys_bind]
    apply (obeys_recordDecision_spending hs' hown').mono
    rintro (e | emitted) s'' c'' _
    · trivial
    · rw [next_ok]
      split
      · trivial
      · trivial

theorem frugal_onError (settings : Settings) (message : TaskiqMessage) (exception : PyException) :
  Frugal i (onError settings message exception)
  := by
  have hsession (j : UUID) :
      Frugal i (withSession (errorSession settings message exception j)) := by
    rintro s c -
    apply obeys_withSession trivial
    rintro _ rfl
    apply (obeys_errorSession_spending settings message exception j rfl (unspent_nil i)).mono
    intro r s' c' _
    use trivial
    rintro _ rfl
    exact ⟨Nat.zero_le _, unspent_nil i⟩
  rw [onError]
  split
  · apply maintains_pure
  · apply (frugal_modify _).bind
    intro _
    apply Maintains.createDbRetry
    apply (hsession _).bind
    rintro ⟨status, statusMsg⟩
    apply frugal_emitStatusEvent

/-- All the work spends retries only together with their attempts, when no instance sets the status
of a retry itself. -/
theorem works_spending (i : UUID) :
  Works (Spending.protocol i) (fun c => Sparing i 0 c) (· ≠ .retrying)
  where
  preExecute := frugal_preExecute
  postExecute := frugal_postExecute
  onError := frugal_onError
  body _ := frugal_perform (unspent_nil i)
  setStatus k _ fields hstatus := frugal_setStatus k hstatus fields

end Hook

end WorkerTemplate
