import WorkerTemplate.Concurrent.Budget

/-!
# What an error hook counts

The protocol says what a thread that runs an error hook knows of the retry count: what it has
loaded, what it has decided, and how far it is with its retry.  The error hook keeps to it.
-/

namespace WorkerTemplate

/-- Error hooks may be called at any time for messages of the execution `i`. -/
inductive SpawnsOnError (i : UUID) (w : Cluster) : Program Op.Answer PUnit → Cluster → Prop where
  | onError (settings : Settings) (message : TaskiqMessage) (result : TaskiqResult)
      (exception : PyException) (hid : message.extractTaskExecutionId = some i) :
      SpawnsOnError i w ((Hook.onError settings message exception).thread { result }) w

/-- An effect records the decision to retry an execution. -/
def Effect.decides (i : UUID) : Effect → Bool
  | .insertAttempt row => row.taskExecutionId = i && row.statusAfter = .retrying
  | _ => false

/-- Whether an operation committed a decision to retry an execution. -/
def Entry.decides (i : UUID) (e : Entry) : Bool := e.effects.any (Effect.decides i)

/-- The threads that have committed a decision to retry, the last one first. -/
def decisions (i : UUID) (h : List Entry) : List ℕ :=
  (h.filter (Entry.decides i)).map (·.thread)

/-- The number of decisions that were committed when the session of a thread first read the
execution. -/
def readAfter (i : UUID) (t : ℕ) : List Entry → Option ℕ
  | [] => none
  | e :: h =>
      if e.thread = t then
        match e.op with
        | .openSession => none
        | .statement (.selectExecution j _) =>
            if j = i then (readAfter i t h).or (some (decisions i h).length) else readAfter i t h
        | _ => readAfter i t h
      else readAfter i t h

/-- Every decision to retry was made by a session that had read the execution after all the
decisions committed before. -/
def UpToDate (i : UUID) : List Entry → Prop
  | [] => True
  | e :: h =>
      (e.decides i = true → readAfter i e.thread h = some (decisions i h).length) ∧ UpToDate i h

instance UpToDate.decidable (i : UUID) : (h : List Entry) → Decidable (UpToDate i h)
  | [] => isTrue trivial
  | e :: h =>
      have := UpToDate.decidable i h
      inferInstanceAs (Decidable ((e.decides i = true →
        readAfter i e.thread h = some (decisions i h).length) ∧ UpToDate i h))

namespace Increments

variable {i : UUID}

/-- How far the open transaction of a thread is with a decision to retry. -/
inductive Stage where
  | idle
  /-- The retry count has been raised. -/
  | raised
  /-- The decision has been recorded, as pending under a number or as shadowed. -/
  | recorded (pending : Option ℕ)

/-- What a thread does about retrying. -/
structure State where
  /-- The retry count the open session has read. -/
  loaded : Option ℕ := none
  stage : Stage := .idle
  /-- The thread has committed a decision to retry. -/
  decided : Bool := false
  /-- The number of the pending attempt the thread has committed. -/
  pending : Option ℕ := none

/-- What a thread does about retrying after a commit. -/
def State.commit (c : State) : State :=
  match c.stage with
  | .recorded pending => { c with stage := .idle, decided := true, pending }
  | _ => c

/-- What a thread does about retrying after an operation. -/
def State.next (c : State) : (o : Op) → o.Answer → State
  | .openSession, _ => { c with loaded := none, stage := .idle }
  | .closeSession, _ => { c with stage := .idle }
  | .commit, _ => c.commit
  | .statement (.selectExecution _ _), .ok (some row) =>
      { c with loaded := c.loaded.or (some row.retryCount) }
  | .statement (.updateExecution _ changes), _ =>
      if changes.retryCount.isSome then { c with stage := .raised } else c
  | .statement (.insertAttempt row), _ =>
      if row.statusAfter = .retrying then
        { c with
          stage := .recorded
            (if row.dispatchResult = .pending then some row.attemptNumber else none) }
      else c
  | _, _ => c

/-- The protocol of the increments: a session raises the count it has read by one, records this
before it commits, and a thread decides to retry once. -/
def protocol (i : UUID) : Protocol Op.Answer State where
  allows c o :=
    match o with
    | .commit => c.stage ≠ .raised
    | .statement (.selectExecution j tenantId) => j = i ∧ tenantId = none
    | .statement (.updateExecution j changes) =>
        j = i ∧ (changes.retryCount = none ∨ c.decided = false ∧ c.stage = .idle ∧
          ∃ n, c.loaded = some n ∧ changes.retryCount = some (n + 1))
    | .statement (.insertAttempt row) =>
        row.taskExecutionId = i ∧ (row.statusAfter = .retrying → c.stage = .raised)
    | .statement (.updateAttempt _ d) => d = .dispatched
    | _ => True
  moves c o r c' :=
    c' = c.next o r ∧
      match o, r with
      | .statement _, .error _ => False
      | .commit, .error _ => False
      | .statement (.selectExecution j _), .ok row => ∃ row', row = some row' ∧ row'.id = j
      | .statement (.selectAttempt (.pendingOrDispatched j n)), .ok none =>
          j = i → c.pending ≠ some n
      | _, _ => True

/-- The instances of a session are kept under their primary keys. -/
def Keyed (s : Invocation) : Prop := ∀ j task, s.identityMap j = some task → task.id = j

theorem Keyed.keep {s : Invocation} (h : Keyed s) (task : TaskExecution) :
  Keyed (s.keep task)
  := by
  intro j task' htask'
  simp only [Invocation.keep, Function.update_apply] at htask'
  split at htask'
  case isTrue hj =>
    obtain ⟨rfl⟩ := htask'
    apply hj.symm
  case isFalse => apply h j task' htask'

theorem Keyed.clear (s : Invocation) :
  Keyed { s with identityMap := fun _ => none }
  := by
  rintro j task ⟨⟩

/-- Two states that agree about the decision to retry. -/
structure Agrees (c c' : State) : Prop where
  stage : c'.stage = c.stage
  decided : c'.decided = c.decided
  pending : c'.pending = c.pending

end Increments

namespace Hook

open Increments

variable {i : UUID} {s : Invocation} {c : State}

/-- A session that loads the execution finds it, and keeps the instance it has of it. -/
theorem obeys_getTaskExecution_increments (hs : Keyed s) :
  Obeys (Increments.protocol i) (getTaskExecution i none)
    (fun r s' c' => ∃ task, r = .ok (some task) ∧ Keyed s' ∧ task.id = i ∧
      s'.identityMap i = some task ∧ Agrees c c' ∧
      (s.identityMap i = none → c.loaded = none → c'.loaded = some task.retryCount) ∧
      (∀ task', s.identityMap i = some task' → task' = task) ∧
      ∀ n, c.loaded = some n → c'.loaded = some n) s c
  := by
  apply obeys_getTaskExecution
  · exact ⟨rfl, rfl⟩
  · rintro e c' ⟨-, ⟨⟩⟩
  · rintro c' ⟨-, row, ⟨⟩, -⟩
  · rintro row c' ⟨rfl, row', ⟨⟩, rfl⟩
    have hagrees : Agrees c (c.next (.statement (.selectExecution row.id none)) (.ok (some row))) :=
      ⟨rfl, rfl, rfl⟩
    have hloaded : ∀ n, c.loaded = some n →
        (c.next (.statement (.selectExecution row.id none)) (.ok (some row))).loaded = some n := by
      intro n hn
      simp [State.next, hn]
    constructor
    · intro task htask
      refine ⟨task, rfl, hs, hs _ _ htask, htask, hagrees, ?_, ?_, hloaded⟩
      · intro hnone
        cases hnone.symm.trans htask
      · intro task' htask'
        cases htask.symm.trans htask'
        rfl
    · intro hnone
      refine ⟨row, rfl, hs.keep row, rfl, Invocation.identityMap_keep _ _, hagrees, ?_, ?_, hloaded⟩
      · intro _ hc
        simp [State.next, hc]
      · intro task' htask'
        cases hnone.symm.trans htask'

/-- A session updates the status of the execution.  A decision to retry raises the count the
session has read. -/
theorem obeys_updateTaskStatus_increments (hs : Keyed s) {status : TaskStatus}
    (hretry : status = .retrying → c.decided = false ∧ c.stage = .idle ∧
      ∃ task, s.identityMap i = some task ∧ c.loaded = some task.retryCount)
    (fields : StatusUpdate) :
  Obeys (Increments.protocol i) (updateTaskStatus i status fields)
    (fun r s' c' => (∃ a, r = .ok a) ∧ Keyed s' ∧ c'.decided = c.decided ∧
      c'.pending = c.pending ∧
      c'.stage = if status = .retrying then .raised else c.stage) s c
  := by
  apply obeys_updateTaskStatus (obeys_getTaskExecution_increments hs)
  · rintro e s' c' ⟨task, ⟨⟩, -⟩
  · rintro s' c' ⟨task, ⟨⟩, -⟩
  rintro task s' c' ⟨task', ⟨⟩, hs', hid, hmap, hagrees, -, hsame, hloaded⟩
  use trivial
  rintro now _ ⟨rfl, -⟩
  refine ⟨⟨hid, ?_⟩, ?_, ?_⟩
  · rw [TaskExecution.retryCount_changes_assign]
    by_cases hstatus : status = .retrying
    · obtain ⟨hdecided, hstage, task', htask', hcount⟩ := hretry hstatus
      obtain rfl := hsame task' htask'
      right
      refine ⟨hagrees.decided.trans hdecided, hagrees.stage.trans hstage, task'.retryCount, ?_, ?_⟩
      · apply hloaded _ hcount
      · rw [if_pos hstatus]
    · left
      rw [if_neg hstatus]
  · rintro e c₁ ⟨-, ⟨⟩⟩
  · rintro _ ⟨rfl, -⟩
    apply obeys_refresh
    · exact ⟨hid, rfl⟩
    · rintro e c₁ ⟨-, ⟨⟩⟩
    · rintro c₁ ⟨-, row, ⟨⟩, -⟩
    · rintro row c₁ ⟨rfl, -⟩
      refine ⟨⟨_, rfl⟩, hs'.keep row, ?_⟩
      simp only [State.next, TaskExecution.retryCount_changes_assign]
      by_cases hstatus : status = .retrying
      · simp [hstatus, hagrees.decided, hagrees.pending]
      · simp [hstatus, hagrees.decided, hagrees.pending, hagrees.stage]

/-- The stage a recorded decision leads to. -/
def recordedStage (decision : RetryDecision) : Stage :=
  if decision.status = .retrying then
    .recorded (if decision.retryAllowed then some decision.attemptNumber else none)
  else .idle

/-- What a session is ready to decide about: it has loaded the execution, and its thread has
not decided to retry yet. -/
structure Ready (i : UUID) (ctx : ErrorContext) (s : Invocation) (c : State) : Prop where
  keyed : Keyed s
  taskExecutionId : ctx.taskExecutionId = i
  decided : c.decided = false
  stage : c.stage = .idle
  loaded : ∃ task, ctx.task = some task ∧ s.identityMap i = some task ∧
    c.loaded = some task.retryCount

/-- Recording a decision raises the retry count and inserts a row of the audit, or neither. -/
theorem obeys_recordInitialErrorStatus_increments {ctx : ErrorContext} {decision : RetryDecision}
    (h : Ready i ctx s c) (hdecision : decision.Coherent) :
  Obeys (Increments.protocol i) (recordInitialErrorStatus ctx decision)
    (fun r s' c' => (∃ a, r = .ok a) ∧ Keyed s' ∧ c'.decided = false ∧
      c'.stage = recordedStage decision ∧
      (decision.retryAllowed = true → s'.attempt.attemptNumber = some decision.attemptNumber)) s c
  := by
  obtain ⟨task, htask, hmap, hloaded⟩ := h.loaded
  rw [recordInitialErrorStatus, obeys_bind, h.taskExecutionId]
  apply (obeys_updateTaskStatus_increments h.keyed _ _).mono
  · rintro _ s' c' ⟨⟨a, rfl⟩, hs', hdecided, -, hstage⟩
    rw [next_ok, obeys_bind, modifyAttempt, obeys_modify, next_ok]
    simp only [htask]
    rw [h.stage] at hstage
    split
    case isTrue hrefused =>
      rw [Bool.and_eq_true, Bool.not_eq_true'] at hrefused
      rw [recordTaskAttempt, obeys_execute]
      constructor
      · refine ⟨rfl, ?_⟩
        intro hretrying
        rw [hstage, if_pos hretrying]
      · rintro (e | _) _ ⟨rfl, hok⟩
        · cases hok
        · have hresult : (if decision.retryShadowed = true then TaskDispatchResult.shadowed
              else .blocked) ≠ .pending := by
            split
            · simp
            · simp
          by_cases hretrying : decision.status = .retrying
          · refine ⟨⟨_, rfl⟩, hs', ?_, ?_, by simp [hrefused.2]⟩
            · simp [State.next, hretrying, hdecided, h.decided]
            · simp [State.next, recordedStage, hretrying, hrefused.2, hresult]
          · refine ⟨⟨_, rfl⟩, hs', ?_, ?_, by simp [hrefused.2]⟩
            · simp [State.next, hretrying, hdecided, h.decided]
            · simp [State.next, recordedStage, hretrying, hstage]
    case isFalse hrefused =>
      by_cases hallowed : decision.retryAllowed = true
      · have hretrying := hdecision.retrying.mpr (Or.inl hallowed)
        rw [if_pos hallowed, obeys_bind, modifyAttempt, obeys_modify, next_ok, recordTaskAttempt,
          obeys_execute]
        constructor
        · refine ⟨rfl, ?_⟩
          intro _
          rw [hstage, if_pos hretrying]
        · rintro (e | _) _ ⟨rfl, hok⟩
          · cases hok
          · refine ⟨⟨_, rfl⟩, hs', ?_, ?_, fun _ => rfl⟩
            · simp [State.next, hdecided, h.decided]
            · simp [State.next, recordedStage, hretrying, hallowed]
      · rw [if_neg hallowed, obeys_pure]
        -- Without a retry there is no decision to retry.
        have hretrying : decision.status ≠ .retrying := by
          intro hretrying
          rcases hdecision.retrying.mp hretrying with hallowed' | hshadowed
          · apply hallowed hallowed'
          · obtain ⟨hshould, hnot⟩ := hdecision.shadowed hshadowed
            simp [hshould, hnot] at hrefused
        refine ⟨⟨_, rfl⟩, hs', hdecided.trans h.decided, ?_,
          fun hallowed' => absurd hallowed' hallowed⟩
        rw [hstage, recordedStage, if_neg hretrying, if_neg hretrying]
  · intro hretrying
    exact ⟨h.decided, h.stage, task, hmap, hloaded⟩

/-- A thread that has committed a pending attempt finds it. -/
theorem obeys_markTaskAttemptDispatched_increments (n : ℕ) :
  Obeys (Increments.protocol i) (markTaskAttemptDispatched i n)
    (fun r s' c' => s' = s ∧ c' = c ∧
      ∃ marked, r = .ok marked ∧ (c.pending = some n → marked = true)) s c
  := by
  rw [markTaskAttemptDispatched, getLatestPendingOrDispatchedTaskAttempt, obeys_bind, obeys_execute]
  use trivial
  rintro (e | _ | row) c' ⟨rfl, hok⟩
  · cases hok
  · refine ⟨rfl, rfl, false, rfl, ?_⟩
    intro hpending
    exact absurd hpending (hok rfl)
  · rw [next_ok]
    simp only []
    split
    · rw [obeys_bind, obeys_execute]
      use rfl
      rintro (e | _) c'' ⟨rfl, hok'⟩
      · cases hok'
      · exact ⟨rfl, rfl, true, rfl, fun _ => rfl⟩
    · exact ⟨rfl, rfl, true, rfl, fun _ => rfl⟩

/-- A hook whose thread has decided to retry does not raise. -/
abbrev Settles {α : Type} : Post α State := fun r _ c => c.decided = true → ∃ a, r = .ok a

theorem commit_of_idle (h : c.stage = .idle) :
  c.commit = c
  := by
  simp [State.commit, h]

theorem obeys_markDispatched_increments {n : ℕ} (hstage : c.stage = .idle)
    (hpending : c.decided = true → c.pending = some n) (notFound : String) :
  Obeys (Increments.protocol i) (markDispatched i n notFound) Settles s c
  := by
  rw [markDispatched, obeys_bind]
  apply (obeys_markTaskAttemptDispatched_increments n).mono
  rintro _ s' c' ⟨rfl, rfl, marked, rfl, hmarked⟩
  rw [next_ok]
  cases marked with
  | false =>
      intro hdecided
      cases hmarked (hpending hdecided)
  | true =>
      simp only [Bool.not_true, Bool.false_eq_true, if_false]
      rw [obeys_bind, obeys_commit]
      constructor
      · change c'.stage ≠ .raised
        simp [hstage]
      · rintro (e | _) _ ⟨rfl, hok⟩
        · cases hok
        · intro _
          exact ⟨_, rfl⟩

/-- A session whose decision is committed sends the message without raising. -/
theorem obeys_dispatchRetry_increments {ctx : ErrorContext} {decision : RetryDecision}
    (hs : Keyed s) (hid : ctx.taskExecutionId = i) (hstage : c.stage = .idle)
    (hpending : c.decided = true →
      c.pending = some (s.attempt.attemptNumberOr decision.attemptNumber)) :
  Obeys (Increments.protocol i) (dispatchRetry ctx decision) Settles s c
  := by
  rw [dispatchRetry, requeue, obeys_bind, obeys_perform]
  use trivial
  rintro requeued _ ⟨rfl, -⟩
  rw [next_ok]
  split
  · rw [obeys_bind, obeys_get, next_ok, obeys_bind, hid]
    apply (obeys_markDispatched_increments hstage hpending _).mono
    rintro (e | _) s' c' h
    · intro hdecided
      obtain ⟨a, ⟨⟩⟩ := h hdecided
    · exact fun _ => ⟨_, rfl⟩
  · rw [obeys_bind, hid]
    apply (obeys_updateTaskStatus_increments hs (by simp) _).mono
    rintro _ s' c' ⟨⟨a, rfl⟩, -, -, -, hstage'⟩
    have hcommit {c : State} (hstage : c.stage = .idle) (s : Invocation) :
        Obeys (Increments.protocol i) (do
          commit
          pure (TaskStatus.failed, "Task failed (retry dispatch error)")) Settles s c := by
      rw [obeys_bind, obeys_commit]
      constructor
      · change c.stage ≠ .raised
        simp [hstage]
      · rintro (e | _) _ ⟨rfl, hok⟩
        · cases hok
        · exact fun _ => ⟨_, rfl⟩
    have hstage'' : c'.stage = .idle := by
      rw [hstage', if_neg (by simp)]
      apply hstage
    rw [next_ok, obeys_bind, modifyAttempt, obeys_modify, next_ok]
    cases ctx.task with
    | none => apply hcommit hstage''
    | some task =>
        simp only []
        rw [obeys_bind, recordTaskAttempt, obeys_execute]
        constructor
        · exact ⟨rfl, by simp⟩
        · rintro (e | _) _ ⟨rfl, hok⟩
          · cases hok
          · apply hcommit hstage'' _

/-- A pass that finds its own record settles. -/
theorem obeys_recoverRetry_increments {ctx : ErrorContext} {decision : RetryDecision}
    (hs : Keyed s) (hid : ctx.taskExecutionId = i) (hstage : c.stage = .idle)
    (hdecided : c.decided = false) :
  Obeys (Increments.protocol i) (recoverRetry ctx decision) Settles s c
  := by
  rw [recoverRetry, obeys_bind, obeys_get, next_ok, obeys_bind, getTaskAttemptDispatchState,
    getLatestPendingOrDispatchedTaskAttempt, obeys_execute, hid]
  use trivial
  rintro (e | _ | row) c' ⟨rfl, hok⟩
  · cases hok
  · intro hdecided'
    cases hdecided.symm.trans hdecided'
  · rw [next_ok]
    simp only []
    split
    · rw [obeys_bind, recoverDispatchAudit, hid]
      apply (obeys_markDispatched_increments hstage _ _).mono
      · rintro (e | _) s' c' h
        · intro hdecided'
          obtain ⟨a, ⟨⟩⟩ := h hdecided'
        · exact fun _ => ⟨_, rfl⟩
      · intro hdecided'
        cases hdecided.symm.trans hdecided'
    · rw [obeys_bind, obeys_commit]
      constructor
      · change c'.stage ≠ .raised
        simp [hstage]
      · rintro (e | _) _ ⟨rfl, hok'⟩
        · cases hok'
        · rw [next_ok]
          change Obeys _ _ _ _ c'.commit
          rw [commit_of_idle hstage]
          apply obeys_dispatchRetry_increments hs hid hstage
          intro hdecided'
          cases hdecided.symm.trans hdecided'

/-- Reconciling a pending attempt does not decide anything. -/
theorem obeys_reconcilePending_increments :
  Obeys (Increments.protocol i) (reconcilePending i) (fun _ s' c' => s' = s ∧ c' = c) s c
  := by
  rw [reconcilePending, obeys_bind, getLatestPendingTaskAttempt, obeys_execute]
  use trivial
  rintro (e | _ | row) c' ⟨rfl, hok⟩
  · cases hok
  · exact ⟨rfl, rfl⟩
  · rw [next_ok]
    simp only []
    rw [obeys_bind]
    apply (obeys_markTaskAttemptDispatched_increments row.attemptNumber).mono
    rintro _ s' c'' ⟨rfl, rfl, marked, rfl, -⟩
    rw [next_ok]
    split
    · exact ⟨rfl, rfl⟩
    · exact ⟨rfl, rfl⟩

/-- A session commits its decision at most once, and settles after it. -/
theorem obeys_recordDecision_increments {ctx : ErrorContext} {decision : RetryDecision}
    (h : Ready i ctx s c)
    (hdecision : decision.retryAlreadyRecorded = false → decision.Coherent) :
  Obeys (Increments.protocol i) (recordDecision ctx decision) Settles s c
  := by
  -- What is left after a decision has been recorded that sends nothing.
  have hcommit {s : Invocation} {c : State} (hstage : c.stage ≠ .raised) :
      Obeys (Increments.protocol i) (do
        commit
        pure (decision.status, decision.statusMsg)) Settles s c := by
    rw [obeys_bind, obeys_commit]
    use hstage
    rintro (e | _) _ ⟨rfl, hok⟩
    · cases hok
    · exact fun _ => ⟨_, rfl⟩
  have hstage : recordedStage decision ≠ .raised := by
    unfold recordedStage
    split
    · simp
    · simp
  rw [recordDecision]
  cases hnew : decision.retryAlreadyRecorded with
  | true =>
      split
      · rw [if_pos rfl]
        apply obeys_recoverRetry_increments h.keyed h.taskExecutionId h.stage h.decided
      · rw [recordFailure, hnew]
        apply hcommit
        simp [h.stage]
  | false =>
      have hcoherent := hdecision hnew
      split
      case isTrue hallowed =>
        rw [if_neg (by simp), recordRetry, obeys_bind, h.taskExecutionId]
        apply obeys_reconcilePending_increments.mono
        rintro (e | _) s' c' ⟨rfl, rfl⟩
        · intro hdecided
          cases h.decided.symm.trans hdecided
        · rw [next_ok, obeys_bind]
          apply (obeys_recordInitialErrorStatus_increments h hcoherent).mono
          rintro _ s'' c'' ⟨⟨a, rfl⟩, hs'', hdecided, hstage'', hnumber⟩
          rw [next_ok, obeys_bind, obeys_commit]
          constructor
          · change c''.stage ≠ .raised
            rwa [hstage'']
          · rintro (e | _) _ ⟨rfl, hok⟩
            · cases hok
            · have hrecorded : c''.stage = .recorded (some decision.attemptNumber) := by
                rw [hstage'', recordedStage, if_pos (hcoherent.retrying.mpr (Or.inl hallowed)),
                  if_pos hallowed]
              rw [next_ok]
              change Obeys _ _ _ _ c''.commit
              apply obeys_dispatchRetry_increments hs'' h.taskExecutionId
              · simp [State.commit, hrecorded]
              · intro _
                rw [OnErrorAttempt.attemptNumberOr_of_eq (hnumber hallowed)]
                simp [State.commit, hrecorded]
      case isFalse hrefused =>
        rw [recordFailure, hnew]
        simp only [Bool.not_false, if_true]
        rw [obeys_bind]
        apply (obeys_recordInitialErrorStatus_increments h hcoherent).mono
        rintro _ s'' c'' ⟨⟨a, rfl⟩, -, -, hstage'', -⟩
        apply hcommit
        rwa [hstage'']

/-- A pass settles once its thread has decided. -/
theorem obeys_errorPass_increments (hdecided : c.decided = false) (settings : Settings)
    (message : TaskiqMessage) (exception : PyException) :
  Obeys (Increments.protocol i) (errorPass settings message exception i) Settles s c
  := by
  have hsession : Obeys (Increments.protocol i)
      (withSession (errorSession settings message exception i)) Settles s c := by
    apply obeys_withSession trivial
    rintro c' ⟨rfl, -⟩
    rw [errorSession, obeys_bind]
    apply (obeys_getTaskExecution_increments (Keyed.clear s)).mono
    rintro _ s' c' ⟨task, rfl, hs', hid, hmap, hagrees, hloaded, -⟩
    rw [next_ok, obeys_bind, obeys_get, next_ok, obeys_bind]
    have hready : Ready i
        { task := some task, taskExecutionId := i, message,
          errorDetail := s!"{exception.typeName}: {settings.text exception}" } s' c' :=
      ⟨hs', rfl, hagrees.decided.trans hdecided, hagrees.stage, task, rfl, hmap, hloaded rfl rfl⟩
    apply (obeys_recordDecision_increments hready _).mono
    · rintro (e | emitted) s'' c'' hsettles
      · use trivial
        rintro _ ⟨rfl, -⟩ hdecided'
        obtain ⟨a, ⟨⟩⟩ := hsettles hdecided'
      · rw [next_ok]
        split
        · rw [obeys_bind, modifyResult, obeys_modify]
          exact ⟨trivial, fun _ _ _ => ⟨_, rfl⟩⟩
        · exact ⟨trivial, fun _ _ _ => ⟨_, rfl⟩⟩
    · apply settings.coherent_resolveRetryDecision
      rfl
  rw [errorPass, obeys_bind]
  apply hsession.mono
  rintro (e | ⟨status, statusMsg⟩) s' c' hsettles
  · intro hdecided'
    obtain ⟨a, ⟨⟩⟩ := hsettles hdecided'
  · apply (obeys_emitStatusEvent (fun _ _ _ => trivial) ..).mono
    rintro _ _ _ ⟨rfl, -⟩ _
    exact ⟨_, rfl⟩

/-- A call of `on_error` obeys the protocol of the increments. -/
theorem obeys_onError_increments (settings : Settings) {message : TaskiqMessage}
    (exception : PyException) (hid : message.extractTaskExecutionId = some i)
    (hdecided : c.decided = false) :
  Obeys (Increments.protocol i) (onError settings message exception) (fun _ _ _ => True) s c
  := by
  rw [onError, hid]
  simp only []
  rw [obeys_bind, modifyAttempt, obeys_modify, next_ok]
  have hcall : Obeys (Increments.protocol i) (recordErrorStatus settings message exception i)
      Settles { s with attempt := {} } c := by
    apply obeys_createDbRetry (fun _ c => c.decided = false) _ _ _ hdecided
    · intro s c hc
      apply obeys_errorPass_increments hc
    · intro e s c hsettles
      by_contra hc
      obtain ⟨a, ⟨⟩⟩ := hsettles (by simpa using hc)
  apply hcall.mono
  intro _ _ _ _
  trivial

end Hook

end WorkerTemplate
