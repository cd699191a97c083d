import WorkerTemplate.Concurrent.Work

/-!
# The rows that the hooks lock

A transaction locks the rows that it updates until it ends.  The hooks update rows of the audit
before they update executions, and at most one row of either table in a transaction.
-/

namespace WorkerTemplate

/-- The order in which a transaction locks rows: those of the audit before executions. -/
def RowKey.rank : RowKey → Fin 2
  | .attempt _ => 0
  | .execution _ => 1

namespace Locks

/-- A transaction that has locked some rows may lock a row: it has locked it before, or it has
locked rows before it in the order only. -/
def Ascending (held : List RowKey) (row : RowKey) : Prop :=
  row ∈ held ∨ ∀ key ∈ held, key.rank < row.rank

/-- The protocol of the locks, with the rows that the open transaction has locked. -/
def protocol : Protocol Op.Answer (List RowKey) where
  allows held o :=
    match o with
    | .statement s => ∀ row ∈ s.locks, Ascending held row
    | _ => True
  moves held o r held' :=
    match o, r with
    | .statement s, .ok _ => held' = held ++ s.locks.toList
    | .statement _, .error _ => held' = []
    | .commit, _ => held' = []
    | .openSession, _ => held' = []
    | .closeSession, _ => held' = []
    | _, _ => held' = held

/-- A transaction that has not locked an execution. -/
def Early (held : List RowKey) : Prop := ∀ key ∈ held, key.rank = 0

theorem early_nil : Early [] := by rintro key ⟨⟩

/-- A transaction that has not locked an execution may lock one. -/
theorem Early.ascending {held : List RowKey} (h : Early held) (i : UUID) :
  Ascending held (.execution i)
  := by
  right
  intro key hkey
  rw [h key hkey]
  apply Fin.zero_lt_one

end Locks

namespace Hook

open Locks

variable {α : Type} {s : Invocation} {held : List RowKey}

/-- A part of a hook that locks nothing more, whatever its transaction has locked. -/
abbrev Unlocking (h : Hook α) : Prop := Maintains Locks.protocol (fun _ _ => True) h

theorem unlocking_perform {o : Op} (h : ∀ held, Locks.protocol.allows held o) :
  Unlocking (perform o)
  := by
  apply maintains_perform
  · intro _ held _
    apply h
  · intro _ _ _ _ _ _
    trivial

theorem unlocking_execute {st : Statement} (h : st.locks = none) :
  Unlocking (execute st)
  := by
  apply maintains_execute
  apply unlocking_perform
  intro held row hrow
  rw [h] at hrow
  cases hrow

theorem unlocking_modify (f : Invocation → Invocation) :
  Unlocking (modify f)
  := maintains_modify (fun _ _ _ => trivial)

theorem unlocking_commit :
  Unlocking commit
  := maintains_commit (unlocking_perform (fun _ => trivial))

/-- Loading an execution locks nothing. -/
theorem obeys_getTaskExecution_locks (i : UUID) (hheld : Early held) :
  Obeys Locks.protocol (getTaskExecution i none) (fun _ _ held' => Early held') s held
  := by
  apply obeys_getTaskExecution (by rintro row ⟨⟩)
  · rintro e _ rfl
    apply early_nil
  · rintro _ rfl
    simpa [Statement.locks] using hheld
  · rintro row _ rfl
    simp only [Statement.locks, Option.toList_none, List.append_nil]
    exact ⟨fun _ _ => hheld, fun _ => hheld⟩

/-- A status is updated by a transaction that has locked rows of the audit only. -/
theorem obeys_updateTaskStatus_locks (i : UUID) (status : TaskStatus) (fields : StatusUpdate)
    (hheld : Early held) :
  Obeys Locks.protocol (updateTaskStatus i status fields) (fun _ _ _ => True) s held
  := by
  apply obeys_updateTaskStatus (obeys_getTaskExecution_locks i hheld)
  · intro _ _ _ _
    trivial
  · intro _ _ _
    trivial
  · rintro task s' held' hheld'
    use trivial
    rintro now _ rfl
    refine ⟨?_, fun _ _ _ => trivial, ?_⟩
    · intro row hrow
      rw [Statement.eq_of_locks_updateExecution hrow]
      apply hheld'.ascending
    · intro held₂ _
      apply obeys_refresh (by rintro row ⟨⟩)
      · intro _ _ _
        trivial
      · intro _ _
        trivial
      · intro _ _ _
        trivial

/-- An attempt is marked by a transaction that has locked nothing, and then it is the only row
the transaction has locked. -/
theorem obeys_markTaskAttemptDispatched_locks (i : UUID) (n : ℕ) :
  Obeys Locks.protocol (markTaskAttemptDispatched i n) (fun _ _ held' => Early held') s []
  := by
  rw [markTaskAttemptDispatched, getLatestPendingOrDispatchedTaskAttempt, obeys_bind, obeys_execute]
  use by rintro row ⟨⟩
  rintro (e | _ | row) _ rfl
  · apply early_nil
  · apply early_nil
  · rw [next_ok]
    simp only []
    split
    · rw [obeys_bind, obeys_execute]
      constructor
      · rintro key ⟨⟩
        right
        rintro key ⟨⟩
      · rintro (e | _) _ rfl
        · apply early_nil
        · rintro key hkey
          obtain rfl := List.mem_singleton.mp hkey
          rfl
    · apply early_nil

/-! ### After an error -/

theorem obeys_markDispatched_locks (i : UUID) (n : ℕ) (notFound : String) :
  Obeys Locks.protocol (markDispatched i n notFound) (fun _ _ _ => True) s []
  := by
  have hend : Unlocking (do
      commit
      modifyResult fun result => { result with error := some .noResultError }) := by
    apply unlocking_commit.bind
    intro _
    apply unlocking_modify
  apply Obeys.bind_maintains
  · apply (obeys_markTaskAttemptDispatched_locks i n).mono
    intro _ _ _ _
    trivial
  · intro marked
    apply Maintains.ite
    · apply (maintains_throw _).bind
      intro _
      apply hend
    · apply hend

/-- A pending attempt is marked by a transaction that has locked nothing. -/
theorem obeys_reconcilePending_locks (i : UUID) :
  Obeys Locks.protocol (reconcilePending i) (fun _ _ held' => Early held') s []
  := by
  rw [reconcilePending, obeys_bind, getLatestPendingTaskAttempt, obeys_execute]
  use by rintro row ⟨⟩
  rintro (e | _ | row) _ rfl
  · apply early_nil
  · apply early_nil
  · rw [next_ok]
    simp only [Statement.locks, Option.toList_none, List.append_nil]
    rw [obeys_bind]
    apply (obeys_markTaskAttemptDispatched_locks i row.attemptNumber).mono
    rintro (e | marked) s' held' hheld'
    · apply hheld'
    · rw [next_ok]
      split
      · apply hheld'
      · apply hheld'

/-- The first write of an error hook locks the execution, after rows of the audit only. -/
theorem obeys_recordInitialErrorStatus_locks (ctx : ErrorContext) (decision : RetryDecision)
    (hheld : Early held) :
  Obeys Locks.protocol (recordInitialErrorStatus ctx decision) (fun _ _ _ => True) s held
  := by
  have hrecord (row : TaskAttempt) : Unlocking (execute (.insertAttempt row)) :=
    unlocking_execute rfl
  apply (obeys_updateTaskStatus_locks _ _ _ hheld).bind_maintains
  intro _
  apply (unlocking_modify _).bind
  intro _
  cases ctx.task with
  | none => apply maintains_pure
  | some task =>
      apply Maintains.ite
      · apply hrecord
      · apply Maintains.ite
        · apply (unlocking_modify _).bind
          intro _
          apply hrecord
        · apply maintains_pure

theorem obeys_dispatchRetry_locks (ctx : ErrorContext) (decision : RetryDecision) :
  Obeys Locks.protocol (dispatchRetry ctx decision) (fun _ _ _ => True) s []
  := by
  rw [dispatchRetry, requeue, obeys_bind, obeys_perform]
  use trivial
  rintro requeued _ rfl
  rw [next_ok]
  split
  · rw [obeys_bind, obeys_get, next_ok]
    apply (obeys_markDispatched_locks _ _ _).bind_maintains
    intro _
    apply maintains_pure
  · have hend : Unlocking (do
        commit
        pure (TaskStatus.failed, "Task failed (retry dispatch error)")) := by
      apply unlocking_commit.bind
      intro _
      apply maintains_pure
    apply (obeys_updateTaskStatus_locks _ _ _ early_nil).bind_maintains
    intro _
    apply (unlocking_modify _).bind
    intro _
    cases ctx.task with
    | none => apply hend
    | some task =>
        apply Maintains.bind (unlocking_execute rfl)
        intro _
        apply hend

theorem obeys_recoverRetry_locks (ctx : ErrorContext) (decision : RetryDecision) :
  Obeys Locks.protocol (recoverRetry ctx decision) (fun _ _ _ => True) s []
  := by
  rw [recoverRetry, obeys_bind, obeys_get, next_ok, obeys_bind, getTaskAttemptDispatchState,
    getLatestPendingOrDispatchedTaskAttempt, obeys_execute]
  use by rintro row ⟨⟩
  rintro (e | _ | row) _ rfl
  · trivial
  · trivial
  · rw [next_ok]
    simp only [Statement.locks, Option.toList_none, List.append_nil]
    split
    · apply (obeys_markDispatched_locks _ _ _).bind_maintains
      intro _
      apply maintains_pure
    · rw [obeys_bind, obeys_commit]
      use trivial
      rintro (e | _) _ rfl
      · trivial
      · apply obeys_dispatchRetry_locks

theorem obeys_recordDecision_locks (ctx : ErrorContext) (decision : RetryDecision) :
  Obeys Locks.protocol (recordDecision ctx decision) (fun _ _ _ => True) s []
  := by
  rw [recordDecision]
  split
  · split
    · apply obeys_recoverRetry_locks
    · rw [recordRetry, obeys_bind]
      apply (obeys_reconcilePending_locks _).mono
      rintro (e | _) s' held' hheld'
      · trivial
      · rw [next_ok, obeys_bind]
        apply (obeys_recordInitialErrorStatus_locks ctx decision hheld').mono
        rintro (e | _) s'' held'' -
        · trivial
        · rw [next_ok, obeys_bind, obeys_commit]
          use trivial
          rintro (e | _) _ rfl
          · trivial
          · apply obeys_dispatchRetry_locks
  · have hend : Unlocking (do
        commit
        pure (decision.status, decision.statusMsg)) := by
      apply unlocking_commit.bind
      intro _
      apply maintains_pure
    rw [recordFailure]
    split
    · apply (obeys_recordInitialErrorStatus_locks ctx decision early_nil).bind_maintains
      intro _
      apply hend
    · apply hend s [] trivial

/-- A pass of an error hook begins with a transaction that has locked nothing. -/
theorem obeys_errorSession_locks (settings : Settings) (message : TaskiqMessage)
    (exception : PyException) (i : UUID) :
  Obeys Locks.protocol (errorSession settings message exception i) (fun _ _ _ => True) s []
  := by
  have hload : Obeys Locks.protocol (getTaskExecution i none) (fun _ _ held => held = []) s [] := by
    apply obeys_getTaskExecution (by rintro row ⟨⟩)
    · rintro e _ rfl
      rfl
    · rintro _ rfl
      rfl
    · rintro row _ rfl
      exact ⟨fun _ _ => rfl, fun _ => rfl⟩
  rw [errorSession, obeys_bind]
  apply hload.mono
  rintro (e | task) s' _ rfl
  · trivial
  · rw [next_ok, obeys_bind, obeys_get, next_ok]
    apply (obeys_recordDecision_locks _ _).bind_maintains
    intro emitted
    apply Maintains.ite
    · apply (unlocking_modify _).bind
      intro _
      apply maintains_pure
    · apply maintains_pure

/-! ### The hooks -/

/-- A hook that is not in a transaction when it begins and when it ends. -/
abbrev Idle (h : Hook α) : Prop := Maintains Locks.protocol (fun _ held => held = []) h

/-- A session locks nothing before it is opened and after it is closed. -/
theorem idle_withSession {body : Hook α}
    (hbody : ∀ s, Obeys Locks.protocol body (fun _ _ _ => True) s []) :
  Idle (withSession body)
  := by
  intro s held _
  apply obeys_withSession trivial
  rintro _ rfl
  apply (hbody _).mono
  intro _ _ _ _
  exact ⟨trivial, fun _ h => h⟩

theorem idle_emitStatusEvent (settings : Settings) (message : TaskiqMessage)
    (status : TaskStatus) (statusMessage errorDetail : Option String) :
  Idle (emitStatusEvent settings message status statusMessage errorDetail)
  := by
  apply maintains_emitStatusEvent
  intro room event
  apply maintains_perform
  · intro _ _ _
    trivial
  · rintro _ _ _ _ rfl rfl
    rfl

theorem idle_modify (f : Invocation → Invocation) :
  Idle (modify f)
  := maintains_modify (fun _ _ h => h)

theorem idle_setStatus (i : UUID) (status : TaskStatus) (fields : StatusUpdate) :
  Idle (setStatus i status fields)
  := by
  apply idle_withSession
  intro s
  apply (obeys_updateTaskStatus_locks i status fields early_nil).bind_maintains
  intro _
  apply unlocking_commit

theorem idle_preExecute (settings : Settings) (message : TaskiqMessage) :
  Idle (preExecute settings message)
  := by
  rw [preExecute]
  apply Maintains.createDbRetry
  split
  · apply maintains_pure
  · apply (idle_setStatus _ _ _).bind
    intro _
    apply idle_emitStatusEvent

theorem idle_postExecute (settings : Settings) (message : TaskiqMessage) :
  Idle (postExecute settings message)
  := by
  rw [postExecute]
  apply Maintains.createDbRetry
  split
  · apply maintains_pure
  · apply maintains_get.bind
    intro s
    apply Maintains.ite
    · apply maintains_pure
    · apply Maintains.ite
      · apply maintains_pure
      · apply Maintains.ite
        · apply (idle_setStatus _ _ _).bind
          intro _
          apply idle_emitStatusEvent
        · apply (idle_setStatus _ _ _).bind
          intro _
          apply idle_emitStatusEvent

theorem idle_onError (settings : Settings) (message : TaskiqMessage) (exception : PyException) :
  Idle (onError settings message exception)
  := by
  rw [onError]
  split
  · apply maintains_pure
  · apply (idle_modify _).bind
    intro _
    apply Maintains.createDbRetry
    apply (idle_withSession (fun _ => obeys_errorSession_locks ..)).bind
    rintro ⟨status, statusMsg⟩
    apply idle_emitStatusEvent

/-- All the work is idle at its ends. -/
theorem works_locks (sets : TaskStatus → Prop) :
  Works Locks.protocol (fun held => held = []) sets
  where
  preExecute := idle_preExecute
  postExecute := idle_postExecute
  onError := idle_onError
  body := by
    intro message
    apply maintains_perform
    · intro _ _ _
      trivial
    · rintro _ _ _ _ rfl rfl
      rfl
  setStatus i status fields _ := idle_setStatus i status fields

end Hook

end WorkerTemplate
