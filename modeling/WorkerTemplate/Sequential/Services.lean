import WorkerTemplate.Sequential.World
import WorkerTemplate.Services

/-!
# The services in a transaction

What the services do in a transaction that is going to be committed, and in one that is
going to be lost.  In the first they read the view of the transaction and add their
effects to it.  In the second they may raise at any statement, and change nothing but the
identity map of the session.
-/

namespace WorkerTemplate

namespace World

/-- The open transaction runs through all its statements. -/
def Up (w : World) : Prop := w.fate.tick = some w.fate

variable {w : World}

theorem up_of_commits (h : w.fate = .commits) : w.Up := by
  rw [Up, h]
  rfl

theorem up_of_applied (h : w.fate = .applied) : w.Up := by
  rw [Up, h]
  rfl

/-- A transaction that is not up is lost. -/
theorem lost_of_not_up (h : ¬ w.Up) : ∃ k, w.fate = .lost k := by
  cases hfate : w.fate with
  | commits => exact absurd (up_of_commits hfate) h
  | applied => exact absurd (up_of_applied hfate) h
  | lost k => exact ⟨k, rfl⟩

/-- A transaction that runs through is going to be committed. -/
theorem Up.commits_or_applied (h : w.Up) :
  w.fate = .commits ∨ w.fate = .applied
  := by
  rw [Up] at h
  cases hfate : w.fate with
  | commits => exact Or.inl rfl
  | applied => exact Or.inr rfl
  | lost k =>
      rw [hfate] at h
      cases k with
      | zero => cases h
      | succ k =>
          simp only [Fate.tick, Option.some.injEq, Fate.lost.injEq] at h
          omega

@[simp]
theorem view_push (w : World) (es : List Effect) :
  (w.push es).view = w.view.view es
  := Database.view_append w.db w.own es

@[simp]
theorem push_nil (w : World) : w.push [] = w := by simp [push]

/-- The world after one reading of the clock. -/
def tick (w : World) : World := { w with clock := w.clock + 1 }

@[simp]
theorem view_tick (w : World) : w.tick.view = w.view := rfl

/-- The world after an execution has been updated. -/
def updated (w : World) (task : TaskExecution) (status : TaskStatus) (fields : StatusUpdate) :
    World :=
  w.tick.push [.updateExecution task.id (task.changes (task.assign status fields w.clock))]

end World

namespace Hook

variable {α β : Type} {s : Invocation} {w : World}

/-! ### Statements of a transaction that is not lost -/

/-- A statement is answered by the view of the transaction. -/
theorem exec_execute (hw : w.Up) (st : Statement) :
  exec (execute st) s w = ((.ok (w.view.answer st), s), w.push st.effects)
  := by
  have htick : w.fate.tick = some w.fate := hw
  rw [execute, exec_bind, exec_perform]
  simp only [World.handle, htick, exec_ofExcept]
  rfl

theorem exec_commit (hw : w.fate = .commits) :
  exec commit s w = ((.ok (), s), w.committed)
  := by
  rw [commit, exec_bind, exec_perform]
  simp only [World.handle, hw, exec_ofExcept]

/-- An ambiguous commit raises and takes effect. -/
theorem exec_commit_applied (hw : w.fate = .applied) :
  exec commit s w = ((.error .driver, s), w.disconnected w.view)
  := by
  rw [commit, exec_bind, exec_perform]
  simp only [World.handle, hw, exec_ofExcept]

/-- The commit of a lost transaction raises and has no effect. -/
theorem exec_commit_lost {k : ℕ} (hw : w.fate = .lost k) :
  exec commit s w = ((.error .driver, s), w.disconnected w.db)
  := by
  rw [commit, exec_bind, exec_perform]
  simp only [World.handle, hw, exec_ofExcept]

/-- Reading the clock moves it. -/
theorem exec_now :
  exec (perform .now) s w = ((.ok w.clock, s), w.tick)
  := rfl

/-- A session that has not loaded an execution loads it. -/
theorem exec_getTaskExecution (hw : w.Up) {i : UUID} {row : TaskExecution}
    (hmap : s.identityMap i = none) (hview : w.view.execution? i = some row) :
  exec (getTaskExecution i none) s w = ((.ok (some row), s.keep row), w)
  := by
  have hid : row.id = i := Database.id_of_execution? hview
  rw [getTaskExecution, exec_bind_ok (exec_execute hw _)]
  simp only [Database.answer, hview, Statement.effects, World.push_nil]
  rw [exec_bind, exec_get]
  simp only [hid, hmap]
  rfl

/-- A session that has loaded an execution keeps its instance. -/
theorem exec_getTaskExecution_loaded (hw : w.Up) {i : UUID} {row task : TaskExecution}
    (hmap : s.identityMap i = some task) (hview : w.view.execution? i = some row) :
  exec (getTaskExecution i none) s w = ((.ok (some task), s), w)
  := by
  have hid : row.id = i := Database.id_of_execution? hview
  rw [getTaskExecution, exec_bind_ok (exec_execute hw _)]
  simp only [Database.answer, hview, Statement.effects, World.push_nil]
  rw [exec_bind, exec_get]
  simp only [hid, hmap]
  rfl

/-- An execution that does not exist is not found. -/
theorem exec_getTaskExecution_none (hw : w.Up) {i : UUID}
    (hview : w.view.execution? i = none) :
  exec (getTaskExecution i none) s w = ((.ok none, s), w)
  := by
  rw [getTaskExecution, exec_bind_ok (exec_execute hw _)]
  simp only [Database.answer, hview, Statement.effects, World.push_nil]
  rfl

/-- Refreshing an instance reads its row. -/
theorem exec_refresh (hw : w.Up) {task row : TaskExecution}
    (hview : w.view.execution? task.id = some row) :
  exec (refresh task) s w = ((.ok row, s.keep row), w)
  := by
  rw [refresh, exec_bind_ok (exec_execute hw _)]
  simp only [Database.answer, hview, Statement.effects, World.push_nil]
  rfl

/-- A session whose instance of an execution is its row updates both. -/
theorem exec_updateTaskStatus (hw : w.Up) {i : UUID} {task : TaskExecution}
    (status : TaskStatus) (fields : StatusUpdate)
    (hmap : s.identityMap i = none ∨ s.identityMap i = some task)
    (hview : w.view.execution? i = some task) :
  exec (updateTaskStatus i status fields) s w
    = ((.ok (some (task.assign status fields w.clock)),
        s.keep (task.assign status fields w.clock)), w.updated task status fields)
  := by
  have hid : task.id = i := Database.id_of_execution? hview
  have hload : ∃ s', exec (getTaskExecution i none) s w = ((.ok (some task), s'), w) ∧
      s'.keep (task.assign status fields w.clock)
        = s.keep (task.assign status fields w.clock) := by
    rcases hmap with hmap | hmap
    · use s.keep task, exec_getTaskExecution hw hmap hview
      apply Invocation.keep_keep
      rfl
    · use s, exec_getTaskExecution_loaded hw hmap hview
  obtain ⟨s', hload, hkeep⟩ := hload
  have hup : w.tick.Up := hw
  have hup' : (w.updated task status fields).Up := hw
  have hview' : (w.updated task status fields).view.execution? task.id
      = some (task.assign status fields w.clock) := by
    rw [World.updated, World.view_push, Database.view_singleton,
      Database.execution?_updateExecution_self, World.view_tick, hid, hview, Option.map_some,
      TaskExecution.set_changes_assign]
  rw [updateTaskStatus, exec_bind_ok hload]
  rw [exec_bind_ok exec_now, exec_bind_ok (exec_execute hup _)]
  change exec (refresh task >>= _) s' (w.updated task status fields) = _
  rw [exec_bind_ok (exec_refresh hup' hview'), hkeep]
  rfl

/-- Updating an execution that does not exist does nothing. -/
theorem exec_updateTaskStatus_none (hw : w.Up) {i : UUID} (status : TaskStatus)
    (fields : StatusUpdate) (hview : w.view.execution? i = none) :
  exec (updateTaskStatus i status fields) s w = ((.ok none, s), w)
  := by
  rw [updateTaskStatus, exec_bind_ok (exec_getTaskExecution_none hw hview)]
  rfl

/-- Recording an attempt inserts it. -/
theorem exec_recordTaskAttempt (hw : w.Up) (i t : UUID) (n : ℕ) (before after : TaskStatus)
    (errorDetail : Option String) (d : TaskDispatchResult) :
  exec (recordTaskAttempt i t n before after errorDetail d) s w
    = ((.ok (), s), w.push [.insertAttempt
        { taskExecutionId := i, tenantId := t, attemptNumber := n, statusBefore := before,
          statusAfter := after, errorDetail, dispatchResult := d }])
  := by
  rw [recordTaskAttempt, exec_execute hw]
  rfl

/-- The effects of marking the last pending or dispatched attempt with a number. -/
def markEffects (db : Database) (i : UUID) (n : ℕ) : List Effect :=
  match db.latestAttempt? (.pendingOrDispatched i n) with
  | none => []
  | some attempt =>
      if attempt.dispatchResult = .pending then [.updateAttempt attempt.id .dispatched] else []

/-- Marking an attempt finds out whether there is one, and updates it when it is
pending. -/
theorem exec_markTaskAttemptDispatched (hw : w.Up) (i : UUID) (n : ℕ) :
  exec (markTaskAttemptDispatched i n) s w
    = ((.ok (w.view.latestAttempt? (.pendingOrDispatched i n)).isSome, s),
        w.push (markEffects w.view i n))
  := by
  rw [markTaskAttemptDispatched, getLatestPendingOrDispatchedTaskAttempt,
    exec_bind_ok (exec_execute hw _)]
  simp only [Database.answer, Statement.effects, World.push_nil, markEffects]
  cases w.view.latestAttempt? (.pendingOrDispatched i n) with
  | none =>
      simp only [World.push_nil]
      rfl
  | some attempt =>
      simp only []
      split
      case isTrue h =>
        rw [exec_bind_ok (exec_execute hw _)]
        rfl
      case isFalse h =>
        rw [World.push_nil]
        rfl

/-! ### Sessions -/

/-- A session is opened without instances, and closed however its body ends. -/
theorem exec_withSession (body : Hook α) :
  exec (withSession body) s w
    = ((exec body { s with identityMap := fun _ => none } w.opened).1,
        (exec body { s with identityMap := fun _ => none } w.opened).2.closed)
  := by
  have hopen : exec (perform .openSession) s w = ((.ok (), s), w.opened) := rfl
  rw [withSession, exec_bind_ok hopen, exec_bind_ok (exec_modify _ _ _), exec_tryCatch]
  rw [exec_bind]
  obtain ⟨⟨r, s'⟩, w'⟩ := exec body { s with identityMap := fun _ => none } w.opened
  cases r with
  | ok a => rfl
  | error e => rfl

/-- A call that returns is not repeated. -/
theorem exec_createDbRetry_ok (n : ℕ) {call : Hook α} {a : α} {s' : Invocation} {w' : World}
    (h : exec call s w = ((.ok a, s'), w')) :
  exec (createDbRetry (n + 1) call) s w = ((.ok a, s'), w')
  := by
  cases n with
  | zero => apply h
  | succ n => rw [createDbRetry, exec_tryCatch, h]

/-- A call that raises is repeated with the objects it leaves. -/
theorem exec_createDbRetry_error (n : ℕ) {call : Hook α} {e : OperationalError}
    {s' : Invocation} {w' : World} (h : exec call s w = ((.error e, s'), w')) :
  exec (createDbRetry (n + 2) call) s w = exec (createDbRetry (n + 1) call) s' w'
  := by
  rw [createDbRetry, exec_tryCatch, h]

end Hook

end WorkerTemplate
