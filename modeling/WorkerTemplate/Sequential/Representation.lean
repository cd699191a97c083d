import WorkerTemplate.Sequential.Hooks

/-!
# The audit table of a queue

Hooks are called with messages one after the other.  Between two calls the settings may change,
executions are created, and a worker that has stopped anywhere is replaced by another one.
What the hooks commit, and what they read in their transactions, is well audited.
-/

namespace WorkerTemplate

/-- The worlds that are reached when messages are processed one hook at a time. -/
inductive Processed : World → Prop where
  /-- No retry has been recorded. -/
  | start {w : World} (hattempts : w.db.attempts = []) (hown : w.own = []) : Processed w
  /-- An execution is created, with a primary key of its own. -/
  | create {w : World} (hw : Processed w) (hown : w.own = []) (task : TaskExecution)
      (hfresh : w.db.execution? task.id = none) :
      Processed { w with db := { w.db with executions := w.db.executions ++ [task] } }
  /-- A worker goes on from what has been committed, under a plan of its own. -/
  | resume {w : World} (hw : Processed w) (w' : World) (hdb : w'.db = w.db)
      (hown : w'.own = []) : Processed w'
  /-- A hook is called with a message, and runs until it has returned or the worker stops. -/
  | invoke {w : World} (hw : Processed w) (hown : w.own = []) (call : HookCall)
      (settings : Settings) (message : TaskiqMessage) (s : Invocation) (n : ℕ) :
      Processed (((call.hook settings message).program s).runFor World.handle n w).2

/-- An audit row is resolved by its number as well as by its primary key. -/
structure Database.Represents (db : Database) (i : UUID) : Prop where
  /-- At most one row is pending. -/
  pending : (db.attempts.filter (fun row =>
    row.taskExecutionId = i ∧ row.dispatchResult = .pending)).length ≤ 1
  /-- The pending and dispatched rows have numbers of their own, -/
  distinct : ((db.attempts.filter (fun row => row.taskExecutionId = i ∧
    (row.dispatchResult = .pending ∨ row.dispatchResult = .dispatched))).map
      (·.attemptNumber)).Nodup
  /-- which are between 1 and the retry count. -/
  spent : ∀ row ∈ db.attempts, row.taskExecutionId = i →
    row.dispatchResult = .pending ∨ row.dispatchResult = .dispatched →
      ∃ task, db.execution? i = some task ∧
        1 ≤ row.attemptNumber ∧ row.attemptNumber ≤ task.retryCount
  /-- Marking the pending row that is looked up by its number marks this row and no other. -/
  resolved : ∀ row, db.latestAttempt? (.pending i) = some row → ∀ (s : Invocation) (w : World),
    w.Up → w.view = db →
      (Hook.exec (Hook.markTaskAttemptDispatched i row.attemptNumber) s w).1 = (.ok true, s) ∧
      (Hook.exec (Hook.markTaskAttemptDispatched i row.attemptNumber) s w).2.view.attempts
        = db.attempts.map (fun row' => if row' = row then row.resolve .dispatched else row')

namespace Database

variable {db : Database}

/-- Marking the pending row that is looked up. -/
theorem WellAudited.markEffects (h : db.WellAudited) {i : UUID} {row : TaskAttempt}
    (hrow : db.latestAttempt? (.pending i) = some row) :
  Hook.markEffects db i row.attemptNumber = [.updateAttempt row.id .dispatched]
  := by
  obtain ⟨-, hholds⟩ := of_latestAttempt? hrow
  simp only [AttemptFilter.holds, Bool.and_eq_true, decide_eq_true_eq] at hholds
  rw [Hook.markEffects, h.latestAttempt?_pendingOrDispatched hrow]
  simp only [hholds.2, if_true]

/-- The rows of an execution in a well audited table. -/
theorem WellAudited.toRepresents (h : db.WellAudited) (i : UUID) :
  db.Represents i
  where
  pending := by
    apply (h.apart.filter _).length_le_one
    intro row hrow row' hrow' happart
    obtain ⟨-, hrow⟩ := List.mem_filter.mp hrow
    obtain ⟨-, hrow'⟩ := List.mem_filter.mp hrow'
    rw [decide_eq_true_eq] at hrow hrow'
    apply happart.pending (hrow.1.trans hrow'.1.symm) ⟨hrow.2, hrow'.2⟩
  distinct := by
    rw [List.Nodup, List.pairwise_map]
    apply (h.apart.filter _).imp_of_mem
    intro row row' hrow hrow' happart
    obtain ⟨-, hrow⟩ := List.mem_filter.mp hrow
    obtain ⟨-, hrow'⟩ := List.mem_filter.mp hrow'
    rw [decide_eq_true_eq] at hrow hrow'
    apply happart.number (hrow.1.trans hrow'.1.symm) hrow.2 hrow'.2
  spent row hrow hi hopen := by
    obtain ⟨task, htask, hspent⟩ := h.spent row hrow hopen
    rw [hi] at htask
    exact ⟨task, htask, hspent⟩
  resolved row hrow s w hup hview := by
    subst hview
    rw [Hook.exec_markTaskAttemptDispatched hup, h.latestAttempt?_pendingOrDispatched hrow,
      World.view_push, h.markEffects hrow]
    use rfl
    apply h.attempts_updateAttempt (of_latestAttempt? hrow).1 .dispatched

/-- An execution that is created leaves a table well audited. -/
theorem WellAudited.create (h : db.WellAudited) (task : TaskExecution) :
  Database.WellAudited { db with executions := db.executions ++ [task] }
  where
  apart := h.apart
  spent row hrow hopen := by
    obtain ⟨task', htask, hspent⟩ := h.spent row hrow hopen
    refine ⟨task', ?_, hspent⟩
    rw [execution?, List.find?_append]
    rw [execution?] at htask
    rw [htask]
    rfl

end Database

/-- A hook that is stopped anywhere leaves the table well audited. -/
theorem HookCall.wellAudited_runFor (call : HookCall) (settings : Settings)
    (message : TaskiqMessage) (s : Invocation) {w : World} (hdb : w.db.WellAudited)
    (hown : w.own = []) (n : ℕ) :
  (((call.hook settings message).program s).runFor World.handle n w).2.db.WellAudited ∧
    (((call.hook settings message).program s).runFor World.handle n w).2.view.WellAudited
  := by
  have hshows : World.Shows True { db := w.db, view := w.db } (w, []) :=
    World.shows_initial hown (fun _ => hdb)
  cases hi : message.extractTaskExecutionId with
  | none =>
      rw [call.program_of_none settings hi]
      cases n with
      | zero => apply hshows.wellAudited
      | succ n => apply hshows.wellAudited
  | some i =>
      obtain ⟨b, hb⟩ : ∃ b, (w.db.execution? i).isSome = b := ⟨_, rfl⟩
      obtain ⟨c', hshows', -⟩ := Program.Follows.runFor
        (call.obeys_told (s := s) hshows.sound ⟨hb, hb⟩ settings hi) (World.refines_watch True)
        hshows n
      rw [← World.runFor_watch]
      apply hshows'.wellAudited

/-- What hooks commit and read is well audited. -/
theorem Processed.wellAudited {w : World} (h : Processed w) :
  w.db.WellAudited ∧ w.view.WellAudited
  := by
  induction h with
  | start hattempts hown =>
      have hdb := Database.wellAudited_of_nil hattempts
      rw [World.view, hown]
      exact ⟨hdb, hdb⟩
  | create hw hown task hfresh ih =>
      have hdb := ih.1.create task
      rw [World.view, hown]
      exact ⟨hdb, hdb⟩
  | resume hw w' hdb hown ih =>
      rw [World.view, hown, hdb]
      exact ⟨ih.1, ih.1⟩
  | invoke hw hown call settings message s n ih =>
      apply call.wellAudited_runFor settings message s ih.1 hown n

/-- In every state that is reached by processing messages one hook at a time, an execution has
at most one pending row, its pending and dispatched rows have numbers of their own, between 1
and its retry count, and the pending row that is looked up is the one that is marked. -/
theorem Processed.represents {w : World} (h : Processed w) (i : UUID) :
  w.db.Represents i ∧ w.view.Represents i
  := by
  obtain ⟨hdb, hview⟩ := h.wellAudited
  exact ⟨hdb.toRepresents i, hview.toRepresents i⟩

namespace Example

/-- A worker that stops after it has sent the message and before it has marked it. -/
def stopped : World :=
  ((((HookCall.onError exception).hook settings message).program failed).runFor World.handle 10
    (world 0 3 (plans (session .commits .commits true) (session .commits .commits true)))).2

/-- The world of another worker, whose call of the error hook is stopped at the same place. -/
def stoppedAgain : World :=
  ((((HookCall.onError exception).hook settings message).program failed).runFor World.handle 11
    { stopped with own := [] }).2

end Example

/-- A worker takes the pending row of a stopped worker for sent, and stops with one of its own. -/
theorem processed_represents_of_stopped :
  Example.stoppedAgain.db.attempts.map (fun row => (row.attemptNumber, row.dispatchResult))
      = [(1, .dispatched), (2, .pending)] ∧
  Example.stoppedAgain.db.Represents Example.taskExecutionId ∧
    Example.stoppedAgain.view.Represents Example.taskExecutionId
  := ⟨rfl, Processed.represents
    (.invoke (.resume (.invoke (.start rfl rfl) rfl _ _ _ _ _) _ rfl rfl) rfl _ _ _ _ _) _⟩

end WorkerTemplate
