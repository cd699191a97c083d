import WorkerTemplate.Concurrent.Hooks
import WorkerTemplate.Concurrent.Schedule
import WorkerTemplate.Middleware.Decision

/-!
# The retry budget

However many hooks overlap, and whatever fails, the retry count of an execution stays within
its budget.  A session increments the count it has loaded, and only after it has compared
this count to the budget.
-/

namespace WorkerTemplate

/-- Every hook may be called at any time, for any message. -/
inductive SpawnsHook (w : Cluster) : Program Op.Answer PUnit → Cluster → Prop where
  | preExecute (settings : Settings) (message : TaskiqMessage) (result : TaskiqResult) :
      SpawnsHook w ((Hook.preExecute settings message).thread { result }) w
  | postExecute (settings : Settings) (message : TaskiqMessage) (result : TaskiqResult) :
      SpawnsHook w ((Hook.postExecute settings message).thread { result }) w
  | onError (settings : Settings) (message : TaskiqMessage) (result : TaskiqResult)
      (exception : PyException) :
      SpawnsHook w ((Hook.onError settings message exception).thread { result }) w

namespace Budget

variable {i : UUID} {m : ℕ}

/-- A row of the execution `i` is within the budget `m`. -/
def Within (i : UUID) (m : ℕ) (row : TaskExecution) : Prop :=
  row.id = i → row.maxRetries = m ∧ row.retryCount ≤ m

/-- Changed columns of the execution keep the retry count within the budget. -/
def Permits (m : ℕ) (c : ExecutionChanges) : Prop := ∀ n ∈ c.retryCount, n ≤ m

/-- The protocol of the budget: what is read of the execution is within the budget, and what
is written has to be. -/
def protocol (i : UUID) (m : ℕ) : Protocol Op.Answer Unit where
  allows _ o :=
    match o with
    | .statement (.updateExecution j c) => j = i → Permits m c
    | _ => True
  moves _ o r _ :=
    match o, r with
    | .statement (.selectExecution j _), .ok (some row) => row.id = j ∧ Within i m row
    | _, _ => True

/-- The instances of a session are within the budget. -/
def Instances (i : UUID) (m : ℕ) (s : Invocation) : Prop :=
  ∀ j task, s.identityMap j = some task → task.id = j ∧ Within i m task

theorem Instances.keep {s : Invocation} (h : Instances i m s) {task : TaskExecution}
    (htask : Within i m task) :
  Instances i m (s.keep task)
  := by
  intro j task' htask'
  simp only [Invocation.keep, Function.update_apply] at htask'
  split at htask'
  case isTrue hj =>
    obtain ⟨rfl⟩ := htask'
    exact ⟨hj.symm, htask⟩
  case isFalse hj => apply h j task' htask'

/-- A session that is opened has no instances. -/
theorem Instances.clear (s : Invocation) :
  Instances i m { s with identityMap := fun _ => none }
  := by
  rintro j task ⟨⟩

/-- The instance a session increments is one whose count it has compared to the budget. -/
def Compared (j : UUID) (status : TaskStatus) (s : Invocation) : Prop :=
  status = .retrying → ∃ task, s.identityMap j = some task ∧ task.retryCount < task.maxRetries

/-- Assigning a status to an instance within the budget keeps the execution within the
budget. -/
theorem permits_changes_assign {task : TaskExecution} (hid : task.id = i)
    (htask : Within i m task) {status : TaskStatus}
    (hlt : status = .retrying → task.retryCount < task.maxRetries) (fields : StatusUpdate)
    (now : Time) :
  Permits m (task.changes (task.assign status fields now))
  := by
  obtain ⟨hmax, -⟩ := htask hid
  intro n hn
  rw [TaskExecution.retryCount_changes_assign] at hn
  split at hn
  case isTrue hstatus =>
    obtain ⟨rfl⟩ := hn
    have := hlt hstatus
    omega
  case isFalse => cases hn

end Budget

namespace Hook

open Budget

variable {i : UUID} {m : ℕ} {s : Invocation} {α : Type}

/-- An operation other than an update of an execution maintains what only depends on the
objects of the hook. -/
theorem maintains_perform_budget {I : Invocation → Prop} {o : Op}
    (h : ∀ j c, o ≠ .statement (.updateExecution j c)) :
  Maintains (Budget.protocol i m) (fun s _ => I s) (perform o)
  := by
  apply maintains_perform
  · intro s' _ _
    simp only [Budget.protocol]
  · intro s' _ r _ hs _
    apply hs

/-- A session that loads an execution has an instance of it. -/
theorem obeys_getTaskExecution_budget (hs : Instances i m s) (j : UUID) :
  Obeys (Budget.protocol i m) (getTaskExecution j none)
    (fun r s' _ => Instances i m s' ∧ (∀ task, s.identityMap j = some task → s' = s) ∧
      ∀ task, r = .ok (some task) → s'.identityMap j = some task) s ()
  := by
  apply obeys_getTaskExecution trivial
  · intro e _ _
    exact ⟨hs, fun _ _ => rfl, by simp⟩
  · intro _ _
    exact ⟨hs, fun _ _ => rfl, by simp⟩
  · rintro row _ ⟨rfl, hrow⟩
    constructor
    · intro task htask
      exact ⟨hs, fun _ _ => rfl, by rintro _ ⟨⟩; exact htask⟩
    · intro hnone
      refine ⟨hs.keep hrow, ?_, ?_⟩
      · intro task htask
        cases hnone.symm.trans htask
      · rintro _ ⟨⟩
        apply Invocation.identityMap_keep

/-- Updating a status keeps within the budget when a retry has been compared to it. -/
theorem obeys_updateTaskStatus_budget (hs : Instances i m s) {j : UUID} {status : TaskStatus}
    (hcompared : Compared j status s) (fields : StatusUpdate) :
  Obeys (Budget.protocol i m) (updateTaskStatus j status fields) (fun _ s' _ => Instances i m s')
    s ()
  := by
  apply obeys_updateTaskStatus (obeys_getTaskExecution_budget hs j)
  · rintro e s' _ ⟨hs', -⟩
    apply hs'
  · rintro s' _ ⟨hs', -⟩
    apply hs'
  · rintro task s' _ ⟨hs', hsame, hloaded⟩
    have htask := hloaded task rfl
    obtain ⟨hid, hwithin⟩ := hs' j task htask
    use trivial
    intro now _ _
    refine ⟨?_, fun _ _ _ => hs', ?_⟩
    · intro hji
      apply permits_changes_assign hji hwithin
      intro hstatus
      obtain ⟨task', htask', hlt⟩ := hcompared hstatus
      rw [hsame task' htask'] at htask
      cases htask.symm.trans htask'
      apply hlt
    · intro _ _
      apply obeys_refresh trivial
      · intro e _ _
        apply hs'
      · intro _ _
        apply hs'
      · rintro row _ ⟨-, hrow⟩
        apply hs'.keep hrow

theorem maintains_modifyAttempt_budget (f : OnErrorAttempt → OnErrorAttempt) :
  Maintains (Budget.protocol i m) (fun s _ => Instances i m s) (modifyAttempt f)
  := maintains_modify (fun _ _ h => h)

theorem maintains_modifyResult_budget (f : TaskiqResult → TaskiqResult) :
  Maintains (Budget.protocol i m) (fun s _ => Instances i m s) (modifyResult f)
  := maintains_modify (fun _ _ h => h)

theorem budgets_setStatus {j : UUID} {status : TaskStatus} (h : status ≠ .retrying)
    (fields : StatusUpdate) :
  Maintains (Budget.protocol i m) (fun s _ => Instances i m s) (updateTaskStatus j status fields)
  := by
  intro s _ hs
  apply obeys_updateTaskStatus_budget hs
  intro hretrying
  exact absurd hretrying h

theorem budgets_withSession {body : Hook α}
    (hbody : Maintains (Budget.protocol i m) (fun s _ => Instances i m s) body) :
  Maintains (Budget.protocol i m) (fun s _ => Instances i m s) (withSession body)
  := by
  apply hbody.withSession
  · apply maintains_perform_budget (by simp)
  · apply maintains_perform_budget (by simp)
  · intro s _ _
    apply Instances.clear

theorem budgets_commit :
  Maintains (Budget.protocol i m) (fun s _ => Instances i m s) commit
  := by
  apply maintains_commit
  apply maintains_perform_budget (by simp)

theorem budgets_emitStatusEvent (settings : Settings) (message : TaskiqMessage)
    (status : TaskStatus) (statusMessage errorDetail : Option String) :
  Maintains (Budget.protocol i m) (fun s _ => Instances i m s)
    (emitStatusEvent settings message status statusMessage errorDetail)
  := by
  apply maintains_emitStatusEvent
  intro room event
  apply maintains_perform_budget (by simp)

/-! ### The hooks -/

theorem budgets_preExecute (settings : Settings) (message : TaskiqMessage) :
  Maintains (Budget.protocol i m) (fun s _ => Instances i m s) (preExecute settings message)
  := by
  rw [preExecute]
  apply Maintains.createDbRetry
  split
  · apply maintains_pure
  · apply Maintains.bind
    · apply budgets_withSession
      apply (budgets_setStatus (by simp) _).bind
      intro _
      apply budgets_commit
    · intro _
      apply budgets_emitStatusEvent

theorem budgets_postExecute (settings : Settings) (message : TaskiqMessage) :
  Maintains (Budget.protocol i m) (fun s _ => Instances i m s) (postExecute settings message)
  := by
  have hsession (j : UUID) {status : TaskStatus} (h : status ≠ .retrying) (fields : StatusUpdate)
      (statusMessage errorDetail : Option String) :
      Maintains (Budget.protocol i m) (fun s _ => Instances i m s) (do
        withSession do
          let _ ← updateTaskStatus j status fields
          commit
        emitStatusEvent settings message status statusMessage errorDetail) := by
    apply Maintains.bind
    · apply budgets_withSession
      apply (budgets_setStatus h _).bind
      intro _
      apply budgets_commit
    · intro _
      apply budgets_emitStatusEvent
  rw [postExecute]
  apply Maintains.createDbRetry
  split
  · apply maintains_pure
  · apply maintains_get.bind
    intro s
    apply Maintains.ite
    · apply maintains_pure
    · apply Maintains.ite
      · apply maintains_pure
      · apply Maintains.ite
        · apply hsession _ (by simp)
        · apply hsession _ (by simp)

/-- Recording a decision keeps within the budget when a retry has been compared to it. -/
theorem obeys_recordInitialErrorStatus_budget (hs : Instances i m s) (ctx : ErrorContext)
    (decision : RetryDecision) (hcompared : Compared ctx.taskExecutionId decision.status s) :
  Obeys (Budget.protocol i m) (recordInitialErrorStatus ctx decision)
    (fun _ s' _ => Instances i m s') s ()
  := by
  have hrecord (row : TaskAttempt) : Maintains (Budget.protocol i m)
      (fun s _ => Instances i m s) (execute (.insertAttempt row)) := by
    apply maintains_execute
    apply maintains_perform_budget (by simp)
  apply (obeys_updateTaskStatus_budget hs hcompared _).bind_maintains
  intro _
  apply (maintains_modifyAttempt_budget _).bind
  intro _
  cases ctx.task with
  | none => apply maintains_pure
  | some task =>
      apply Maintains.ite
      · apply hrecord
      · apply Maintains.ite
        · apply (maintains_modifyAttempt_budget _).bind
          intro _
          apply hrecord
        · apply maintains_pure

theorem maintains_markTaskAttemptDispatched_budget {I : Invocation → Prop} (j : UUID) (n : ℕ) :
  Maintains (Budget.protocol i m) (fun s _ => I s) (markTaskAttemptDispatched j n)
  := by
  apply maintains_markTaskAttemptDispatched
  · apply maintains_perform_budget (by simp)
  · intro id
    apply maintains_perform_budget (by simp)

theorem budgets_markDispatched (j : UUID) (n : ℕ) (notFound : String) :
  Maintains (Budget.protocol i m) (fun s _ => Instances i m s) (markDispatched j n notFound)
  := by
  apply (maintains_markTaskAttemptDispatched_budget j n).bind
  intro marked
  apply Maintains.ite
  · apply (maintains_throw _).bind
    intro _
    apply budgets_commit.bind
    intro _
    apply maintains_modifyResult_budget
  · apply budgets_commit.bind
    intro _
    apply maintains_modifyResult_budget

theorem budgets_dispatchRetry (ctx : ErrorContext) (decision : RetryDecision) :
  Maintains (Budget.protocol i m) (fun s _ => Instances i m s) (dispatchRetry ctx decision)
  := by
  apply (maintains_perform_budget (by simp)).bind
  intro requeued
  apply Maintains.ite
  · apply maintains_get.bind
    intro s
    apply (budgets_markDispatched _ _ _).bind
    intro _
    apply maintains_pure
  · apply (budgets_setStatus (by simp) _).bind
    intro _
    apply (maintains_modifyAttempt_budget _).bind
    intro _
    have hend : Maintains (Budget.protocol i m) (fun s _ => Instances i m s) (do
        commit
        pure (TaskStatus.failed, "Task failed (retry dispatch error)")) := by
      apply budgets_commit.bind
      intro _
      apply maintains_pure
    cases ctx.task with
    | none => apply hend
    | some task =>
        apply Maintains.bind
        · apply maintains_execute
          apply maintains_perform_budget (by simp)
        · intro _
          apply hend

theorem budgets_recoverRetry (ctx : ErrorContext) (decision : RetryDecision) :
  Maintains (Budget.protocol i m) (fun s _ => Instances i m s) (recoverRetry ctx decision)
  := by
  apply maintains_get.bind
  intro s
  apply (maintains_execute (maintains_perform_budget (by simp))).bind
  rintro (_ | attempt)
  · apply maintains_throw
  · apply Maintains.ite
    · apply (budgets_markDispatched _ _ _).bind
      intro _
      apply maintains_pure
    · apply budgets_commit.bind
      intro _
      apply budgets_dispatchRetry

/-- Reconciling a pending attempt leaves the objects of a hook alone. -/
theorem maintains_reconcilePending_budget {I : Invocation → Prop} (j : UUID) :
  Maintains (Budget.protocol i m) (fun s _ => I s) (reconcilePending j)
  := by
  apply (maintains_execute (maintains_perform_budget (by simp))).bind
  rintro (_ | attempt)
  · apply maintains_pure
  · apply (maintains_markTaskAttemptDispatched_budget j _).bind
    intro marked
    apply Maintains.ite
    · apply maintains_throw
    · apply maintains_pure

/-- A pass acts on a decision within the budget when it has compared a retry to it. -/
theorem obeys_recordDecision_budget (hs : Instances i m s) (ctx : ErrorContext)
    (decision : RetryDecision)
    (hcompared : decision.retryAlreadyRecorded = false →
      Compared ctx.taskExecutionId decision.status s) :
  Obeys (Budget.protocol i m) (recordDecision ctx decision) (fun _ s' _ => Instances i m s') s ()
  := by
  rw [recordDecision]
  cases hnew : decision.retryAlreadyRecorded with
  | true =>
      split
      · apply budgets_recoverRetry ctx decision s () hs
      · rw [recordFailure, hnew]
        apply (budgets_commit.bind _) s () hs
        intro _
        apply maintains_pure
  | false =>
      split
      · rw [if_neg (by simp), recordRetry, obeys_bind]
        apply (maintains_reconcilePending_budget (I := fun s' => s' = s) _ s () rfl).mono
        rintro (e | _) s' _ rfl
        · apply hs
        · apply (obeys_recordInitialErrorStatus_budget hs ctx decision
            (hcompared hnew)).bind_maintains
          intro _
          apply budgets_commit.bind
          intro _
          apply budgets_dispatchRetry
      · rw [recordFailure, hnew]
        apply (obeys_recordInitialErrorStatus_budget hs ctx decision
          (hcompared hnew)).bind_maintains
        intro _
        apply budgets_commit.bind
        intro _
        apply maintains_pure

theorem budgets_errorSession (settings : Settings) (message : TaskiqMessage)
    (exception : PyException) (j : UUID) :
  Maintains (Budget.protocol i m) (fun s _ => Instances i m s)
    (errorSession settings message exception j)
  := by
  intro s _ hs
  rw [errorSession, obeys_bind]
  apply (obeys_getTaskExecution_budget hs j).mono
  rintro (e | task) s' _ ⟨hs', -, hloaded⟩
  · apply hs'
  · rw [next_ok, obeys_bind, obeys_get, next_ok]
    apply Obeys.bind_maintains
    · apply obeys_recordDecision_budget hs'
      intro hnew hretrying
      obtain ⟨row, htask, hlt⟩ :=
        settings.lt_of_status_resolveRetryDecision _ hnew hretrying
      obtain rfl : task = some row := htask
      exact ⟨row, hloaded row rfl, hlt⟩
    · intro emitted
      apply Maintains.ite
      · apply (maintains_modifyResult_budget _).bind
        intro _
        apply maintains_pure
      · apply maintains_pure

theorem budgets_onError (settings : Settings) (message : TaskiqMessage)
    (exception : PyException) :
  Maintains (Budget.protocol i m) (fun s _ => Instances i m s) (onError settings message exception)
  := by
  rw [onError]
  split
  · apply maintains_pure
  · apply (maintains_modifyAttempt_budget _).bind
    intro _
    apply Maintains.createDbRetry
    apply (budgets_withSession (budgets_errorSession settings message exception _)).bind
    rintro ⟨status, statusMsg⟩
    apply budgets_emitStatusEvent

end Hook

/-! ### The cluster -/

namespace Budget

variable {i : UUID} {m : ℕ}

/-- An effect keeps the execution within the budget. -/
def PermitsEffect (i : UUID) (m : ℕ) : Effect → Prop
  | .updateExecution j c => j = i → Permits m c
  | .insertAttempt _ => True
  | .updateAttempt _ _ => True

/-- The execution of a database is within the budget. -/
def Holds (i : UUID) (m : ℕ) (db : Database) : Prop :=
  ∃ row, db.execution? i = some row ∧ row.maxRetries = m ∧ row.retryCount ≤ m

theorem Holds.apply {db : Database} (h : Holds i m db) {e : Effect} (he : PermitsEffect i m e) :
  Holds i m (db.apply e)
  := by
  obtain ⟨row, hrow, hmax, hle⟩ := h
  cases e with
  | insertAttempt row' => exact ⟨row, hrow, hmax, hle⟩
  | updateAttempt j d => exact ⟨row, hrow, hmax, hle⟩
  | updateExecution j c =>
      rw [Holds, Database.execution?_updateExecution, hrow]
      split
      case isFalse => exact ⟨row, rfl, hmax, hle⟩
      case isTrue hj =>
        refine ⟨row.set c, rfl, hmax, ?_⟩
        have hc := he hj.symm
        simp only [TaskExecution.set]
        cases hcount : c.retryCount with
        | none => apply hle
        | some n => apply hc n hcount

/-- A transaction within the budget reads an execution within the budget. -/
theorem Holds.view {db : Database} (h : Holds i m db) {own : List Effect}
    (hown : ∀ e ∈ own, PermitsEffect i m e) :
  Holds i m (db.view own)
  := by
  induction own generalizing db with
  | nil => apply h
  | cons e own ih =>
      apply ih
      · apply h.apply
        apply hown e (List.mem_cons_self ..)
      · intro e' he'
        apply hown e' (List.mem_cons_of_mem _ he')

/-- The committed execution and every open transaction are within the budget. -/
structure Inv (i : UUID) (m : ℕ) (w : Cluster) : Prop where
  db : Holds i m w.db
  txn : ∀ t, ∀ e ∈ w.txn t, PermitsEffect i m e

variable {w : Cluster}

theorem Inv.release (h : Inv i m w) (t : ℕ) :
  Inv i m (w.release t)
  where
  db := h.db
  txn := by
    intro t'
    rw [Cluster.txn_release, Function.update_apply]
    split
    · simp
    · apply h.txn

theorem Inv.commit (h : Inv i m w) (t : ℕ) :
  Inv i m (w.commit t)
  where
  db := h.db.view (h.txn t)
  txn := (h.release t).txn

theorem Inv.push (h : Inv i m w) (t : ℕ) {s : Statement}
    (hs : ∀ e ∈ s.effects, PermitsEffect i m e) :
  Inv i m (w.push t s)
  where
  db := h.db
  txn := by
    intro t' e he
    rw [Cluster.txn_push, Function.update_apply] at he
    split at he
    · rcases List.mem_append.mp he with he | he
      · apply h.txn t e he
      · apply hs e he
    · apply h.txn t' e he

theorem Inv.record (h : Inv i m w) (t : ℕ) (o : Op) (r : o.Answer) (es : List Effect) :
  Inv i m (w.record t o r es)
  := ⟨h.db, h.txn⟩

/-- An effect of a statement that the protocol allows is within the budget. -/
theorem permitsEffect_of_allows {s : Statement} (h : (protocol i m).allows () (.statement s)) :
  ∀ e ∈ s.effects, PermitsEffect i m e
  := by
  cases s with
  | updateExecution j c =>
      intro e he
      obtain rfl := List.mem_singleton.mp he
      apply h
  | selectExecution j tenantId => simp [Statement.effects]
  | selectAttempt filter => simp [Statement.effects]
  | insertAttempt row => simp [Statement.effects, PermitsEffect]
  | updateAttempt j d => simp [Statement.effects, PermitsEffect]

/-- What a database within the budget answers is what the protocol says. -/
theorem Holds.moves {db : Database} (h : Holds i m db) {s : Statement} {r : s.Answer}
    (hanswers : db.Answers s r) :
  (protocol i m).moves () (.statement s) (.ok r) ()
  := by
  cases s with
  | selectAttempt filter => trivial
  | updateExecution j c => trivial
  | insertAttempt row => trivial
  | updateAttempt j d => trivial
  | selectExecution j tenantId =>
      cases r with
      | none => trivial
      | some row =>
          have hrow : db.execution? j = some row := by
            have hanswer : some row = db.answer (.selectExecution j tenantId) := hanswers
            cases tenantId with
            | none => apply hanswer.symm
            | some tenantId => apply (Option.filter_eq_some_iff.mp hanswer.symm).1
          have hid : row.id = j := Database.id_of_execution? hrow
          refine ⟨hid, ?_⟩
          intro hi
          obtain ⟨row', hrow', hmax, hle⟩ := h
          rw [← hi, hid, hrow] at hrow'
          cases hrow'
          exact ⟨hmax, hle⟩

/-- An operation that the protocol allows keeps the cluster within the budget, and answers as
the protocol says. -/
theorem Inv.performs (h : Inv i m w) {faults : Cluster.Faults} {t : ℕ} {o : Op} {r : o.Answer}
    {w' : Cluster} (hallows : (protocol i m).allows () o) (hstep : w.Performs faults t o r w') :
  (protocol i m).moves () o r () ∧ Inv i m w'
  := by
  have herror (s : Statement) (e : OperationalError) :
      (protocol i m).moves () (.statement s) (.error e) () := by
    cases s with
    | selectExecution j tenantId => trivial
    | selectAttempt filter => trivial
    | updateExecution j c => trivial
    | insertAttempt row => trivial
    | updateAttempt j d => trivial
  cases hstep with
  | opens => exact ⟨trivial, (h.release t).record ..⟩
  | closes => exact ⟨trivial, (h.release t).record ..⟩
  | answers free answers =>
      exact ⟨(h.db.view (h.txn t)).moves answers,
        (h.push t (permitsEffect_of_allows hallows)).record ..⟩
  | fails => exact ⟨herror _ _, (h.release t).record ..⟩
  | commits => exact ⟨trivial, (h.commit t).record ..⟩
  | lost => exact ⟨trivial, (h.release t).record ..⟩
  | applied => exact ⟨trivial, (h.commit t).record ..⟩
  | now time => exact ⟨trivial, h.record ..⟩
  | accepts => exact ⟨trivial, ⟨h.db, h.txn⟩⟩
  | rejects => exact ⟨trivial, h.record ..⟩
  | emits r => exact ⟨trivial, h.record ..⟩
  | runs => exact ⟨trivial, h.record ..⟩

/-- Workers that call the hooks in any order refine the protocol of the budget. -/
def refinement (i : UUID) (m : ℕ) (faults : Cluster.Faults) :
    (workers faults SpawnsHook).Refinement (protocol i m) where
  final _ := True
  inv _ w := Inv i m w
  exec := by
    intro ss w w' t c o r h _ hallows hstep
    use ()
    apply h.performs hallows hstep
  spawn := by
    intro ss w w' p h hspawn
    have hthread (hook : Hook Unit) (result : TaskiqResult)
        (hhook : hook.Maintains (protocol i m) (fun s _ => Instances i m s)) :
        (hook.thread { result }).Follows (protocol i m) (fun _ _ => True) () := by
      apply Hook.follows_thread
      apply (hhook _ () _).mono
      · intro _ _ _ _
        trivial
      · rintro j task ⟨⟩
    cases hspawn with
    | preExecute settings message result =>
        exact ⟨(), hthread _ _ (Hook.budgets_preExecute settings message), h⟩
    | postExecute settings message result =>
        exact ⟨(), hthread _ _ (Hook.budgets_postExecute settings message), h⟩
    | onError settings message result exception =>
        exact ⟨(), hthread _ _ (Hook.budgets_onError settings message exception), h⟩
  crash := by
    rintro ss w w' t c h - ⟨-, rfl⟩
    exact ⟨c, trivial, h.release t⟩

end Budget

/-- The retry count of an execution never exceeds its budget, however many hooks run on it at
the same time and whatever fails. -/
theorem retryCount_le_maxRetries {i : UUID} {row : TaskExecution} {db : Database}
    {outcomes : ℕ → Option PyException} {c : Machine.Config Op.Answer Cluster}
    (hrow : db.execution? i = some row) (hcount : row.retryCount = 0)
    (hc : (workers .any SpawnsHook).Reachable { db, outcomes } c) :
  ∃ row', c.world.db.execution? i = some row' ∧ row'.maxRetries = row.maxRetries ∧
    row'.retryCount ≤ row'.maxRetries
  := by
  have hinv : Budget.Inv i row.maxRetries { db, outcomes } := by
    constructor
    · exact ⟨row, hrow, rfl, by omega⟩
    · rintro t e ⟨⟩
  obtain ⟨ss, haccounts⟩ := (Budget.refinement i row.maxRetries .any).reachable hinv hc
  obtain ⟨row', hrow', hmax, hle⟩ := haccounts.inv.db
  exact ⟨row', hrow', hmax, by omega⟩

/-- An execution that may be retried once has been retried at most once after two errors. -/
theorem retryCount_le_maxRetries_of_overlapping :
  ∃ c, (workers .any SpawnsHook).Reachable (Example.cluster 0 1) c ∧ c.threads.length = 2 ∧
    ∃ row, c.world.db.execution? Example.taskExecutionId = some row ∧ row.maxRetries = 1 ∧
      row.retryCount ≤ row.maxRetries
  := by
  have hpermitted : ∀ turn ∈ Example.overlapping, turn.Permitted .any SpawnsHook := by
    have hspawn : (Turn.spawn Example.errorThread).Permitted .any SpawnsHook :=
      fun _ => .onError _ _ _ _
    have hrun (t n : ℕ) : (Turn.run t n {}).Permitted .any SpawnsHook :=
      ⟨fun _ => trivial, fun _ => trivial⟩
    simp only [Example.overlapping, List.forall_mem_cons, List.not_mem_nil]
    exact ⟨hspawn, hrun _ _, hspawn, hrun _ _, hrun _ _, by simp⟩
  obtain ⟨c, hc, hlength⟩ := Turn.exists_reachable hpermitted (w := Example.cluster 0 1)
    (p := fun c => decide (c.threads.length = 2)) (by rfl)
  have hrow : (Example.cluster 0 1).db.execution? Example.taskExecutionId
      = some (Example.row 0 1) := rfl
  exact ⟨c, hc, of_decide_eq_true hlength, retryCount_le_maxRetries hrow rfl hc⟩

end WorkerTemplate
