import WorkerTemplate.Concurrent.Hooks
import WorkerTemplate.Middleware.Decision

/-!
# The conduct of a hook

What a hook may do at all, whatever it reads and whatever fails: it updates the execution of its
message and no other one, it publishes events about this execution in the room of the tenant of
its message, it sends its message and writes or marks the audit row of a retry only when the
retry gate is open for the row, and it writes the audit row of a refused retry in the mode and
with the status that belong to it.
-/

namespace WorkerTemplate

namespace Database

/-- No effect of a transaction changes the tenant of an execution. -/
theorem tenantId_view (db : Database) (es : List Effect) (i : UUID) :
  ((db.view es).execution? i).map (·.tenantId) = (db.execution? i).map (·.tenantId)
  := by
  apply eq_view (f := fun db => (db.execution? i).map (·.tenantId))
  rintro e - db
  cases e with
  | insertAttempt row => rfl
  | updateAttempt id d => rfl
  | updateExecution j changes =>
      rw [execution?_updateExecution]
      split
      · rw [Option.map_map]
        rfl
      · rfl

/-- Updates of other executions leave an execution alone. -/
theorem execution?_view_of_ne (db : Database) {es : List Effect} {j : UUID}
    (h : ∀ i changes, Effect.updateExecution i changes ∈ es → i ≠ j) :
  (db.view es).execution? j = db.execution? j
  := by
  apply eq_view (f := fun db => db.execution? j)
  intro e he db
  cases e with
  | insertAttempt row => rfl
  | updateAttempt id d => rfl
  | updateExecution i changes =>
      rw [execution?_updateExecution, if_neg]
      exact (h i changes he).symm

end Database

/-- What a hook is called with, and the tenant of the row of its execution, if there is one. -/
structure Scope where
  settings : Settings
  message : TaskiqMessage
  tenant : Option UUID

/-- The retry gate is open for the row. -/
def Scope.GateOpen (scope : Scope) : Prop :=
  ∃ t, scope.tenant = some t ∧ scope.settings.retryGateAllows scope.message.taskName t = true

/-- An instance of the execution has the tenant of its row. -/
def Scope.Covers (scope : Scope) (task : TaskExecution) : Prop :=
  scope.message.extractTaskExecutionId = some task.id → scope.tenant = some task.tenantId

/-- The execution an event is about. -/
def TaskEvent.taskId : TaskEvent → UUID
  | .statusChanged e => e.taskId
  | .completed e => e.taskId
  | .failed e => e.taskId

/-- The room of a tenant. -/
def tenantRoom (tenantId : UUID) : Text := "org:".toList ++ tenantId.text

/-- A transaction assigns a status to an execution. -/
def Assigns (own : List Effect) (i : UUID) (status : TaskStatus) : Prop :=
  ∃ (task : TaskExecution) (fields : StatusUpdate) (now : Time),
    Effect.updateExecution i (task.changes (task.assign status fields now)) ∈ own

/-- An audit row belongs to a refused retry, or to one that the gate allows. -/
def Scope.Warrants (scope : Scope) (own : List Effect) (row : TaskAttempt) : Prop :=
  match row.dispatchResult with
  | .shadowed => scope.settings.taskRetryShadowMode = true ∧ row.statusAfter = .retrying ∧
      Assigns own row.taskExecutionId .retrying
  | .blocked => scope.settings.taskRetryShadowMode = false ∧ row.statusAfter = .failed ∧
      Assigns own row.taskExecutionId .failed
  | _ => scope.GateOpen

/-- The instances of a session have the primary keys and the tenants of their rows. -/
def Scope.Instances (scope : Scope) (s : Invocation) : Prop :=
  ∀ j task, s.identityMap j = some task → task.id = j ∧ scope.Covers task

theorem Scope.Instances.keep {scope : Scope} {s : Invocation} (hs : scope.Instances s)
    {task : TaskExecution} (htask : scope.Covers task) :
  scope.Instances (s.keep task)
  := by
  intro j task' htask'
  simp only [Invocation.keep, Function.update_apply] at htask'
  split at htask'
  case isTrue hj =>
    obtain ⟨rfl⟩ := htask'
    exact ⟨hj.symm, htask⟩
  case isFalse hj => exact hs j task' htask'

theorem Scope.instances_nil (scope : Scope) (s : Invocation) :
  scope.Instances { s with identityMap := fun _ => none }
  := by
  rintro j task ⟨⟩

/-- The protocol of a hook with the effects of its open transaction. -/
def conduct (scope : Scope) : Protocol Op.Answer (List Effect) where
  allows own o :=
    match o with
    | .statement (.updateExecution j _) => scope.message.extractTaskExecutionId = some j
    | .statement (.insertAttempt row) =>
        scope.message.extractTaskExecutionId = some row.taskExecutionId ∧ scope.Warrants own row
    | .statement (.updateAttempt _ _) => scope.GateOpen
    | .kiq message => message = scope.message ∧ scope.GateOpen
    | .emit room event =>
        scope.message.extractTaskExecutionId = some event.taskId ∧
          ∃ t, scope.message.extractTenantId = some t ∧ room = tenantRoom t
    | _ => True
  moves own o r own' :=
    match o, r with
    | .openSession, _ => own' = []
    | .closeSession, _ => own' = []
    | .commit, _ => own' = []
    | .statement (.selectExecution j none), .ok row =>
        own' = own ∧ (∀ task, row = some task → task.id = j) ∧
          (scope.message.extractTaskExecutionId = some j →
            row.map (·.tenantId) = scope.tenant)
    | .statement st, .ok _ => own' = own ++ st.effects
    | .statement _, .error _ => True
    | _, _ => own' = own

namespace Hook

variable {scope : Scope} {i : UUID} {s : Invocation} {own : List Effect} {α : Type}

/-- A part of a hook conducts itself. -/
abbrev Conducts (scope : Scope) (h : Hook α) : Prop :=
  Maintains (conduct scope) (fun s _ => scope.Instances s) h

theorem conducts_perform {o : Op} (hallows : ∀ own, (conduct scope).allows own o) :
  Conducts scope (perform o)
  := by
  apply maintains_perform
  · intro s own _
    apply hallows own
  · intro s own r own' hs _
    apply hs

theorem conducts_commit :
  Conducts scope commit
  := maintains_commit (conducts_perform (fun _ => trivial))

theorem conducts_modifyAttempt (f : OnErrorAttempt → OnErrorAttempt) :
  Conducts scope (modifyAttempt f)
  := maintains_modify (fun _ _ h => h)

theorem conducts_modifyResult (f : TaskiqResult → TaskiqResult) :
  Conducts scope (modifyResult f)
  := maintains_modify (fun _ _ h => h)

theorem conducts_withSession {body : Hook α} (hbody : Conducts scope body) :
  Conducts scope (withSession body)
  := by
  apply hbody.withSession
  · exact conducts_perform (fun _ => trivial)
  · exact conducts_perform (fun _ => trivial)
  · intro s own _
    apply scope.instances_nil s

/-! ### Services -/

/-- A row that a hook selects by the primary key of its execution has its tenant. -/
theorem covers_of_select {row : TaskExecution} {j : UUID} (hid : row.id = j)
    (htenant : scope.message.extractTaskExecutionId = some j →
      (some row).map (·.tenantId) = scope.tenant) :
  scope.Covers row
  := by
  intro hi
  rw [hid] at hi
  exact (htenant hi).symm

/-- Loading the execution of the message gives an instance of it, when it has a row. -/
theorem obeys_getTaskExecution_conduct (hs : scope.Instances s)
    (hi : scope.message.extractTaskExecutionId = some i) :
  Obeys (conduct scope) (getTaskExecution i none) (fun r s' own' => scope.Instances s' ∧
    ∀ task, r = .ok task → own' = own ∧ task.map (·.tenantId) = scope.tenant ∧
      ∀ row, task = some row → row.id = i) s own
  := by
  apply obeys_getTaskExecution trivial
  · intro e own' _
    exact ⟨hs, by simp⟩
  · rintro own' ⟨rfl, -, htenant⟩
    refine ⟨hs, ?_⟩
    rintro task ⟨⟩
    exact ⟨rfl, htenant hi, by simp⟩
  · rintro row own' ⟨rfl, hid, htenant⟩
    have hid : row.id = i := hid row rfl
    have hcovers := covers_of_select hid htenant
    constructor
    · intro task htask
      obtain ⟨htaskid, htaskcovers⟩ := hs row.id task htask
      refine ⟨hs, ?_⟩
      rintro task' ⟨⟩
      refine ⟨rfl, ?_, ?_⟩
      · rw [htaskcovers (by rw [htaskid, hid, hi])]
        rfl
      · rintro _ ⟨⟩
        rw [htaskid, hid]
    · intro _
      refine ⟨hs.keep hcovers, ?_⟩
      rintro task' ⟨⟩
      refine ⟨rfl, htenant hi, ?_⟩
      rintro _ ⟨⟩
      apply hid

theorem conducts_refresh (task : TaskExecution) (s : Invocation) (own : List Effect)
    (hs : scope.Instances s) :
  Obeys (conduct scope) (refresh task) (fun r s' own' => scope.Instances s' ∧
    ∀ a, r = .ok a → own' = own) s own
  := by
  apply obeys_refresh trivial
  · intro e own' _
    exact ⟨hs, by simp⟩
  · rintro own' ⟨rfl, -⟩
    exact ⟨hs, fun _ _ => rfl⟩
  · rintro row own' ⟨rfl, hid, htenant⟩
    exact ⟨hs.keep (covers_of_select (hid row rfl) htenant), fun _ _ => rfl⟩

/-- Updating the status of the execution of the message assigns it, when it has a row. -/
theorem obeys_updateTaskStatus_conduct (hs : scope.Instances s)
    (hi : scope.message.extractTaskExecutionId = some i) (status : TaskStatus)
    (fields : StatusUpdate) :
  Obeys (conduct scope) (updateTaskStatus i status fields) (fun r s' own' => scope.Instances s' ∧
    ∀ a, r = .ok a → scope.tenant.isSome → Assigns own' i status) s own
  := by
  apply obeys_updateTaskStatus (obeys_getTaskExecution_conduct hs hi)
  · rintro e s' own' ⟨hs', -⟩
    exact ⟨hs', by simp⟩
  · rintro s' own' ⟨hs', htask⟩
    obtain ⟨-, htenant, -⟩ := htask none rfl
    refine ⟨hs', ?_⟩
    rintro a - hsome
    rw [← htenant] at hsome
    cases hsome
  · rintro task s' own' ⟨hs', htask⟩
    obtain ⟨rfl, -, hid⟩ := htask (some task) rfl
    have hid : task.id = i := hid task rfl
    use trivial
    rintro now own₁ hmoves
    obtain rfl : own₁ = own' := hmoves
    refine ⟨?_, fun _ _ _ => ⟨hs', by simp⟩, ?_⟩
    · change scope.message.extractTaskExecutionId = some task.id
      rw [hid, hi]
    · intro own₂ hmoves
      obtain rfl : own₂ = _ := hmoves
      apply (conducts_refresh task s' _ hs').mono
      rintro (e | row) s₃ own₃ ⟨hs₃, hsame⟩
      · exact ⟨hs₃, by rintro a ⟨⟩⟩
      · obtain rfl := hsame row rfl
        refine ⟨hs₃, ?_⟩
        intro _ _ _
        refine ⟨task, fields, now, ?_⟩
        rw [← hid]
        apply List.mem_append_right _ (List.mem_singleton_self _)

theorem conducts_updateTaskStatus (hi : scope.message.extractTaskExecutionId = some i)
    (status : TaskStatus) (fields : StatusUpdate) :
  Conducts scope (updateTaskStatus i status fields)
  := by
  intro s own hs
  apply (obeys_updateTaskStatus_conduct hs hi status fields).mono
  intro r s' own' h
  exact h.1

theorem conducts_selectAttempt (filter : AttemptFilter) :
  Conducts scope (execute (.selectAttempt filter))
  := maintains_execute (conducts_perform (fun _ => trivial))

theorem conducts_markTaskAttemptDispatched (hopen : scope.GateOpen) (j : UUID) (n : ℕ) :
  Conducts scope (markTaskAttemptDispatched j n)
  := by
  apply maintains_markTaskAttemptDispatched
  · exact conducts_perform (fun _ => trivial)
  · intro id
    exact conducts_perform (fun _ => hopen)

/-- A message of the execution is told about in the room of its tenant. -/
theorem conducts_emitStatusEvent (settings : Settings) (status : TaskStatus)
    (statusMessage errorDetail : Option String) :
  Conducts scope (emitStatusEvent settings scope.message status statusMessage errorDetail)
  := by
  have hevent {t : UUID} (ht : scope.message.extractTenantId = some t) (event : TaskEvent)
      (hid : scope.message.extractTaskExecutionId = some event.taskId) :
      Conducts scope (emitTaskEvent settings t event) := by
    have hemit : Conducts scope (perform (.emit (tenantRoom t) event)) :=
      conducts_perform (fun _ => ⟨hid, t, ht, rfl⟩)
    rw [emitTaskEvent]
    apply Maintains.ite
    · apply hemit.bind
      intro _
      apply maintains_pure
    · apply maintains_pure
  rw [emitStatusEvent]
  split
  case h_1 taskId tenantId hid ht =>
    split
    · exact hevent ht _ hid
    · exact hevent ht _ hid
    · exact hevent ht _ hid
  case h_2 => apply maintains_pure

/-! ### Before and after the body -/

theorem conducts_setStatus (hi : scope.message.extractTaskExecutionId = some i)
    (status : TaskStatus) (fields : StatusUpdate) :
  Conducts scope (setStatus i status fields)
  := by
  apply conducts_withSession
  apply (conducts_updateTaskStatus hi status fields).bind
  intro _
  apply conducts_commit

theorem conducts_preExecute :
  Conducts scope (preExecute scope.settings scope.message)
  := by
  rw [preExecute]
  apply Maintains.createDbRetry
  split
  case h_1 => apply maintains_pure
  case h_2 i hi =>
    apply (conducts_setStatus hi _ _).bind
    intro _
    apply conducts_emitStatusEvent

theorem conducts_postExecute :
  Conducts scope (postExecute scope.settings scope.message)
  := by
  rw [postExecute]
  apply Maintains.createDbRetry
  split
  case h_1 => apply maintains_pure
  case h_2 i hi =>
    apply maintains_get.bind
    intro s
    apply Maintains.ite
    · apply maintains_pure
    · apply Maintains.ite
      · apply maintains_pure
      · apply Maintains.ite
        · apply (conducts_setStatus hi _ _).bind
          intro _
          apply conducts_emitStatusEvent
        · apply (conducts_setStatus hi _ _).bind
          intro _
          apply conducts_emitStatusEvent

/-! ### After an error -/

/-- What a pass has loaded and decided is about the execution of the message. -/
structure Grounded (scope : Scope) (ctx : ErrorContext) (decision : RetryDecision) : Prop where
  message : ctx.message = scope.message
  execution : scope.message.extractTaskExecutionId = some ctx.taskExecutionId
  tenant : ctx.task.map (·.tenantId) = scope.tenant
  allowed : decision.retryAllowed = true → scope.GateOpen
  shadowed : decision.retryAlreadyRecorded = false → decision.retryShadowed = true →
    scope.settings.taskRetryShadowMode = true ∧ decision.status = .retrying
  blocked : decision.retryAlreadyRecorded = false → decision.shouldRetry = true →
    decision.retryAllowed = false → decision.retryShadowed = false →
      scope.settings.taskRetryShadowMode = false ∧ decision.status = .failed

variable {ctx : ErrorContext} {decision : RetryDecision}

/-- A decision is about the row it was made for. -/
theorem grounded_resolveRetryDecision (attempt : OnErrorAttempt)
    (hmessage : ctx.message = scope.message)
    (hexecution : scope.message.extractTaskExecutionId = some ctx.taskExecutionId)
    (htenant : ctx.task.map (·.tenantId) = scope.tenant) :
  Grounded scope ctx (scope.settings.resolveRetryDecision ctx attempt)
  := by
  cases hctx : ctx.task with
  | none =>
      refine ⟨hmessage, hexecution, htenant, ?_, ?_, ?_⟩
      · intro h
        simp [Settings.resolveRetryDecision, hctx] at h
      · intro _ h
        simp [Settings.resolveRetryDecision, hctx] at h
      · intro _ h
        simp [Settings.resolveRetryDecision, hctx] at h
  | some row =>
      have hallowed := scope.settings.retryAllowed_resolveRetryDecision attempt hctx
      have hshadowed := scope.settings.retryShadowed_resolveRetryDecision attempt hctx
      have hshould := scope.settings.shouldRetry_resolveRetryDecision attempt hctx
      have hstatus := fun h => scope.settings.status_resolveRetryDecision attempt hctx h
      rw [← scope.settings.retryAlreadyRecorded_resolveRetryDecision attempt hctx] at hstatus
      refine ⟨hmessage, hexecution, htenant, ?_, ?_, ?_⟩
      · intro h
        rw [hallowed, Bool.and_eq_true, hmessage] at h
        rw [hctx] at htenant
        exact ⟨row.tenantId, htenant.symm, h.2⟩
      · intro hnew h
        rw [hstatus hnew, h, Bool.or_true, if_pos rfl]
        rw [hshadowed, Bool.and_eq_true] at h
        exact ⟨h.2, rfl⟩
      · intro hnew hdue hrefused h
        rw [hstatus hnew, hrefused, h, Bool.or_false, if_neg Bool.false_ne_true]
        rw [hshould] at hdue
        rw [hallowed, hdue, Bool.true_and] at hrefused
        rw [hshadowed, hdue, hrefused, Bool.not_false, Bool.and_true, Bool.true_and] at h
        exact ⟨h, rfl⟩

/-- The audit row of a decision is warranted by what the transaction has assigned. -/
theorem conducts_recordInitialErrorStatus (hground : Grounded scope ctx decision)
    (hnew : decision.retryAlreadyRecorded = false) :
  Conducts scope (recordInitialErrorStatus ctx decision)
  := by
  intro s own hs
  rw [recordInitialErrorStatus, obeys_bind]
  apply (obeys_updateTaskStatus_conduct hs hground.execution _ _).mono
  rintro (e | updated) s' own' ⟨hs', hassigns⟩
  · apply hs'
  · have hassigns := hassigns updated rfl
    rw [next_ok, modifyAttempt, obeys_bind, obeys_modify, next_ok]
    cases hctx : ctx.task with
    | none => apply hs'
    | some task =>
        have hassigns : Assigns own' ctx.taskExecutionId decision.status := by
          apply hassigns
          rw [← hground.tenant, hctx]
          rfl
        simp only []
        split
        case isTrue hrefused =>
          rw [Bool.and_eq_true, Bool.not_eq_true'] at hrefused
          rw [recordTaskAttempt, obeys_execute]
          refine ⟨⟨hground.execution, ?_⟩, fun _ _ _ => hs'⟩
          split
          case isTrue hshadowed =>
            obtain ⟨hmode, hstatus⟩ := hground.shadowed hnew hshadowed
            rw [hstatus] at hassigns ⊢
            exact ⟨hmode, rfl, hassigns⟩
          case isFalse hshadowed =>
            rw [Bool.not_eq_true] at hshadowed
            obtain ⟨hmode, hstatus⟩ := hground.blocked hnew hrefused.1 hrefused.2 hshadowed
            rw [hstatus] at hassigns ⊢
            exact ⟨hmode, rfl, hassigns⟩
        case isFalse =>
          split
          case isTrue hallowed =>
            rw [modifyAttempt, obeys_bind, obeys_modify, next_ok, recordTaskAttempt, obeys_execute]
            exact ⟨⟨hground.execution, hground.allowed hallowed⟩, fun _ _ _ => hs'⟩
          case isFalse => exact hs'

theorem conducts_markDispatched (hopen : scope.GateOpen) (j : UUID) (n : ℕ) (notFound : String) :
  Conducts scope (markDispatched j n notFound)
  := by
  apply (conducts_markTaskAttemptDispatched hopen j n).bind
  intro marked
  apply Maintains.ite
  · apply (maintains_throw _).bind
    intro _
    apply conducts_commit.bind
    intro _
    apply conducts_modifyResult
  · apply conducts_commit.bind
    intro _
    apply conducts_modifyResult

theorem conducts_dispatchRetry (hground : Grounded scope ctx decision) (hopen : scope.GateOpen) :
  Conducts scope (dispatchRetry ctx decision)
  := by
  have hkiq : Conducts scope (requeue ctx.message) :=
    conducts_perform (fun _ => ⟨hground.message, hopen⟩)
  apply hkiq.bind
  intro requeued
  apply Maintains.ite
  · apply maintains_get.bind
    intro s
    apply (conducts_markDispatched hopen _ _ _).bind
    intro _
    apply maintains_pure
  · apply (conducts_updateTaskStatus hground.execution _ _).bind
    intro _
    apply (conducts_modifyAttempt _).bind
    intro _
    have hend : Conducts scope (do
        commit
        pure (TaskStatus.failed, "Task failed (retry dispatch error)")) := by
      apply conducts_commit.bind
      intro _
      apply maintains_pure
    cases ctx.task with
    | none => apply hend
    | some task =>
        have hinsert (row : TaskAttempt) (hi : row.taskExecutionId = ctx.taskExecutionId)
            (hd : row.dispatchResult = .dispatchFailed) :
            Conducts scope (execute (.insertAttempt row)) := by
          apply maintains_execute
          apply conducts_perform
          intro own
          constructor
          · rw [hground.execution, hi]
          · rw [Scope.Warrants, hd]
            apply hopen
        apply (hinsert _ rfl rfl).bind
        intro _
        apply hend

theorem conducts_recoverRetry (hground : Grounded scope ctx decision) (hopen : scope.GateOpen) :
  Conducts scope (recoverRetry ctx decision)
  := by
  apply maintains_get.bind
  intro s
  apply (conducts_selectAttempt _).bind
  rintro (_ | attempt)
  · apply maintains_throw
  · apply Maintains.ite
    · apply (conducts_markDispatched hopen _ _ _).bind
      intro _
      apply maintains_pure
    · apply conducts_commit.bind
      intro _
      apply conducts_dispatchRetry hground hopen

theorem conducts_reconcilePending (hopen : scope.GateOpen) (j : UUID) :
  Conducts scope (reconcilePending j)
  := by
  apply (conducts_selectAttempt _).bind
  rintro (_ | attempt)
  · apply maintains_pure
  · apply (conducts_markTaskAttemptDispatched hopen j _).bind
    intro marked
    apply Maintains.ite
    · apply maintains_throw
    · apply maintains_pure

/-- What a pass does about its decision. -/
theorem conducts_recordDecision (hground : Grounded scope ctx decision) :
  Conducts scope (recordDecision ctx decision)
  := by
  have hend : Conducts scope (do
      commit
      pure (decision.status, decision.statusMsg)) := by
    apply conducts_commit.bind
    intro _
    apply maintains_pure
  rw [recordDecision]
  split
  case isTrue hallowed =>
    have hopen := hground.allowed hallowed
    split
    case isTrue => exact conducts_recoverRetry hground hopen
    case isFalse hnew =>
      rw [Bool.not_eq_true] at hnew
      apply (conducts_reconcilePending hopen _).bind
      intro _
      apply (conducts_recordInitialErrorStatus hground hnew).bind
      intro _
      apply conducts_commit.bind
      intro _
      apply conducts_dispatchRetry hground hopen
  case isFalse =>
    rw [recordFailure]
    cases hnew : decision.retryAlreadyRecorded with
    | true => apply hend
    | false =>
        apply (conducts_recordInitialErrorStatus hground hnew).bind
        intro _
        apply hend

theorem conducts_errorSession (hi : scope.message.extractTaskExecutionId = some i)
    (exception : PyException) :
  Conducts scope (errorSession scope.settings scope.message exception i)
  := by
  intro s own hs
  rw [errorSession, obeys_bind]
  apply (obeys_getTaskExecution_conduct hs hi).mono
  rintro (e | task) s' own' ⟨hs', htask⟩
  · apply hs'
  · obtain ⟨-, htenant, -⟩ := htask task rfl
    rw [next_ok, obeys_bind, obeys_get, next_ok]
    apply Obeys.bind_maintains
    · apply conducts_recordDecision _ s' own' hs'
      apply grounded_resolveRetryDecision s'.attempt rfl hi htenant
    · intro emitted
      apply Maintains.ite
      · apply (conducts_modifyResult _).bind
        intro _
        apply maintains_pure
      · apply maintains_pure

theorem conducts_onError (exception : PyException) :
  Conducts scope (onError scope.settings scope.message exception)
  := by
  rw [onError]
  split
  case h_1 => apply maintains_pure
  case h_2 i hi =>
    apply (conducts_modifyAttempt _).bind
    intro _
    apply Maintains.createDbRetry
    apply (conducts_withSession (conducts_errorSession hi exception)).bind
    rintro ⟨status, statusMsg⟩
    apply conducts_emitStatusEvent

end Hook

/-- Every hook conducts itself. -/
theorem HookCall.conducts (call : HookCall) (scope : Scope) :
  Hook.Conducts scope (call.hook scope.settings scope.message)
  := by
  cases call with
  | preExecute => apply Hook.conducts_preExecute
  | onError exception => apply Hook.conducts_onError exception
  | postExecute => apply Hook.conducts_postExecute

end WorkerTemplate
