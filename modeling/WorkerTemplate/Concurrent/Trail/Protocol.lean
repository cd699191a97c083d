import WorkerTemplate.AuditTrail
import WorkerTemplate.Concurrent.Work
import WorkerTemplate.Concurrent.Schedule
import WorkerTemplate.Middleware.Decision

/-!
# What the hooks add to the audit

The hooks mark attempts that they have found open, they record attempts that fit the execution they
have loaded, and they send a message only after the attempt it is sent for has been committed.
-/

namespace WorkerTemplate

/-- The execution whose pending attempt an effect records. -/
def Effect.records : Effect → Option UUID
  | .insertAttempt row => if row.dispatchResult = .pending then some row.taskExecutionId else none
  | .updateExecution _ _ => none
  | .updateAttempt _ _ => none

/-- The message an operation has sent to the broker, whether or not it was accepted. -/
def Entry.sends (e : Entry) : Option TaskiqMessage :=
  match e.op with
  | .kiq message => some message
  | _ => none

namespace Trail

/-- What a thread knows of the trail. -/
structure Knowledge where
  /-- The effects of its open transaction. -/
  own : List Effect := []
  /-- The primary keys of the open attempts it has found. -/
  found : List (Option ℕ) := []
  /-- The executions with an open attempt that is committed. -/
  recorded : List UUID := []

/-- A new thread knows nothing. -/
def Knowledge.initial : Knowledge := {}

/-- The transaction of a thread is rolled back. -/
def Knowledge.close (c : Knowledge) : Knowledge := { c with own := [] }

/-- The transaction of a thread is committed. -/
def Knowledge.commit (c : Knowledge) : Knowledge where
  own := []
  found := c.found
  recorded := c.own.filterMap Effect.records ++ c.recorded

/-- A thread has found an attempt. -/
def Knowledge.find (c : Knowledge) (row : TaskAttempt) : Knowledge where
  own := c.own
  found := row.id :: c.found
  recorded := row.taskExecutionId :: c.recorded

/-- The open transaction of a thread has recorded no attempt. -/
def Knowledge.Blank (c : Knowledge) : Prop := ∀ row, .insertAttempt row ∉ c.own

/-- The protocol of the trail, where the executions have the terms that are given. -/
def protocol (terms : UUID → Option (UUID × ℕ)) : Protocol Op.Answer Knowledge where
  allows c o :=
    match o with
    | .statement (.insertAttempt row) =>
        ∃ t, terms row.taskExecutionId = some t ∧ row.Fits t
    | .statement (.updateAttempt id d) => d = .dispatched ∧ id ∈ c.found
    | .statement (.selectAttempt _) => c.Blank
    | .kiq message => ∃ i ∈ c.recorded, message.extractTaskExecutionId = some i
    | _ => True
  moves c o r c' :=
    match o, r with
    | .openSession, _ => c' = c.close
    | .closeSession, _ => c' = c.close
    | .commit, .ok _ => c' = c.commit
    | .commit, .error _ => c' = c.close
    | .statement (.selectAttempt filter), .ok (some row) =>
        filter.holds row = true ∧ c' = c.find row
    | .statement (.selectExecution j _), .ok (some row) =>
        row.id = j ∧ terms j = some row.terms ∧ c' = c
    | .statement s, .ok _ => c' = { c with own := c.own ++ s.effects }
    | .statement _, .error _ => c' = c.close
    | _, _ => c' = c

end Trail

namespace Hook

open Trail

variable {α : Type} {terms : UUID → Option (UUID × ℕ)} {s : Invocation} {c : Knowledge} {i : UUID}

/-- A part of a hook that keeps the trail whatever its thread knows. -/
abbrev Trails (terms : UUID → Option (UUID × ℕ)) (h : Hook α) : Prop :=
  Maintains (Trail.protocol terms) (fun _ _ => True) h

theorem trails_perform {o : Op} (h : ∀ c, (Trail.protocol terms).allows c o) :
  Trails terms (perform o)
  := by
  apply maintains_perform
  · intro _ c _
    apply h
  · intro _ _ _ _ _ _
    trivial

theorem trails_modify (f : Invocation → Invocation) :
  Trails terms (modify f)
  := maintains_modify (fun _ _ _ => trivial)

/-- Setting a status leaves no trail. -/
theorem tracks_trail :
  Tracks (Trail.protocol terms) (fun _ _ => True)
  where
  openSession := trails_perform (fun _ => trivial)
  closeSession := trails_perform (fun _ => trivial)
  commit := trails_perform (fun _ => trivial)
  now := trails_perform (fun _ => trivial)
  select _ _ := trails_perform (fun _ => trivial)
  update _ _ := trails_perform (fun _ => trivial)
  emit _ _ := trails_perform (fun _ => trivial)
  identityMap _ _ _ _ := trivial

theorem trails_commit :
  Trails terms commit
  := maintains_commit tracks_trail.commit

/-! ### Marking -/

/-- An attempt is marked by a transaction that has recorded none. -/
theorem obeys_markTaskAttemptDispatched_trail (n : ℕ) (hblank : c.Blank) :
  Obeys (Trail.protocol terms) (markTaskAttemptDispatched i n) (fun _ _ _ => True) s c
  := by
  rw [markTaskAttemptDispatched, getLatestPendingOrDispatchedTaskAttempt, obeys_bind, obeys_execute]
  use hblank
  rintro (e | _ | row) c' hmoves
  · trivial
  · trivial
  · obtain ⟨-, rfl⟩ := hmoves
    rw [next_ok]
    simp only []
    split
    · rw [obeys_bind, obeys_execute]
      use ⟨rfl, List.mem_cons_self ..⟩
      rintro (e | _) _ -
      · trivial
      · trivial
    · trivial

theorem obeys_markDispatched_trail (n : ℕ) (notFound : String) (hblank : c.Blank) :
  Obeys (Trail.protocol terms) (markDispatched i n notFound) (fun _ _ _ => True) s c
  := by
  have hend : Trails terms (do
      commit
      modifyResult fun result => { result with error := some .noResultError }) := by
    apply trails_commit.bind
    intro _
    apply trails_modify
  apply (obeys_markTaskAttemptDispatched_trail n hblank).bind_maintains
  intro marked
  apply Maintains.ite
  · apply (maintains_throw _).bind
    intro _
    apply hend
  · apply hend

/-- A pending attempt is marked by a transaction that has recorded none. -/
theorem obeys_reconcilePending_trail (hblank : c.Blank) :
  Obeys (Trail.protocol terms) (reconcilePending i) (fun _ _ _ => True) s c
  := by
  rw [reconcilePending, obeys_bind, getLatestPendingTaskAttempt, obeys_execute]
  use hblank
  rintro (e | _ | row) c' hmoves
  · trivial
  · trivial
  · obtain ⟨-, rfl⟩ := hmoves
    rw [next_ok]
    simp only []
    apply Obeys.bind_maintains
    · apply obeys_markTaskAttemptDispatched_trail
      apply hblank
    · intro marked
      apply Maintains.ite
      · apply maintains_throw
      · apply maintains_pure

/-! ### Recording -/

/-- What a pass knows of the row it has loaded: it has the terms of its execution, and its message
is one of this execution. -/
structure Knows (terms : UUID → Option (UUID × ℕ)) (ctx : ErrorContext) : Prop where
  message : ctx.message.extractTaskExecutionId = some ctx.taskExecutionId
  terms : ∀ task, ctx.task = some task → terms ctx.taskExecutionId = some task.terms

section Decision

variable {settings : Settings} {ctx : ErrorContext} {attempt : OnErrorAttempt}

/-- The attempt that a decision about a retry is recorded with fits the execution. -/
theorem fits_of_shouldRetry {task : TaskExecution} (hctx : ctx.task = some task)
    (hretry : (settings.resolveRetryDecision ctx attempt).shouldRetry = true)
    {before after : TaskStatus} {d : TaskDispatchResult} (hafter : after = d.statusAfter)
    (hbefore : d = .dispatchFailed → before = .retrying) :
  TaskAttempt.Fits
    { taskExecutionId := ctx.taskExecutionId
      tenantId := task.tenantId
      attemptNumber := (settings.resolveRetryDecision ctx attempt).attemptNumber
      statusBefore := before
      statusAfter := after
      errorDetail := some ctx.errorDetail
      dispatchResult := d } task.terms
  := by
  rw [settings.shouldRetry_resolveRetryDecision attempt hctx, decide_eq_true_eq] at hretry
  constructor
  · rfl
  · rw [settings.attemptNumber_resolveRetryDecision attempt hctx]
    apply Nat.le_add_left
  · rw [settings.attemptNumber_resolveRetryDecision attempt hctx]
    apply hretry
  · rfl
  · apply hafter
  · apply hbefore

/-- A retry that is allowed is due. -/
theorem shouldRetry_of_retryAllowed {task : TaskExecution} (hctx : ctx.task = some task)
    (hallowed : (settings.resolveRetryDecision ctx attempt).retryAllowed = true) :
  (settings.resolveRetryDecision ctx attempt).shouldRetry = true
  := by
  rw [settings.retryAllowed_resolveRetryDecision attempt hctx, Bool.and_eq_true] at hallowed
  rw [settings.shouldRetry_resolveRetryDecision attempt hctx]
  apply hallowed.1

/-- An attempt is recorded when it fits the execution. -/
theorem trails_recordTaskAttempt {row : TaskAttempt} {t : UUID × ℕ}
    (hterms : terms row.taskExecutionId = some t) (hfits : row.Fits t) :
  Trails terms (execute (.insertAttempt row))
  := by
  apply maintains_execute
  apply trails_perform
  intro _
  exact ⟨t, hterms, hfits⟩

/-- The first write of an error hook records an attempt that fits the execution, and a pending one
when the retry is allowed. -/
theorem obeys_recordInitialErrorStatus_trail (hctx : Knows terms ctx)
    (hnew : (settings.resolveRetryDecision ctx attempt).retryAlreadyRecorded = false) :
  Obeys (Trail.protocol terms)
    (recordInitialErrorStatus ctx (settings.resolveRetryDecision ctx attempt))
    (fun r _ c' => r = .ok () →
      (settings.resolveRetryDecision ctx attempt).retryAllowed = true →
      ctx.taskExecutionId ∈ c'.own.filterMap Effect.records) s c
  := by
  rw [recordInitialErrorStatus, obeys_bind]
  apply (tracks_trail.updateTaskStatus _ _ _ s c trivial).mono
  rintro (e | _) s' c' _
  · rintro ⟨⟩
  · rw [next_ok, obeys_bind, modifyAttempt, obeys_modify, next_ok]
    cases htask : ctx.task with
    | none =>
        rintro _ hallowed
        have hsome := Settings.task_isSome_of_retryAllowed hallowed
        rw [htask] at hsome
        cases hsome
    | some task =>
        have hterms := hctx.terms task htask
        rw [settings.retryAlreadyRecorded_resolveRetryDecision attempt htask] at hnew
        have hstatus := settings.status_resolveRetryDecision attempt htask hnew
        simp only []
        split
        case isTrue hrefused =>
          simp only [Bool.and_eq_true, Bool.not_eq_true'] at hrefused
          obtain ⟨hretry, hallowed⟩ := hrefused
          rw [hallowed, recordTaskAttempt, obeys_execute]
          constructor
          · refine ⟨task.terms, hterms, ?_⟩
            apply fits_of_shouldRetry htask hretry
            · rw [hstatus, hallowed]
              cases (settings.resolveRetryDecision ctx attempt).retryShadowed with
              | true => rfl
              | false => rfl
            · cases (settings.resolveRetryDecision ctx attempt).retryShadowed with
              | true => rintro ⟨⟩
              | false => rintro ⟨⟩
          · rintro r c'' _ _ ⟨⟩
        case isFalse =>
          split
          case isTrue hallowed =>
            rw [obeys_bind, modifyAttempt, obeys_modify, next_ok, recordTaskAttempt, obeys_execute]
            constructor
            · refine ⟨task.terms, hterms, ?_⟩
              apply fits_of_shouldRetry htask (shouldRetry_of_retryAllowed htask hallowed)
              · rfl
              · rintro ⟨⟩
            · rintro (e | _) c'' hmoves
              · rintro ⟨⟩
              · obtain rfl : c'' = { c' with own := c'.own ++ _ } := hmoves
                intro _ _
                rw [List.filterMap_append]
                apply List.mem_append_right
                simp [Statement.effects, Effect.records]
          case isFalse hallowed =>
            intro _ h
            exact absurd h hallowed

/-! ### Sending -/

/-- A message is sent when an open attempt of its execution is committed. -/
theorem obeys_dispatchRetry_trail (hctx : Knows terms ctx)
    (hallowed : (settings.resolveRetryDecision ctx attempt).retryAllowed = true)
    (hrecorded : ctx.taskExecutionId ∈ c.recorded) (hblank : c.Blank) :
  Obeys (Trail.protocol terms) (dispatchRetry ctx (settings.resolveRetryDecision ctx attempt))
    (fun _ _ _ => True) s c
  := by
  rw [dispatchRetry, requeue, obeys_bind, obeys_perform]
  use ⟨_, hrecorded, hctx.message⟩
  rintro requeued _ rfl
  rw [next_ok]
  split
  · rw [obeys_bind, obeys_get, next_ok]
    apply (obeys_markDispatched_trail _ _ hblank).bind_maintains
    intro _
    apply maintains_pure
  · have hend : Trails terms (do
        commit
        pure (TaskStatus.failed, "Task failed (retry dispatch error)")) := by
      apply trails_commit.bind
      intro _
      apply maintains_pure
    apply (tracks_trail.updateTaskStatus _ _ _).bind _ s _ trivial
    intro _
    apply (trails_modify _).bind
    intro _
    cases htask : ctx.task with
    | none => apply hend
    | some task =>
        apply Maintains.bind
        · apply trails_recordTaskAttempt (hctx.terms task htask)
          apply fits_of_shouldRetry htask
          · apply shouldRetry_of_retryAllowed htask hallowed
          · rfl
          · intro _
            rfl
        · intro _
          apply hend

/-- An attempt that is found is committed before its message is sent. -/
theorem obeys_recoverRetry_trail (hctx : Knows terms ctx)
    (hallowed : (settings.resolveRetryDecision ctx attempt).retryAllowed = true)
    (hblank : c.Blank) :
  Obeys (Trail.protocol terms) (recoverRetry ctx (settings.resolveRetryDecision ctx attempt))
    (fun _ _ _ => True) s c
  := by
  rw [recoverRetry, obeys_bind, obeys_get, next_ok, obeys_bind, getTaskAttemptDispatchState,
    getLatestPendingOrDispatchedTaskAttempt, obeys_execute]
  use hblank
  rintro (e | _ | row) c' hmoves
  · trivial
  · trivial
  · obtain ⟨hholds, rfl⟩ := hmoves
    have hrow : row.taskExecutionId = ctx.taskExecutionId := by
      simp only [AttemptFilter.holds, Bool.and_eq_true, decide_eq_true_eq] at hholds
      apply hholds.1.1
    rw [next_ok]
    simp only []
    split
    · apply Obeys.bind_maintains
      · apply obeys_markDispatched_trail
        apply hblank
      · intro _
        apply maintains_pure
    · rw [obeys_bind, obeys_commit]
      use trivial
      rintro (e | _) _ rfl
      · trivial
      · apply obeys_dispatchRetry_trail hctx hallowed
        · apply List.mem_append_right
          rw [← hrow]
          apply List.mem_cons_self ..
        · rintro row ⟨⟩

/-- A pass keeps the trail when its transaction has recorded no attempt yet. -/
theorem obeys_recordDecision_trail (hctx : Knows terms ctx) (hblank : c.Blank) :
  Obeys (Trail.protocol terms) (recordDecision ctx (settings.resolveRetryDecision ctx attempt))
    (fun _ _ _ => True) s c
  := by
  rw [recordDecision]
  split
  case isTrue hallowed =>
    split
    case isTrue => apply obeys_recoverRetry_trail hctx hallowed hblank
    case isFalse hnew =>
      rw [recordRetry, obeys_bind]
      apply (obeys_reconcilePending_trail hblank).mono
      rintro (e | _) s' c' _
      · trivial
      · rw [next_ok, obeys_bind]
        apply (obeys_recordInitialErrorStatus_trail hctx (Bool.not_eq_true _ ▸ hnew)).mono
        rintro (e | _) s'' c'' hrecorded
        · trivial
        · rw [next_ok, obeys_bind, obeys_commit]
          use trivial
          rintro (e | _) _ rfl
          · trivial
          · apply obeys_dispatchRetry_trail hctx hallowed
            · apply List.mem_append_left _ (hrecorded rfl hallowed)
            · rintro row ⟨⟩
  case isFalse =>
    have hend : Trails terms (do
        commit
        pure ((settings.resolveRetryDecision ctx attempt).status,
          (settings.resolveRetryDecision ctx attempt).statusMsg)) := by
      apply trails_commit.bind
      intro _
      apply maintains_pure
    rw [recordFailure]
    split
    case isTrue hnew =>
      rw [Bool.not_eq_true'] at hnew
      apply ((obeys_recordInitialErrorStatus_trail hctx hnew).mono _).bind_maintains
      · intro _
        apply hend
      · intro _ _ _ _
        trivial
    case isFalse => apply hend s c trivial

end Decision

/-- A pass keeps the trail in a session that was just opened. -/
theorem obeys_errorSession_trail (settings : Settings) {message : TaskiqMessage}
    (hmessage : message.extractTaskExecutionId = some i) (exception : PyException)
    (hmap : s.identityMap = fun _ => none) (hblank : c.Blank) :
  Obeys (Trail.protocol terms) (errorSession settings message exception i) (fun _ _ _ => True) s c
  := by
  have hload : Obeys (Trail.protocol terms) (getTaskExecution i none)
      (fun r _ c' => ∀ task, r = .ok task → c'.Blank ∧
        ∀ row, task = some row → terms i = some row.terms) s c := by
    apply obeys_getTaskExecution trivial
    · rintro e _ _ task ⟨⟩
    · rintro c' rfl task ⟨⟩
      constructor
      · intro row hrow
        rcases List.mem_append.mp hrow with hrow | hrow
        · apply hblank row hrow
        · cases hrow
      · rintro row ⟨⟩
    · rintro row _ ⟨-, hterms, rfl⟩
      constructor
      · intro task htask
        rw [hmap] at htask
        cases htask
      · rintro - task ⟨⟩
        use hblank
        rintro row' ⟨⟩
        apply hterms
  rw [errorSession, obeys_bind]
  apply hload.mono
  rintro (e | task) s' c' hloaded
  · trivial
  · obtain ⟨hblank', hterms⟩ := hloaded task rfl
    rw [next_ok, obeys_bind, obeys_get, next_ok]
    apply Obeys.bind_maintains
    · apply obeys_recordDecision_trail ⟨hmessage, hterms⟩ hblank'
    · intro emitted
      apply Maintains.ite
      · apply (trails_modify _).bind
        intro _
        apply maintains_pure
      · apply maintains_pure

theorem trails_onError (settings : Settings) (message : TaskiqMessage) (exception : PyException) :
  Trails terms (onError settings message exception)
  := by
  have hsession {i : UUID} (hmessage : message.extractTaskExecutionId = some i) :
      Trails terms (withSession (errorSession settings message exception i)) := by
    intro s c _
    apply obeys_withSession trivial
    rintro _ rfl
    apply (obeys_errorSession_trail settings hmessage exception rfl (by rintro row ⟨⟩)).mono
    intro _ _ _ _
    exact ⟨trivial, fun _ _ => trivial⟩
  rw [onError]
  split
  case h_1 => apply maintains_pure
  case h_2 i hmessage =>
    apply (trails_modify _).bind
    intro _
    apply Maintains.createDbRetry
    apply (hsession hmessage).bind
    rintro ⟨status, statusMsg⟩
    apply maintains_emitStatusEvent tracks_trail.emit

/-- All the work keeps the trail. -/
theorem works_trail (terms : UUID → Option (UUID × ℕ)) (sets : TaskStatus → Prop) :
  Works (Trail.protocol terms) (fun _ => True) sets
  where
  preExecute := tracks_trail.preExecute
  postExecute := tracks_trail.postExecute
  onError := trails_onError
  body _ := trails_perform (fun _ => trivial)
  setStatus i status fields _ := tracks_trail.setStatus i status fields

end Hook

end WorkerTemplate
