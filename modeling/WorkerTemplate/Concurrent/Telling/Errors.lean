import WorkerTemplate.Concurrent.Telling.Protocol

/-!
# What an error hook tells

An error hook emits the event of the status that it has decided on after the session that committed
it, or that found it committed.
-/

namespace WorkerTemplate

open Statuses

namespace Hook

open Telling

variable {α β : Type} {i j : UUID} {s : Invocation} {c : Knowledge}

/-- What a session knows is not lost by what it does to the audit. -/
abbrev Retains (i : UUID) (known : TaskStatus → Prop) (h : Hook α) : Prop :=
  Sustains (Telling.protocol i) (fun _ _ => True)
    (fun s c => Announced i s c ∧ ∀ status, known status → c.Knows status) h

variable {known : TaskStatus → Prop}

theorem Retains.brings {h : Hook α} (hh : Retains i c.Knows h) (hs : Announced i s c) :
  Brings i h (fun _ s' c' => Announced i s' c' ∧ ∀ status, c.Knows status → c'.Knows status) s c
  := by
  apply Obeys.mono (hh s c trivial ⟨hs, fun _ hstatus => hstatus⟩)
  rintro r s' c' ⟨-, hr⟩
  apply hr

theorem retains_execute {st : Statement} (hst : st.effects.filterMap (sets i) = [])
    (hread : ∀ k tenantId, st ≠ .selectExecution k tenantId) :
  Retains i known (execute st)
  := by
  apply sustains_execute
  · rintro s c - -
    trivial
  · rintro s c a c' - ⟨hs, hknown⟩ hmoves
    have hc' : c' = c := by
      have hwrite : c' = c.write i st.effects := by
        cases st with
        | selectExecution k tenantId => exact absurd rfl (hread k tenantId)
        | selectAttempt filter => exact hmoves
        | updateExecution k changes => exact hmoves
        | insertAttempt row => exact hmoves
        | updateAttempt id d => exact hmoves
      rw [hwrite, Knowledge.write, wrote, hst]
      rfl
    rw [hc']
    exact ⟨trivial, hs, hknown⟩
  · intro _ _ _ _ _ _
    trivial

theorem retains_recordTaskAttempt {j tenantId : UUID} {n : ℕ} {before after : TaskStatus}
    {errorDetail : Option String} {d : TaskDispatchResult} :
  Retains i known (recordTaskAttempt j tenantId n before after errorDetail d)
  := retains_execute rfl (by rintro _ _ ⟨⟩)

theorem retains_markTaskAttemptDispatched (j : UUID) (n : ℕ) :
  Retains i known (markTaskAttemptDispatched j n)
  := by
  apply (retains_execute rfl (by rintro _ _ ⟨⟩)).bind
  rintro (_ | attempt)
  · apply sustains_pure
  · apply Sustains.ite
    · apply (retains_execute rfl (by rintro _ _ ⟨⟩)).bind
      intro _
      apply sustains_pure
    · apply sustains_pure

theorem retains_reconcilePending (j : UUID) :
  Retains i known (reconcilePending j)
  := by
  apply (retains_execute rfl (by rintro _ _ ⟨⟩)).bind
  rintro (_ | attempt)
  · apply sustains_pure
  · apply (retains_markTaskAttemptDispatched j _).bind
    intro marked
    apply Sustains.ite
    · apply sustains_throw
    · apply sustains_pure

/-- What a session knows has happened when it has marked an attempt. -/
theorem brings_markDispatched (hs : Announced i s c) (j : UUID) (n : ℕ) (notFound : String) :
  Brings i (markDispatched j n notFound) (fun _ _ c' => ∀ status, c.Knows status → status ∈ c'.held)
    s c
  := by
  have hend {s' : Invocation} {c' : Knowledge} (hc' : ∀ status, c.Knows status → c'.Knows status) :
      Brings i (do
        commit
        modifyResult fun result => { result with error := some .noResultError })
        (fun _ _ c'' => ∀ status, c.Knows status → status ∈ c''.held) s' c' := by
    apply (brings_commit s' c').bind
    rintro _ s'' c'' ⟨-, hsettled⟩ a - status hstatus
    apply hsettled status (hc' status hstatus)
  rw [markDispatched]
  apply ((retains_markTaskAttemptDispatched j n).brings hs).bind
  rintro marked s' c' ⟨-, hc'⟩
  split
  · rintro a ⟨⟩
  · apply hend hc'

section Decision

variable {ctx : ErrorContext} {decision : RetryDecision}

/-- The status of a decision is known when it is recorded. -/
theorem brings_recordInitialErrorStatus (hs : Announced i s c) :
  Brings i (recordInitialErrorStatus ctx decision)
    (fun _ s' c' => Announced i s' c' ∧ (ctx.taskExecutionId = i → c'.Knows decision.status)) s c
  := by
  rw [recordInitialErrorStatus]
  apply (brings_updateTaskStatus hs _ _ _).bind
  rintro _ s' c' ⟨hs', -, hstatus⟩
  have hkept {h : Hook Unit} (hh : Retains i c'.Knows h) {s' : Invocation}
      (hs' : Announced i s' c') : Brings i h (fun _ s'' c'' =>
        Announced i s'' c'' ∧ (ctx.taskExecutionId = i → c''.Knows decision.status)) s' c' := by
    apply (hh.brings hs').mono
    rintro _ s'' c'' ⟨hs'', hknown⟩
    exact ⟨hs'', fun hi => hknown _ (hstatus hi)⟩
  rw [Brings, obeys_bind, modifyAttempt, obeys_modify, next_ok]
  cases ctx.task with
  | none =>
      rintro a -
      exact ⟨⟨hs'.keyed, hs'.known⟩, hstatus⟩
  | some task =>
      simp only []
      split
      · apply hkept retains_recordTaskAttempt
        exact ⟨hs'.keyed, hs'.known⟩
      · split
        · rw [obeys_bind, modifyAttempt, obeys_modify, next_ok]
          apply hkept retains_recordTaskAttempt
          exact ⟨hs'.keyed, hs'.known⟩
        · rintro a -
          exact ⟨⟨hs'.keyed, hs'.known⟩, hstatus⟩

/-- The status of a retry that was sent, or could not be sent, has been the one of the execution. -/
theorem brings_dispatchRetry (hs : Announced i s c)
    (hstatus : ctx.taskExecutionId = i → decision.status ∈ c.held) :
  Brings i (dispatchRetry ctx decision)
    (fun emitted _ c' => ctx.taskExecutionId = i → emitted.1 ∈ c'.held) s c
  := by
  have hend {s : Invocation} {c : Knowledge} (hfailed : ctx.taskExecutionId = i → c.Knows .failed) :
      Brings i (do
        commit
        pure (TaskStatus.failed, "Task failed (retry dispatch error)"))
        (fun emitted _ c' => ctx.taskExecutionId = i → emitted.1 ∈ c'.held) s c := by
    apply (brings_commit s c).bind
    rintro _ s' c' ⟨-, hsettled⟩ a ⟨⟩ hi
    apply hsettled _ (hfailed hi)
  rw [dispatchRetry, Brings, obeys_bind, requeue, obeys_perform]
  use trivial
  rintro requeued _ rfl
  rw [next_ok]
  split
  · rw [obeys_bind, obeys_get, next_ok]
    apply (brings_markDispatched hs _ _ _).bind
    rintro _ s' c' hsettled a ⟨⟩ hi
    apply hsettled _ (Or.inr (hstatus hi))
  · apply (brings_updateTaskStatus hs _ .failed _).bind
    rintro _ s' c' ⟨hs', -, hfailed⟩
    rw [Brings, obeys_bind, modifyAttempt, obeys_modify, next_ok]
    cases ctx.task with
    | none => apply hend hfailed
    | some task =>
        apply Brings.bind
        · apply Retains.brings retains_recordTaskAttempt
          exact ⟨hs'.keyed, hs'.known⟩
        · rintro _ s'' c'' ⟨-, hknown⟩
          apply hend
          intro hi
          apply hknown _ (hfailed hi)

/-- A retry that was recorded before is sent when its status has been the one of the execution. -/
theorem brings_recoverRetry (hs : Announced i s c)
    (hstatus : ctx.taskExecutionId = i → c.Knows decision.status) :
  Brings i (recoverRetry ctx decision)
    (fun emitted _ c' => ctx.taskExecutionId = i → emitted.1 ∈ c'.held) s c
  := by
  have hselect : Retains i c.Knows (getTaskAttemptDispatchState ctx.taskExecutionId
      (s.attempt.attemptNumberOr decision.attemptNumber)) :=
    retains_execute rfl (by rintro _ _ ⟨⟩)
  rw [recoverRetry, Brings, obeys_bind, obeys_get, next_ok]
  apply (hselect.brings hs).bind
  rintro (_ | attempt) s' c' ⟨hs', hknown⟩
  · rintro a ⟨⟩
  · simp only []
    split
    · apply (brings_markDispatched hs' _ _ _).bind
      rintro _ s'' c'' hsettled a ⟨⟩ hi
      apply hsettled _ (hknown _ (hstatus hi))
    · apply (brings_commit s' c').bind
      rintro _ s'' c'' ⟨rfl, hsettled⟩
      apply brings_dispatchRetry
      · apply hs'.mono
        intro status hc'
        right
        apply hsettled _ hc'
      · intro hi
        apply hsettled _ (hknown _ (hstatus hi))

/-- A decision that was made before is the status of the row. -/
theorem status_resolveRetryDecision_of_recorded {settings : Settings} {attempt : OnErrorAttempt}
    {row : TaskExecution} (hctx : ctx.task = some row)
    (hrecorded : (settings.resolveRetryDecision ctx attempt).retryAlreadyRecorded = true) :
  (settings.resolveRetryDecision ctx attempt).status = row.status
  := by
  rw [settings.retryAlreadyRecorded_resolveRetryDecision attempt hctx] at hrecorded
  have hstatus := ((attempt.recognizes_iff row).mp hrecorded).1
  simp only [Settings.resolveRetryDecision, hctx, hrecorded, if_true, hstatus, Option.getD_some]

/-- What a pass emits has been the status of the execution. -/
theorem brings_recordDecision {settings : Settings} {attempt : OnErrorAttempt}
    (hs : Announced i s c) (hnone : ctx.task = none → ctx.taskExecutionId ≠ i)
    (htask : ∀ row, ctx.task = some row → ctx.taskExecutionId = i → c.Knows row.status) :
  Brings i (recordDecision ctx (settings.resolveRetryDecision ctx attempt))
    (fun emitted _ c' => ctx.taskExecutionId = i → emitted.1 ∈ c'.held) s c
  := by
  have hrecorded (h : (settings.resolveRetryDecision ctx attempt).retryAlreadyRecorded = true)
      (hi : ctx.taskExecutionId = i) :
      c.Knows (settings.resolveRetryDecision ctx attempt).status := by
    cases hctx : ctx.task with
    | none => exact absurd hi (hnone hctx)
    | some row =>
        rw [status_resolveRetryDecision_of_recorded hctx h]
        apply htask row hctx hi
  rw [recordDecision]
  split
  · split
    case isTrue h => apply brings_recoverRetry hs (hrecorded h)
    case isFalse =>
      apply ((retains_reconcilePending _).brings hs).bind
      rintro _ s₁ c₁ ⟨hs₁, -⟩
      apply (brings_recordInitialErrorStatus hs₁).bind
      rintro _ s₂ c₂ ⟨hs₂, hstatus⟩
      apply (brings_commit s₂ c₂).bind
      rintro _ s₃ c₃ ⟨rfl, hsettled⟩
      apply brings_dispatchRetry
      · apply hs₂.mono
        intro status hc₂
        right
        apply hsettled _ hc₂
      · intro hi
        apply hsettled _ (hstatus hi)
  · have hend {s' : Invocation} {c' : Knowledge} (hstatus : ctx.taskExecutionId = i →
          c'.Knows (settings.resolveRetryDecision ctx attempt).status) :
        Brings i (do
          commit
          pure ((settings.resolveRetryDecision ctx attempt).status,
            (settings.resolveRetryDecision ctx attempt).statusMsg))
          (fun emitted _ c'' => ctx.taskExecutionId = i → emitted.1 ∈ c''.held) s' c' := by
      apply (brings_commit s' c').bind
      rintro _ s'' c'' ⟨-, hsettled⟩ a ⟨⟩ hi
      apply hsettled _ (hstatus hi)
    rw [recordFailure]
    split
    · apply (brings_recordInitialErrorStatus hs).bind
      rintro _ s' c' ⟨-, hstatus⟩
      apply hend hstatus
    case isFalse h =>
      apply hend (hrecorded (by simpa using h))

end Decision

theorem brings_onError (settings : Settings) (message : TaskiqMessage) (exception : PyException) :
  Brings i (onError settings message exception) (fun _ _ _ => True) s c
  := by
  rw [onError]
  split
  case h_1 =>
    intro a _
    trivial
  case h_2 j hid =>
    rw [Brings, obeys_bind, modifyAttempt, obeys_modify, next_ok]
    apply brings_createDbRetry
    intro s c
    have hsession : Brings i (withSession (errorSession settings message exception j))
        (fun emitted _ c' => j = i → emitted.1 ∈ c'.held) s c := by
      apply brings_withSession
        (p := fun (emitted : TaskStatus × String) held => j = i → emitted.1 ∈ held)
      apply (brings_getTaskExecution (announced_new s _) j).bind
      rintro task s' c' ⟨hs', -, hnone, htask⟩
      rw [Brings, obeys_bind, obeys_get, next_ok]
      apply Brings.bind (brings_recordDecision hs' hnone _)
      · rintro emitted s'' c'' hemitted
        split
        · rw [Brings, obeys_bind, modifyResult, obeys_modify, next_ok]
          rintro a ⟨⟩
          apply hemitted
        · rintro a ⟨⟩
          apply hemitted
      · rintro row hrow rfl
        apply hs'.known row (htask row hrow)
    apply hsession.bind
    rintro ⟨status, statusMsg⟩ s' c' hstatus
    apply brings_emitStatusEvent
    intro hi
    rw [hid] at hi
    apply hstatus (Option.some_injective _ hi)

/-- All the work emits only what it knows. -/
theorem works_telling (i : UUID) :
  Works (Telling.protocol i) (fun _ => True) (fun _ => True)
  := by
  have hmaintains {h : Hook Unit} (hh : ∀ s c, Brings i h (fun _ _ _ => True) s c) :
      Maintains (Telling.protocol i) (fun _ _ => True) h := by
    rintro s c -
    apply Obeys.mono (hh s c)
    intro _ _ _ _
    trivial
  constructor
  · intro settings message
    apply hmaintains (fun _ _ => brings_preExecute settings message)
  · intro settings message
    apply hmaintains (fun _ _ => brings_postExecute settings message)
  · intro settings message exception
    apply hmaintains (fun _ _ => brings_onError settings message exception)
  · intro message
    apply maintains_perform
    · rintro s c -
      trivial
    · intro _ _ _ _ _ _
      trivial
  · rintro k status fields -
    apply hmaintains
    intro s c
    apply (brings_setStatus k status fields).mono
    intro _ _ _ _
    trivial

end Hook

end WorkerTemplate
