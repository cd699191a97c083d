import WorkerTemplate.Chain.Agreement
import WorkerTemplate.Middleware.Decision
import WorkerTemplate.Receiver

/-!
# The delivery of a message in a chain

A worker that has taken the message leads.  It ends the chain, when its body succeeds or the
retries are exhausted, or it sends the message on and trails.
-/

namespace WorkerTemplate

/-- Setting a status other than retrying keeps the retries. -/
theorem Chain.Row.assign {chain : Chain} {n : ℕ} {row : TaskExecution} (h : chain.Row n row)
    {status : TaskStatus} (hstatus : status ≠ .retrying) (fields : StatusUpdate) (now : Time) :
  chain.Row n (row.assign status fields now)
  where
  id := h.id
  tenant := h.tenant
  maxRetries := h.maxRetries
  retryCount := by
    change (if status = .retrying then row.retryCount + 1 else row.retryCount) = n
    rw [if_neg hstatus, h.retryCount]

/-- The leading worker between two transactions. -/
def Lead.rest (row : TaskExecution) (outcome : Option (Option PyException)) (telling : Telling) :
    Lead where
  row := row
  view := row
  outcome := outcome
  telling := telling

/-- The hooks of a message are announced. -/
def Settings.Announces (settings : Settings) (message : TaskiqMessage) : Prop :=
  settings.emitterInitialized = true ∧ message.extractTenantId.isSome = true

namespace Hook

variable {chain : Chain} {s : Invocation} {lead : Lead} {n : ℕ} {row : TaskExecution}
  {outcome : Option (Option PyException)} {telling : Telling} {settings : Settings}

/-! ### Services -/

/-- The instance that a session has loaded is the row it reads. -/
def Loads (chain : Chain) (s : Invocation) (lead : Lead) : Prop :=
  ∀ task, s.identityMap chain.execution = some task → task = lead.view

theorem yields_getTaskExecution (hdue : lead.due = false) (hid : lead.view.id = chain.execution)
    (hloads : Loads chain s lead) :
  Yields chain (getTaskExecution chain.execution none) (fun task s' part' =>
    part' = .leads lead ∧ task = some lead.view ∧
      s'.identityMap chain.execution = some lead.view ∧ s'.attempt = s.attempt ∧
      s'.result = s.result) s (.leads lead)
  := by
  rw [getTaskExecution]
  apply yields_leads_execute_bind hdue
  · rfl
  rintro _ lead' ⟨rfl, hlead⟩
  obtain rfl : lead = lead' := hlead.symm
  apply yields_get_bind
  rw [hid]
  cases hmap : s.identityMap chain.execution with
  | some task =>
      obtain rfl := hloads task hmap
      apply yields_pure ⟨rfl, rfl, hmap, rfl, rfl⟩
  | none =>
      apply yields_modify_bind
      apply yields_pure ⟨rfl, rfl, Invocation.identityMap_keep_of_id s lead.view hid, rfl, rfl⟩

/-- The leading worker after it has updated the row. -/
def written (lead : Lead) (status : TaskStatus) (fields : StatusUpdate) (now : Time) : Lead :=
  { lead with view := lead.view.assign status fields now, dirty := true }

theorem yields_updateTaskStatus (hdue : lead.due = false) (hid : lead.view.id = chain.execution)
    (hloads : Loads chain s lead) (status : TaskStatus) (fields : StatusUpdate) :
  Yields chain (updateTaskStatus chain.execution status fields) (fun _ s' part' => ∃ now,
    part' = .leads (written lead status fields now) ∧
      Loads chain s' (written lead status fields now) ∧ s'.attempt = s.attempt ∧
      s'.result = s.result) s (.leads lead)
  := by
  rw [updateTaskStatus]
  apply (yields_getTaskExecution hdue hid hloads).bind
  rintro _ s₁ part₁ ⟨rfl, rfl, hmap, hattempt, hresult⟩
  apply yields_perform_bind
  · exact trivial
  rintro now part₂ hmoves
  obtain rfl : part₂ = .leads lead := hmoves
  apply yields_leads_execute_bind hdue
  · apply hid
  rintro _ lead₃ hmoves
  obtain rfl : lead₃ = written lead status fields now := by
    rw [hmoves, TaskExecution.set_changes_assign]
    rfl
  have hrefresh : Yields chain (refresh lead.view) (fun _ s' part' =>
      s' = s₁.keep (lead.view.assign status fields now) ∧
        part' = .leads (written lead status fields now)) s₁
      (.leads (written lead status fields now)) := by
    have hdue' : (written lead status fields now).due = false := hdue
    rw [refresh]
    apply yields_leads_execute_bind hdue'
    · apply hid
    rintro _ lead' ⟨rfl, hlead⟩
    obtain rfl : written lead status fields now = lead' := hlead.symm
    apply yields_modify_bind
    apply yields_pure ⟨rfl, rfl⟩
  apply hrefresh.bind
  rintro _ _ _ ⟨rfl, rfl⟩
  refine yields_pure ⟨now, rfl, ?_, hattempt, hresult⟩
  intro task htask
  rw [Invocation.identityMap_keep_of_id] at htask
  · apply (Option.some_injective _ htask).symm
  · apply hid

/-- The leading worker commits. -/
theorem yields_leads_commit (hdue : lead.due = false) (hcommits : lead.Commits) :
  Yields chain commit (fun _ s' part' => s' = s ∧ part' = .leads lead.commit) s (.leads lead)
  := by
  apply yields_commit
  · exact ⟨hdue, hcommits⟩
  · rintro r part' ⟨rfl, rfl⟩
    exact ⟨(), rfl, rfl, rfl⟩

/-- Setting a status other than retrying in a session of its own. -/
theorem yields_setStatus (hrow : chain.Row n row) {status : TaskStatus}
    (hstatus : status ≠ .retrying) (hfirst : telling = .nothing → status = .running)
    (fields : StatusUpdate) :
  Yields chain (setStatus chain.execution status fields) (fun _ s' part' => ∃ now,
    part' = .leads (.rest (row.assign status fields now) outcome .due) ∧
      s'.attempt = s.attempt ∧ s'.result = s.result) s (.leads (.rest row outcome telling))
  := by
  rw [setStatus]
  apply yields_withSession
  · exact rfl
  rintro part' hmoves
  obtain rfl : part' = .leads (.rest row outcome telling) := hmoves
  have hloads :
      Loads chain { s with identityMap := fun _ => none } (.rest row outcome telling) := by
    rintro task ⟨⟩
  apply (yields_updateTaskStatus rfl hrow.id hloads status fields).bind
  rintro - s₁ part₁ ⟨now, rfl, -, hattempt, hresult⟩
  have hcount : (row.assign status fields now).retryCount = row.retryCount := by
    rw [(hrow.assign hstatus fields now).retryCount, hrow.retryCount]
  apply (yields_leads_commit rfl ⟨hfirst, Or.inl ⟨rfl, hcount⟩⟩).mono
  rintro - _ part₂ ⟨rfl, rfl⟩
  refine ⟨rfl, ?_⟩
  rintro part₃ hmoves
  obtain rfl : part₃ = _ := hmoves
  exact ⟨now, rfl, hattempt, hresult⟩

/-- An event about the status that is announced. -/
theorem yields_emitStatusEvent {part : Part} {message : TaskiqMessage} {status : TaskStatus}
    (statusMessage errorDetail : Option String) {Q : Unit → Invocation → Part → Prop}
    (hid : message.extractTaskExecutionId.isSome = true)
    (hallows : ∀ room event, event.status = status.value → part.Allows chain (.emit room event))
    (hemitted : ∀ room event r part', part.Moves chain (.emit room event) r part' → Q () s part')
    (hsilent : ¬ settings.Announces message → Q () s part) :
  Yields chain (emitStatusEvent settings message status statusMessage errorDetail) Q s part
  := by
  have hevent {tenantId : UUID} (htenant : message.extractTenantId = some tenantId)
      (event : TaskEvent) (hstatus : event.status = status.value) :
      Yields chain (emitTaskEvent settings tenantId event) Q s part := by
    rw [emitTaskEvent]
    split
    case isTrue =>
      apply yields_perform_bind (hallows _ _ hstatus)
      intro r part' hmoves
      apply yields_pure (hemitted _ _ _ _ hmoves)
    case isFalse hoff =>
      apply yields_pure
      apply hsilent
      exact fun h => hoff h.1
  rw [emitStatusEvent]
  split
  case h_1 taskId tenantId _ htenant =>
    split
    · apply hevent htenant _ rfl
    · apply hevent htenant _ rfl
    · apply hevent htenant _ rfl
  case h_2 hnone =>
    apply yields_pure
    apply hsilent
    rintro ⟨-, htenant⟩
    obtain ⟨taskId, hid⟩ := Option.isSome_iff_exists.mp hid
    obtain ⟨tenantId, htenant⟩ := Option.isSome_iff_exists.mp htenant
    apply hnone taskId tenantId hid htenant

/-- The leading worker announces the status it has set. -/
theorem yields_announce (settings : Settings) (row : TaskExecution)
    (outcome : Option (Option PyException))
    (hi : chain.message.extractTaskExecutionId = some chain.execution)
    (statusMessage errorDetail : Option String) :
  Yields chain (emitStatusEvent settings chain.message row.status statusMessage errorDetail)
    (fun _ s' part' => s' = s ∧ ∃ telling, part' = .leads (.rest row outcome telling) ∧
      telling ≠ .nothing ∧ (settings.Announces chain.message → telling = .told)) s
    (.leads (.rest row outcome .due))
  := by
  apply yields_emitStatusEvent
  · rw [hi]
    rfl
  · intro room event hstatus
    exact ⟨rfl, hstatus⟩
  · intro room event r part' hmoves
    obtain rfl : part' = .leads (.rest row outcome .told) := hmoves
    exact ⟨rfl, .told, rfl, Telling.noConfusion, fun _ => rfl⟩
  · intro hsilent
    exact ⟨rfl, .due, rfl, Telling.noConfusion, fun h => absurd h hsilent⟩

/-! ### Before and after the body -/

/-- What a hook that sets a status leaves. -/
def Sets (chain : Chain) (settings : Settings) (n : ℕ) (outcome : Option (Option PyException))
    (status : TaskStatus) (s : Invocation) : Unit → Invocation → Part → Prop :=
  fun _ s' part' => s'.attempt = s.attempt ∧ s'.result = s.result ∧ ∃ row telling,
    part' = .leads (.rest row outcome telling) ∧ chain.Row n row ∧ row.status = status ∧
      telling ≠ .nothing ∧ (settings.Announces chain.message → telling = .told)

theorem yields_statusPass (hi : chain.message.extractTaskExecutionId = some chain.execution)
    (hrow : chain.Row n row) {status : TaskStatus} (hstatus : status ≠ .retrying)
    (hfirst : telling = .nothing → status = .running) (fields : StatusUpdate)
    (statusMessage errorDetail : Option String) :
  Yields chain (do
      setStatus chain.execution status fields
      emitStatusEvent settings chain.message status statusMessage errorDetail)
    (Sets chain settings n outcome status s) s (.leads (.rest row outcome telling))
  := by
  apply (yields_setStatus hrow hstatus hfirst fields).bind
  rintro - s₁ part₁ ⟨now, rfl, hattempt, hresult⟩
  apply (yields_announce settings (row.assign status fields now) outcome hi statusMessage
    errorDetail).mono
  rintro - _ part₂ ⟨rfl, telling', rfl, htelling⟩
  exact ⟨hattempt, hresult, _, telling', rfl, hrow.assign hstatus fields now, rfl, htelling⟩

theorem yields_preExecute (hi : chain.message.extractTaskExecutionId = some chain.execution)
    (hrow : chain.Row n row) :
  Yields chain (preExecute settings chain.message) (Sets chain settings n outcome .running s) s
    (.leads (.rest row outcome telling))
  := by
  rw [preExecute]
  apply Yields.dbRetry
  rw [hi]
  apply yields_statusPass hi hrow (by simp) (fun _ => rfl) _ _ _

/-- The hook after a body that has succeeded. -/
theorem yields_postExecute_succeeded
    (hi : chain.message.extractTaskExecutionId = some chain.execution) (hrow : chain.Row n row)
    (htelling : telling ≠ .nothing) (hresult : s.result = succeeded) :
  Yields chain (postExecute settings chain.message) (Sets chain settings n outcome .completed s) s
    (.leads (.rest row outcome telling))
  := by
  rw [postExecute]
  apply Yields.dbRetry
  rw [hi]
  apply yields_get_bind
  rw [hresult]
  simp only [succeeded, Bool.false_eq_true, if_false, reduceCtorEq]
  apply yields_statusPass hi hrow (by simp) (fun h => absurd h htelling) _ _ _

/-- The hook after a body that has raised, and whose retries are exhausted. -/
theorem yields_postExecute_raised
    (hi : chain.message.extractTaskExecutionId = some chain.execution) (hrow : chain.Row n row)
    (htelling : telling ≠ .nothing) {exception : PyException}
    (hexception : exception ≠ .noResultError) (hresult : s.result = raised exception) :
  Yields chain (postExecute settings chain.message) (Sets chain settings n outcome .failed s) s
    (.leads (.rest row outcome telling))
  := by
  rw [postExecute]
  apply Yields.dbRetry
  rw [hi]
  apply yields_get_bind
  rw [hresult]
  simp only [raised, Option.some.injEq, hexception, if_false, Bool.false_eq_true, if_true]
  apply yields_statusPass hi hrow (by simp) (fun h => absurd h htelling) _ _ _

/-- The hook after a body whose message has been sent on does nothing. -/
theorem yields_postExecute_sent {part : Part}
    (hi : chain.message.extractTaskExecutionId = some chain.execution)
    (hresult : s.result.error = some .noResultError) :
  Yields chain (postExecute settings chain.message) (fun _ s' part' => s' = s ∧ part' = part) s part
  := by
  rw [postExecute]
  apply Yields.dbRetry
  rw [hi]
  apply yields_get_bind
  rw [if_pos hresult]
  apply yields_pure ⟨rfl, rfl⟩

/-! ### After an error -/

/-- Taking the pending row for marked. -/
theorem yields_markTaskAttemptDispatched (hdue : lead.due = false) (hnoted : lead.noted = false)
    (hone : 1 ≤ lead.row.retryCount) :
  Yields chain (markTaskAttemptDispatched chain.execution lead.row.retryCount)
    (fun marked s' part' => marked = true ∧ s' = s ∧ ∃ dirty,
      part' = .leads { lead.settle with dirty := dirty }) s (.leads lead)
  := by
  rw [markTaskAttemptDispatched, getLatestPendingOrDispatchedTaskAttempt]
  apply yields_leads_execute_bind hdue
  · exact ⟨rfl, rfl, hone, hnoted⟩
  rintro _ lead₁ ⟨attempt, rfl, ⟨hpending, -, rfl⟩ | ⟨hne, rfl⟩⟩
  · have hdue' : ({ lead with seen := some attempt } : Lead).due = false := hdue
    simp only [hpending, if_true]
    apply yields_leads_execute_bind hdue'
    · exact ⟨rfl, attempt, rfl, rfl⟩
    rintro _ lead₂ hlead
    obtain rfl : _ = lead₂ := hlead.symm
    apply yields_pure ⟨rfl, rfl, true, rfl⟩
  · simp only [hne, if_false]
    apply yields_pure ⟨rfl, rfl, lead.dirty, rfl⟩

/-- Reconciling leaves no pending row. -/
theorem yields_reconcilePending (hdue : lead.due = false) (hnoted : lead.noted = false) :
  Yields chain (reconcilePending chain.execution) (fun _ s' part' => s' = s ∧ ∃ dirty,
    part' = .leads { lead.settle with dirty := dirty }) s (.leads lead)
  := by
  rw [reconcilePending, getLatestPendingTaskAttempt]
  apply yields_leads_execute_bind hdue
  · exact ⟨rfl, hnoted⟩
  rintro _ lead₁ (⟨rfl, rfl⟩ | ⟨attempt, rfl, hnumber, hone, hlead⟩)
  · apply yields_pure ⟨rfl, lead.dirty, rfl⟩
  · obtain rfl : lead = lead₁ := hlead.symm
    simp only [hnumber]
    apply (yields_markTaskAttemptDispatched hdue hnoted hone).bind
    rintro _ _ _ ⟨rfl, rfl, dirty, rfl⟩
    apply yields_pure ⟨rfl, dirty, rfl⟩

/-- Marking the row of the retry whose message has been sent. -/
theorem yields_markDispatched (n : ℕ) (telling : Telling) (notFound : String) :
  Yields chain (markDispatched chain.execution n notFound) (fun _ s' part' =>
    s'.result.error = some .noResultError ∧ part' = .trails n .marked telling) s
    (.trails n .wanted telling)
  := by
  have hmark : Yields chain (markTaskAttemptDispatched chain.execution n)
      (fun marked s' part' => marked = true ∧ s' = s ∧ ∃ mark, part' = .trails n mark telling ∧
        (mark = .marked ∨ ∃ id, mark = .marking id)) s (.trails n .wanted telling) := by
    rw [markTaskAttemptDispatched, getLatestPendingOrDispatchedTaskAttempt]
    apply yields_trails_execute_bind
    · exact ⟨rfl, rfl, rfl⟩
    rintro _ mark₁ ⟨attempt, rfl, ⟨hpending, rfl⟩ | ⟨hne, rfl⟩⟩
    · simp only [hpending, if_true]
      apply yields_trails_execute_bind
      · exact ⟨rfl, attempt, rfl, rfl⟩
      rintro _ mark₂ hmark
      obtain rfl : _ = mark₂ := hmark.symm
      apply yields_pure ⟨rfl, rfl, _, rfl, Or.inr ⟨_, rfl⟩⟩
    · simp only [hne, if_false]
      apply yields_pure ⟨rfl, rfl, _, rfl, Or.inl rfl⟩
  have hcommit {mark : Mark} (hmarked : mark = .marked ∨ ∃ id, mark = .marking id) :
      Yields chain commit (fun _ s' part' => s' = s ∧ part' = .trails n .marked telling) s
        (.trails n mark telling) := by
    apply yields_commit
    · apply hmarked
    · rintro r part' ⟨rfl, rfl⟩
      exact ⟨(), rfl, rfl, rfl⟩
  rw [markDispatched]
  apply hmark.bind
  rintro _ s₁ _ ⟨rfl, hs, mark, rfl, hmarked⟩
  obtain rfl : s = s₁ := hs.symm
  apply (hcommit hmarked).bind
  rintro _ _ _ ⟨rfl, rfl⟩
  exact ⟨_, rfl, rfl, rfl⟩

/-- Recording a decision about the row. -/
theorem yields_recordInitialErrorStatus_retry {ctx : ErrorContext} {decision : RetryDecision}
    (hrow : chain.Row n lead.view) (hctx : ctx.task = some row)
    (hi : ctx.taskExecutionId = chain.execution) (hloads : Loads chain s lead)
    (hdue : lead.due = false) (hsettled : lead.settled = true) (hnoted : lead.noted = false)
    (hcount : lead.row.retryCount = n) (hallowed : decision.retryAllowed = true)
    (hstatus : decision.status = .retrying) (hnumber : decision.attemptNumber = n + 1) :
  Yields chain (recordInitialErrorStatus ctx decision) (fun _ s' part' =>
    s'.attempt.attemptNumber = some (n + 1) ∧ ∃ fields now, part' = .leads
      { written lead .retrying fields now with settled := false, noted := true }) s (.leads lead)
  := by
  rw [recordInitialErrorStatus, hi]
  apply (yields_updateTaskStatus hdue hrow.id hloads _ _).bind
  rintro - s₁ part₁ ⟨now, rfl, -, hattempt, -⟩
  rw [modifyAttempt]
  apply yields_modify_bind
  rw [hctx]
  simp only [hallowed, Bool.not_true, Bool.and_false, Bool.false_eq_true, if_false, if_true]
  rw [modifyAttempt]
  apply yields_modify_bind
  rw [recordTaskAttempt, hstatus]
  apply yields_leads_execute
  · apply hdue
  · refine ⟨rfl, ?_, rfl, hsettled, hnoted⟩
    change decision.attemptNumber = lead.row.retryCount + 1
    rw [hnumber, hcount]
  · rintro a lead' rfl
    exact ⟨congrArg some hnumber, _, now, rfl⟩

/-- Sending the message on, and marking its audit row. -/
theorem yields_dispatchRetry {ctx : ErrorContext} {decision : RetryDecision}
    (hi : ctx.taskExecutionId = chain.execution) (hmessage : ctx.message = chain.message)
    (hdue : lead.due = true) (hcount : lead.row.retryCount = n + 1)
    (hnumber : s.attempt.attemptNumber = some (n + 1)) :
  Yields chain (dispatchRetry ctx decision) (fun emitted s' part' =>
    emitted = (decision.status, decision.statusMsg) ∧
      s'.result.error = some .noResultError ∧ part' = .trails (n + 1) .marked lead.telling) s
    (.leads lead)
  := by
  rw [dispatchRetry, requeue, hi]
  apply yields_perform_bind
  · exact ⟨hdue, hmessage⟩
  rintro _ _ ⟨rfl, rfl⟩
  simp only [if_true]
  apply yields_get_bind
  have hor : s.attempt.attemptNumberOr decision.attemptNumber = n + 1 := by
    simp only [OnErrorAttempt.attemptNumberOr, hnumber]
  rw [hor, hcount]
  apply (yields_markDispatched (n + 1) lead.telling dispatchAuditNotFound).bind
  rintro _ s' _ ⟨herror, rfl⟩
  apply yields_pure ⟨rfl, herror, rfl⟩

/-- The session of an error hook reads the row, and records its decision about the row. -/
theorem yields_errorSession {exception : PyException}
    {Q : TaskStatus × String → Invocation → Part → Prop} (hrow : chain.Row n row)
    (hattempt : s.attempt = {}) (hmap : s.identityMap = fun _ => none)
    (hshadowed : (settings.resolveRetryDecision
      (.ofRow settings chain.message exception chain.execution row) {}).retryShadowed = false)
    (hdecision : ∀ s', s'.result = s.result → Loads chain s' (.rest row outcome telling) →
      Yields chain (recordDecision (.ofRow settings chain.message exception chain.execution row)
        (settings.resolveRetryDecision
          (.ofRow settings chain.message exception chain.execution row) {}))
        Q s' (.leads (.rest row outcome telling))) :
  Yields chain (errorSession settings chain.message exception chain.execution) Q s
    (.leads (.rest row outcome telling))
  := by
  have hloads : Loads chain s (.rest row outcome telling) := by
    rintro task htask
    rw [hmap] at htask
    cases htask
  rw [errorSession]
  apply (yields_getTaskExecution rfl hrow.id hloads).bind
  rintro _ s₁ _ ⟨rfl, rfl, hmap₁, hattempt₁, hresult₁⟩
  apply yields_get_bind
  rw [hattempt₁, hattempt]
  have hloads₁ : Loads chain s₁ (.rest row outcome telling) := by
    intro task htask
    rw [hmap₁] at htask
    apply (Option.some_injective _ htask).symm
  apply (hdecision s₁ hresult₁ hloads₁).bind
  rintro emitted s' part' hQ
  -- The decision is about the row that the session has read.
  change Yields chain (if (settings.resolveRetryDecision (.ofRow settings chain.message exception
    chain.execution row) {}).retryShadowed = true then _ else _) _ _ _
  rw [hshadowed, if_neg Bool.false_ne_true]
  apply yields_pure hQ

/-- The session of an error hook whose retries are not exhausted. -/
theorem yields_errorSession_retry (hrow : chain.Row n row) (htelling : telling ≠ .nothing)
    (hlt : n < chain.maxRetries)
    (hgate : settings.retryGateAllows chain.message.taskName chain.tenantId = true)
    (hattempt : s.attempt = {}) (hmap : s.identityMap = fun _ => none)
    {raising exception : PyException} :
  Yields chain (errorSession settings chain.message exception chain.execution)
    (fun emitted s' part' => emitted.1 = .retrying ∧ s'.result.error = some .noResultError ∧
      part' = .trails (n + 1) .marked .due) s
    (.leads (.rest row (some (some raising)) telling))
  := by
  let ctx : ErrorContext := .ofRow settings chain.message exception chain.execution row
  let decision := settings.resolveRetryDecision ctx {}
  have hctx : ctx.task = some row := rfl
  have hcount : row.retryCount < row.maxRetries := by
    rw [hrow.retryCount, hrow.maxRetries]
    apply hlt
  have hallowed : decision.retryAllowed = true := by
    rw [settings.retryAllowed_resolveRetryDecision {} hctx, hrow.tenant, decide_eq_true hcount]
    apply hgate
  have hrecorded : decision.retryAlreadyRecorded = false :=
    settings.retryAlreadyRecorded_resolveRetryDecision {} hctx
  have hcoherent := settings.coherent_resolveRetryDecision {} hctx hrecorded
  have hstatus : decision.status = .retrying := hcoherent.retrying.mpr (Or.inl hallowed)
  have hnumber : decision.attemptNumber = n + 1 := by
    rw [settings.attemptNumber_resolveRetryDecision {} hctx, hrow.retryCount]
  have hshadowed : decision.retryShadowed = false := by
    rw [settings.retryShadowed_resolveRetryDecision {} hctx, hrow.tenant]
    simp only [ctx, ErrorContext.ofRow, hgate, Bool.not_true, Bool.and_false, Bool.false_and]
  apply yields_errorSession hrow hattempt hmap hshadowed
  rintro s₁ - hloads
  change Yields chain (recordDecision ctx decision) _ _ _
  rw [recordDecision, if_pos hallowed, hrecorded, if_neg Bool.false_ne_true, recordRetry]
  apply (yields_reconcilePending rfl rfl).bind
  rintro _ s₂ _ ⟨hs, dirty, rfl⟩
  obtain rfl : s₁ = s₂ := hs.symm
  have hloads' : Loads chain s₁
      { (Lead.rest row (some (some raising)) telling).settle with dirty := dirty } := hloads
  apply (yields_recordInitialErrorStatus_retry (n := n) hrow hctx rfl hloads' rfl rfl rfl
    hrow.retryCount hallowed hstatus hnumber).bind
  rintro _ s₃ _ ⟨hattempt₃, fields, now, rfl⟩
  apply (yields_leads_commit rfl ⟨fun h => absurd h htelling,
    Or.inr ⟨rfl, rfl, hcount, rfl, raising, rfl⟩⟩).bind
  rintro _ _ _ ⟨rfl, rfl⟩
  have hcount' : row.retryCount + 1 = n + 1 := by rw [hrow.retryCount]
  apply (yields_dispatchRetry rfl rfl rfl hcount' hattempt₃).mono
  rintro _ s' _ ⟨rfl, herror, rfl⟩
  exact ⟨hstatus, herror, rfl⟩

/-- Recording that the retries are exhausted. -/
theorem yields_recordInitialErrorStatus_exhausted {ctx : ErrorContext} {decision : RetryDecision}
    (hrow : chain.Row n lead.view) (hctx : ctx.task = some row)
    (hi : ctx.taskExecutionId = chain.execution) (hloads : Loads chain s lead)
    (hdue : lead.due = false) (hretry : decision.shouldRetry = false)
    (hallowed : decision.retryAllowed = false) (hstatus : decision.status = .failed) :
  Yields chain (recordInitialErrorStatus ctx decision) (fun _ s' part' =>
    s'.result = s.result ∧ ∃ fields now, part' = .leads (written lead .failed fields now)) s
    (.leads lead)
  := by
  rw [recordInitialErrorStatus, hi]
  apply (yields_updateTaskStatus hdue hrow.id hloads _ _).bind
  rintro - s₁ part₁ ⟨now, rfl, -, -, hresult⟩
  rw [modifyAttempt]
  apply yields_modify_bind
  rw [hctx]
  simp only [hretry, hallowed, Bool.false_and, Bool.false_eq_true, if_false]
  rw [hstatus]
  apply yields_pure ⟨hresult, _, now, rfl⟩

/-- The session of an error hook whose retries are exhausted. -/
theorem yields_errorSession_exhausted (hrow : chain.Row n row) (htelling : telling ≠ .nothing)
    (hn : n = chain.maxRetries)
    (hattempt : s.attempt = {}) (hmap : s.identityMap = fun _ => none)
    (exception : PyException) :
  Yields chain (errorSession settings chain.message exception chain.execution)
    (fun emitted s' part' => emitted.1 = .failed ∧ s'.result = s.result ∧ ∃ row',
      part' = .leads (.rest row' outcome .due) ∧ chain.Row n row' ∧ row'.status = .failed) s
    (.leads (.rest row outcome telling))
  := by
  let ctx : ErrorContext := .ofRow settings chain.message exception chain.execution row
  let decision := settings.resolveRetryDecision ctx {}
  have hctx : ctx.task = some row := rfl
  have hcount : ¬ row.retryCount < row.maxRetries := by
    rw [hrow.retryCount, hrow.maxRetries, hn]
    apply lt_irrefl _
  have hretry : decision.shouldRetry = false := by
    rw [settings.shouldRetry_resolveRetryDecision {} hctx, decide_eq_false hcount]
  have hallowed : decision.retryAllowed = false := by
    rw [settings.retryAllowed_resolveRetryDecision {} hctx, decide_eq_false hcount,
      Bool.false_and]
  have hshadowed : decision.retryShadowed = false := by
    rw [settings.retryShadowed_resolveRetryDecision {} hctx, decide_eq_false hcount,
      Bool.false_and, Bool.false_and]
  have hrecorded : decision.retryAlreadyRecorded = false :=
    settings.retryAlreadyRecorded_resolveRetryDecision {} hctx
  have hstatus : decision.status = .failed := by
    rw [settings.status_resolveRetryDecision {} hctx hrecorded, hallowed, hshadowed]
    rfl
  apply yields_errorSession hrow hattempt hmap hshadowed
  rintro s₁ hresult₁ hloads
  change Yields chain (recordDecision ctx decision) _ _ _
  rw [recordDecision, if_neg (by simp [hallowed]), recordFailure, hrecorded]
  apply (yields_recordInitialErrorStatus_exhausted hrow hctx rfl hloads rfl hretry hallowed
    hstatus).bind
  rintro _ s₂ _ ⟨hresult₂, fields, now, rfl⟩
  have hassigned : chain.Row n (row.assign .failed fields now) := hrow.assign (by simp) fields now
  have hkept : (row.assign .failed fields now).retryCount = row.retryCount := by
    rw [hassigned.retryCount, hrow.retryCount]
  apply (yields_leads_commit rfl ⟨fun h => absurd h htelling, Or.inl ⟨rfl, hkept⟩⟩).bind
  rintro _ _ _ ⟨rfl, rfl⟩
  apply yields_pure ⟨hstatus, hresult₂.trans hresult₁, _, rfl, hassigned, rfl⟩

/-- An error hook announces what its session has recorded. -/
theorem yields_onError {exception : PyException}
    {P : TaskStatus × String → Invocation → Part → Prop} {Q : Unit → Invocation → Part → Prop}
    (hi : chain.message.extractTaskExecutionId = some chain.execution)
    (hsession : ∀ s', s'.attempt = {} → s'.identityMap = (fun _ => none) →
      s'.result = s.result → Yields chain
        (errorSession settings chain.message exception chain.execution)
        (fun emitted s' part' => part'.Allows chain .closeSession ∧
          ∀ part'', part'.Moves chain .closeSession () part'' → P emitted s' part'') s'
        (.leads (.rest row outcome telling)))
    (hannounce : ∀ status statusMsg detail s' part', P (status, statusMsg) s' part' →
      Yields chain (emitStatusEvent settings chain.message status (some statusMsg) (some detail))
        Q s' part') :
  Yields chain (onError settings chain.message exception) Q s
    (.leads (.rest row outcome telling))
  := by
  rw [onError, hi]
  apply yields_modify_bind
  rw [recordErrorStatus]
  apply Yields.dbRetry
  rw [errorPass]
  have hpass : Yields chain
      (withSession (errorSession settings chain.message exception chain.execution)) P
      { s with attempt := {} } (.leads (.rest row outcome telling)) := by
    apply yields_withSession
    · exact rfl
    rintro part' hmoves
    obtain rfl : part' = .leads (.rest row outcome telling) := hmoves
    exact hsession _ rfl rfl rfl
  apply hpass.bind
  rintro ⟨status, statusMsg⟩ s' part' hP
  apply hannounce status statusMsg _ s' part' hP

/-- The error hook of a body whose retries are not exhausted. -/
theorem yields_onError_retry (hi : chain.message.extractTaskExecutionId = some chain.execution)
    (hrow : chain.Row n row) (htelling : telling ≠ .nothing) (hlt : n < chain.maxRetries)
    (hgate : settings.retryGateAllows chain.message.taskName chain.tenantId = true)
    (exception : PyException) {raising : PyException} :
  Yields chain (onError settings chain.message exception) (fun _ s' part' =>
    s'.result.error = some .noResultError ∧ ∃ telling, part' = .trails (n + 1) .marked telling) s
    (.leads (.rest row (some (some raising)) telling))
  := by
  apply yields_onError (P := fun emitted s' part' => emitted.1 = .retrying ∧
    s'.result.error = some .noResultError ∧ part' = .trails (n + 1) .marked .due) hi
  · rintro s₁ hattempt hmap -
    apply (yields_errorSession_retry hrow htelling hlt hgate hattempt hmap).mono
    rintro emitted s' _ ⟨hemitted, herror, rfl⟩
    refine ⟨rfl, ?_⟩
    rintro part₂ hmoves
    exact ⟨hemitted, herror, hmoves⟩
  · rintro status statusMsg detail s' _ ⟨rfl, herror, rfl⟩
    apply yields_emitStatusEvent
    · rw [hi]
      rfl
    · intro room event hstatus
      exact ⟨rfl, hstatus⟩
    · rintro room event r part' hmoves
      exact ⟨herror, .told, hmoves⟩
    · intro _
      exact ⟨herror, .due, rfl⟩

/-- The error hook of a body whose retries are exhausted. -/
theorem yields_onError_exhausted (hi : chain.message.extractTaskExecutionId = some chain.execution)
    (hrow : chain.Row n row) (htelling : telling ≠ .nothing) (hn : n = chain.maxRetries)
    (exception : PyException) :
  Yields chain (onError settings chain.message exception) (fun _ s' part' =>
    s'.result = s.result ∧ ∃ row telling, part' = .leads (.rest row outcome telling) ∧
      chain.Row n row ∧ telling ≠ .nothing) s (.leads (.rest row outcome telling))
  := by
  apply yields_onError (P := fun emitted s' part' => emitted.1 = .failed ∧
    s'.result = s.result ∧ ∃ row', part' = .leads (.rest row' outcome .due) ∧
      chain.Row n row' ∧ row'.status = .failed) hi
  · rintro s₁ hattempt hmap hresult₁
    apply (yields_errorSession_exhausted hrow htelling hn hattempt hmap exception).mono
    rintro emitted s' _ ⟨hemitted, hresult, row', rfl, hprops⟩
    refine ⟨rfl, ?_⟩
    rintro part₂ hmoves
    exact ⟨hemitted, hresult.trans hresult₁, row', hmoves, hprops⟩
  · rintro status statusMsg detail s' _ ⟨rfl, hresult, row', rfl, hrow', hstatus⟩
    rw [← hstatus]
    apply (yields_announce settings row' outcome hi (some statusMsg) _).mono
    rintro _ _ _ ⟨rfl, telling', rfl, htelling', -⟩
    exact ⟨hresult, row', telling', rfl, hrow', htelling'⟩

/-! ### A delivery -/

end Hook

/-- A worker has nothing left to do: it has sent the message on, or the chain has ended. -/
def Part.Final (chain : Chain) : Part → Prop
  | .trails _ mark _ => mark = .marked
  | .leads lead => ∃ row outcome telling, lead = .rest row (some outcome) telling ∧
      (row.status = .completed ∧ outcome = none ∨
        row.status = .failed ∧ outcome.isSome = true ∧ row.retryCount = chain.maxRetries) ∧
      ((∀ settings, chain.employs settings → settings.Announces chain.message) → telling = .told)

/-- What the workers of a chain rely on. -/
structure Chain.Sound (chain : Chain) : Prop where
  message : chain.message.extractTaskExecutionId = some chain.execution
  gate : ∀ settings, chain.employs settings →
    settings.retryGateAllows chain.message.taskName chain.tenantId = true
  outcomes : ∀ n, chain.outcomes n ≠ some .noResultError
  employed : ∃ settings, chain.employs settings

namespace Hook

variable {chain : Chain} {s : Invocation} {n : ℕ} {row : TaskExecution} {telling : Telling}
  {settings : Settings}

/-- What a hook that ends the chain leaves. -/
theorem Sets.final {status : TaskStatus} {outcome : Option PyException} {u : Unit}
    {s' : Invocation} {part' : Part} (hworker : chain.employs settings)
    (hend : status = .completed ∧ outcome = none ∨
      status = .failed ∧ outcome.isSome = true ∧ n = chain.maxRetries)
    (h : Sets chain settings n (some outcome) status s u s' part') :
  part'.Final chain
  := by
  obtain ⟨-, -, row, telling, rfl, hrow, rfl, -, htold⟩ := h
  refine ⟨row, outcome, telling, rfl, ?_, fun h => htold (h settings hworker)⟩
  rw [hrow.retryCount]
  apply hend

theorem yields_finish (hchain : chain.Sound) (hworker : chain.employs settings)
    (hrow : chain.Row n row) (htelling : telling ≠ .nothing) (hle : n ≤ chain.maxRetries)
    (outcome : Option PyException) (houtcome : outcome ≠ some .noResultError) :
  Yields chain (finish settings chain.message outcome) (fun _ _ part' => part'.Final chain) s
    (.leads (.rest row (some outcome) telling))
  := by
  cases outcome with
  | none =>
      apply yields_modify_bind
      apply (yields_postExecute_succeeded hchain.message hrow htelling rfl).mono
      intro _ s' part' hsets
      apply hsets.final hworker (Or.inl ⟨rfl, rfl⟩)
  | some exception =>
      apply yields_modify_bind
      have hne : exception ≠ .noResultError := by
        rintro rfl
        apply houtcome rfl
      rcases hle.lt_or_eq with hlt | hn
      · apply (yields_onError_retry hchain.message hrow htelling hlt
          (hchain.gate settings hworker) exception).bind
        rintro _ s' _ ⟨herror, telling', rfl⟩
        apply (yields_postExecute_sent hchain.message herror).mono
        rintro _ _ _ ⟨rfl, rfl⟩
        exact rfl
      · apply (yields_onError_exhausted hchain.message hrow htelling hn exception).bind
        rintro _ s' _ ⟨hresult, row', telling', rfl, hrow', htelling'⟩
        apply (yields_postExecute_raised hchain.message hrow' htelling' hne hresult).mono
        intro _ s' part' hsets
        apply hsets.final hworker (Or.inr ⟨rfl, rfl, hn⟩)

/-- A worker that takes the message follows the protocol to its end. -/
theorem yields_deliver (hchain : chain.Sound) (hworker : chain.employs settings)
    (hrow : chain.Row n row) (hle : n ≤ chain.maxRetries) :
  Yields chain (deliver settings chain.message) (fun _ _ part' => part'.Final chain) s
    (.leads (.rest row none telling))
  := by
  rw [deliver]
  apply (yields_preExecute hchain.message hrow).bind
  rintro _ s₁ _ ⟨-, -, row₁, telling₁, rfl, hrow₁, -, htelling₁, -⟩
  apply yields_perform_bind
  · exact ⟨rfl, rfl⟩
  rintro _ _ ⟨rfl, rfl⟩
  apply yields_finish hchain hworker hrow₁ htelling₁ hle _ (hchain.outcomes _)

end Hook

end WorkerTemplate
