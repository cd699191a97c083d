import WorkerTemplate.Sequential.OnError

/-!
# The outcome of a failed run

The hook after an error hook is called with the same result.  When nothing fails, it has
nothing left to do exactly when the error hook has handed the outcome over: to the receiver
of the message it has sent, or to whoever finds the shadowed retry.
-/

namespace WorkerTemplate

namespace World

/-- No transaction of a later session fails. -/
def Calm (w : World) : Prop := ∀ p n, (w.plan p).fate n = .commits

theorem events_published (w : World) (event : Option (Text × TaskEvent)) :
  (w.published event).events = w.events ++ if w.emits then event.toList else []
  := by
  unfold published
  split
  · rfl
  · simp

/-- An operation keeps a world calm, and whether publishing an event succeeds. -/
theorem calm_handle {w : World} (h : w.Calm) (o : Op) :
  (w.handle o).2.Calm ∧ (w.handle o).2.emits = w.emits
  := by
  cases o with
  | openSession => exact ⟨fun p n => h (p + 1) n, rfl⟩
  | closeSession => exact ⟨h, rfl⟩
  | now => exact ⟨h, rfl⟩
  | body message => exact ⟨h, rfl⟩
  | statement st =>
      simp only [handle]
      split
      · exact ⟨h, rfl⟩
      · exact ⟨h, rfl⟩
  | commit =>
      simp only [handle]
      split
      · exact ⟨h, rfl⟩
      · exact ⟨h, rfl⟩
      · exact ⟨h, rfl⟩
  | kiq message =>
      simp only [handle]
      split
      · exact ⟨h, rfl⟩
      · exact ⟨h, rfl⟩
  | emit room event =>
      simp only [handle]
      split
      · exact ⟨h, rfl⟩
      · exact ⟨h, rfl⟩

end World

namespace Hook

variable {settings : Settings} {message : TaskiqMessage} {exception : PyException} {i : UUID}
  {s : Invocation} {w : World}

/-- A hook keeps a world calm, and whether publishing an event succeeds. -/
theorem calm_exec {α : Type} (hcalm : w.Calm) (h : Hook α) (s : Invocation) :
  (exec h s w).2.Calm ∧ (exec h s w).2.emits = w.emits
  := by
  have hrun {β : Type} (p : Program Op.Answer β) :
      ∀ w : World, w.Calm →
        (p.run World.handle w).2.Calm ∧ (p.run World.handle w).2.emits = w.emits := by
    induction p with
    | pure a =>
        intro w hcalm
        exact ⟨hcalm, rfl⟩
    | perform o k ih =>
        intro w hcalm
        obtain ⟨hcalm', hemits⟩ := World.calm_handle hcalm o
        obtain ⟨hcalm'', hemits'⟩ := ih _ _ hcalm'
        exact ⟨hcalm'', hemits'.trans hemits⟩
  apply hrun _ w hcalm

/-! ### Setting a status -/

/-- A session that sets the status of an execution updates its row, if there is one. -/
theorem exec_setStatus (hcalm : w.Calm) (status : TaskStatus) (fields : StatusUpdate) :
  ∃ s' w', exec (setStatus i status fields) s w = ((.ok (), s'), w') ∧
    s'.result = s.result ∧ w'.events = w.events ∧ w'.emits = w.emits ∧
    (w.db.execution? i = none → w'.db = w.db) ∧
    ∀ row, w.db.execution? i = some row →
      w'.db.execution? i = some (row.assign status fields w.clock)
  := by
  have hw : w.opened.fate = .commits := hcalm 0 0
  have hup : w.opened.Up := World.up_of_commits hw
  have hview : w.opened.view = w.db := rfl
  rw [setStatus, exec_withSession]
  cases hrow : w.db.execution? i with
  | none =>
      have hview' : w.opened.view.execution? i = none := hrow
      rw [exec_bind_ok (exec_updateTaskStatus_none hup status fields hview'),
        exec_commit hw]
      refine ⟨_, _, rfl, rfl, rfl, rfl, fun _ => rfl, ?_⟩
      rintro row ⟨⟩
  | some row =>
      have hview' : w.opened.view.execution? i = some row := hrow
      have hid : row.id = i := Database.id_of_execution? hrow
      have hw' : (w.opened.updated row status fields).fate = .commits := hw
      rw [exec_bind_ok (exec_updateTaskStatus hup status fields (Or.inl rfl) hview'),
        exec_commit hw']
      refine ⟨_, _, rfl, rfl, rfl, rfl, ?_, ?_⟩
      · rintro ⟨⟩
      · rintro row' ⟨⟩
        change ((w.opened.updated row status fields).view).execution? i = _
        rw [World.updated, World.view_push, World.view_tick, Database.view_singleton, hid,
          Database.execution?_updateExecution_self, hview', Option.map_some,
          TaskExecution.set_changes_assign]
        rfl

/-! ### The hook after an error hook -/

/-- The event of a failure, when it is published. -/
def failureEvents (settings : Settings) (message : TaskiqMessage) (detail : String) (emits : Bool) :
    List (Text × TaskEvent) :=
  if emits then (statusEvent settings message .failed (some "Task failed") (some detail)).toList
  else []

/-- The hook after a body that raised fails the execution, unless its outcome has been handed
over. -/
theorem exec_postExecute_failed (settings : Settings)
    (hid : message.extractTaskExecutionId = some i) (hcalm : w.Calm)
    (hresult : s.result = raised exception) (hexception : exception ≠ .noResultError) :
  ∃ s' w', exec (postExecute settings message) s w = ((.ok (), s'), w') ∧
    w'.events = w.events ++ failureEvents settings message (settings.text exception) w.emits ∧
    (w.db.execution? i = none → w'.db = w.db) ∧
    ∀ row, w.db.execution? i = some row →
      ∃ row', w'.db.execution? i = some row' ∧ row'.errorDetail = some (settings.text exception)
  := by
  obtain ⟨s', w', hrun, -, hevents, hemits, hnone, hsome⟩ := exec_setStatus (i := i) (s := s) hcalm
    .failed { errorDetail := some (settings.text exception), statusMessage := some "Task failed" }
  refine ⟨s', w'.published (statusEvent settings message .failed (some "Task failed")
    (some (settings.text exception))), ?_, ?_, ?_, ?_⟩
  · rw [postExecute, dbRetry, defaultMaxAttempts]
    apply exec_createDbRetry_ok 2
    rw [hid]
    simp only []
    rw [exec_bind_ok (exec_get s w), hresult]
    simp only [raised, Option.some.injEq, if_neg hexception, Bool.false_eq_true, if_false, if_true,
      Option.elim_some]
    change exec (setStatus i .failed
      { errorDetail := some (settings.text exception), statusMessage := some "Task failed" }
        >>= _) s w = _
    rw [exec_bind_ok hrun]
    apply exec_emitStatusEvent
  · rw [World.events_published, hevents, hemits]
    rfl
  · rw [World.db_published]
    apply hnone
  · rw [World.db_published]
    intro row hrow
    exact ⟨_, hsome row hrow, rfl⟩

/-- The hook after a shadowed retry does nothing. -/
theorem exec_postExecute_of_shadowed (hid : message.extractTaskExecutionId = some i)
    (hshadowed : s.result.shadowRetry = true) :
  exec (postExecute settings message) s w = ((.ok (), s), w)
  := by
  rw [postExecute, dbRetry, defaultMaxAttempts]
  apply exec_createDbRetry_ok 2
  rw [hid]
  simp only []
  rw [exec_bind_ok (exec_get s w), hshadowed]
  split
  · rfl
  · rfl

/-! ### The error hook -/

/-- The error an error hook writes. -/
def errorText (settings : Settings) (exception : PyException) : String :=
  s!"{exception.typeName}: {settings.text exception}"

/-- An error hook whose session decides `emitted` emits an event about it. -/
theorem exec_onError_of_session (hid : message.extractTaskExecutionId = some i)
    {emitted : TaskStatus × String} {s' : Invocation} {w' : World}
    (hsession : exec (errorSession settings message exception i)
      { s with attempt := {}, identityMap := fun _ => none } w.opened
        = ((.ok emitted, s'), w')) :
  exec (onError settings message exception) s w
    = ((.ok (), s'), w'.closed.published (statusEvent settings message emitted.1 (some emitted.2)
        (some (errorText settings exception))))
  := by
  have hpass := exec_withSession (s := { s with attempt := {} }) (w := w)
    (errorSession settings message exception i)
  rw [hsession] at hpass
  rw [onError, hid]
  simp only []
  rw [modifyAttempt, exec_bind_ok (exec_modify _ _ _), recordErrorStatus, dbRetry,
    defaultMaxAttempts]
  apply exec_createDbRetry_ok 2
  obtain ⟨status, statusMsg⟩ := emitted
  rw [errorPass, exec_bind_ok hpass]
  apply exec_emitStatusEvent

/-- Recording a decision about no row changes the record of the call only. -/
theorem exec_recordInitialErrorStatus_none (hw : w.Up) {ctx : ErrorContext}
    {decision : RetryDecision} (hctx : ctx.task = none)
    (hview : w.view.execution? ctx.taskExecutionId = none) :
  ∃ s', exec (recordInitialErrorStatus ctx decision) s w = ((.ok (), s'), w) ∧
    s'.result = s.result
  := by
  rw [recordInitialErrorStatus, exec_bind_ok (exec_updateTaskStatus_none hw _ _ hview),
    modifyAttempt, exec_bind_ok (exec_modify _ _ _)]
  simp only [hctx]
  exact ⟨_, rfl, rfl⟩

/-- An error hook that finds no row writes nothing and keeps the result. -/
theorem exec_onError_none (exception : PyException) (s : Invocation)
    (hid : message.extractTaskExecutionId = some i) (hcalm : w.Calm)
    (hrow : w.db.execution? i = none) :
  ∃ s' w', exec (onError settings message exception) s w = ((.ok (), s'), w') ∧
    s'.result = s.result ∧ w'.db = w.db
  := by
  have hw : w.opened.fate = .commits := hcalm 0 0
  have hup : w.opened.Up := World.up_of_commits hw
  have hview : w.opened.view.execution? i = none := hrow
  let ctx : ErrorContext :=
    { task := none, taskExecutionId := i, message, errorDetail := errorText settings exception }
  let decision := settings.resolveRetryDecision ctx {}
  have hallowed : decision.retryAllowed = false := rfl
  have hnew : decision.retryAlreadyRecorded = false := rfl
  have hshadowed : decision.retryShadowed = false := rfl
  obtain ⟨s', hrecord, hresult⟩ : ∃ s', exec (recordInitialErrorStatus ctx decision)
      { s with attempt := {}, identityMap := fun _ => none } w.opened = ((.ok (), s'), w.opened) ∧
      s'.result = s.result :=
    exec_recordInitialErrorStatus_none hup rfl hview
  have hsession : exec (errorSession settings message exception i)
      { s with attempt := {}, identityMap := fun _ => none } w.opened
        = ((.ok (decision.status, decision.statusMsg), s'), w.opened.committed) := by
    rw [errorSession, exec_bind_ok (exec_getTaskExecution_none hup hview),
      exec_bind_ok (exec_get _ _)]
    change exec (recordDecision ctx decision >>= fun emitted => do
      if decision.retryShadowed then
        modifyResult fun result => { result with shadowRetry := true }
      pure emitted) _ _ = _
    have hdecision : exec (recordDecision ctx decision)
        { s with attempt := {}, identityMap := fun _ => none } w.opened
          = ((.ok (decision.status, decision.statusMsg), s'), w.opened.committed) := by
      simp only [recordDecision, hallowed, recordFailure, hnew, Bool.false_eq_true, if_false,
        Bool.not_false, if_true]
      rw [exec_bind_ok hrecord, exec_bind_ok (exec_commit hw)]
      rfl
    rw [exec_bind_ok hdecision, hshadowed]
    rfl
  refine ⟨_, _, exec_onError_of_session hid hsession, hresult, ?_⟩
  rw [World.db_published]
  rfl

/-- The result of an error hook that does not send the message. -/
def unsentResult (settings : Settings) (row : TaskExecution) (result : TaskiqResult) :
    TaskiqResult :=
  if row.retryCount < row.maxRetries ∧ settings.taskRetryShadowMode = true then
    { result with shadowRetry := true }
  else result

/-- An error hook whose retry is not allowed writes its error, and marks the result of a
shadowed retry. -/
theorem exec_onError_refused (exception : PyException) (s : Invocation)
    (hid : message.extractTaskExecutionId = some i) (hcalm : w.Calm) {row : TaskExecution}
    (hrow : w.db.execution? i = some row)
    (hrefused : ¬ (settings.retryGateAllows message.taskName row.tenantId = true ∧
      row.retryCount < row.maxRetries)) :
  ∃ s' w', exec (onError settings message exception) s w = ((.ok (), s'), w') ∧
    s'.result = unsentResult settings row s.result ∧
    ∃ row', w'.db.execution? i = some row' ∧ row'.errorDetail = some (errorText settings exception)
  := by
  have hw : w.opened.fate = .commits := hcalm 0 0
  have hup : w.opened.Up := World.up_of_commits hw
  have hview : w.opened.view.execution? i = some row := hrow
  have hrowId : row.id = i := Database.id_of_execution? hrow
  let ctx : ErrorContext := .ofRow settings message exception i row
  let decision := settings.resolveRetryDecision ctx {}
  let s₀ : Invocation := { s with attempt := {}, identityMap := fun _ => none }
  have hctx : ctx.task = some row := rfl
  have hallowed : decision.retryAllowed = false := by
    rw [settings.retryAllowed_resolveRetryDecision {} hctx, Bool.eq_false_iff, Ne,
      Bool.and_eq_true, decide_eq_true_eq]
    exact fun h => hrefused ⟨h.2, h.1⟩
  have hnew : decision.retryAlreadyRecorded = false := rfl
  have hshadowed : decision.retryShadowed = true
      ↔ row.retryCount < row.maxRetries ∧ settings.taskRetryShadowMode = true := by
    rw [settings.retryShadowed_resolveRetryDecision {} hctx]
    simp only [Bool.and_eq_true, decide_eq_true_eq, Bool.not_eq_true']
    constructor
    · rintro ⟨⟨hlt, -⟩, hshadow⟩
      exact ⟨hlt, hshadow⟩
    · rintro ⟨hlt, hshadow⟩
      refine ⟨⟨hlt, ?_⟩, hshadow⟩
      rw [Bool.eq_false_iff]
      exact fun hgate => hrefused ⟨hgate, hlt⟩
  have hmap : (s₀.keep row).identityMap ctx.taskExecutionId = some row :=
    Invocation.identityMap_keep_of_id s₀ row hrowId
  have hdecided : (w.opened.decided ctx decision row).fate = .commits := hw
  have hdecision : exec (recordDecision ctx decision) (s₀.keep row) w.opened
      = ((.ok (decision.status, decision.statusMsg),
          { (s₀.keep row).keep
              (row.assign decision.status (ctx.update decision.statusMsg) w.opened.clock) with
            attempt := OnErrorAttempt.record {} decision row }),
          (w.opened.decided ctx decision row).committed) := by
    simp only [recordDecision, hallowed, recordFailure, hnew, Bool.false_eq_true, if_false,
      Bool.not_false, if_true]
    rw [exec_bind_ok (exec_recordInitialErrorStatus hup hctx hmap hview),
      exec_bind_ok (exec_commit hdecided)]
    rfl
  have hfound : ((w.opened.decided ctx decision row).committed).db.execution? i
      = some (row.assign decision.status (ctx.update decision.statusMsg) w.opened.clock) :=
    World.execution?_view_decided hview
  have hdetail : (row.assign decision.status (ctx.update decision.statusMsg)
      w.opened.clock).errorDetail = some (errorText settings exception) := rfl
  have hcontext : ctx = .ofRow settings message exception i row := rfl
  have hdecided' : decision = settings.resolveRetryDecision ctx s₀.attempt := rfl
  have hsession := exec_errorSession (s := s₀) hup settings message exception rfl hview hcontext
    hdecided'
  rw [exec_bind_ok hdecision] at hsession
  by_cases hshadow : row.retryCount < row.maxRetries ∧ settings.taskRetryShadowMode = true
  · rw [if_pos (hshadowed.mpr hshadow)] at hsession
    refine ⟨_, _, exec_onError_of_session hid hsession, ?_, _, ?_, hdetail⟩
    · rw [unsentResult, if_pos hshadow]
      rfl
    · rw [World.db_published]
      apply hfound
  · rw [if_neg (mt hshadowed.mp hshadow)] at hsession
    refine ⟨_, _, exec_onError_of_session hid hsession, ?_, _, ?_, hdetail⟩
    · rw [unsentResult, if_neg hshadow]
      rfl
    · rw [World.db_published]
      apply hfound

/-- An error hook whose retry is allowed leaves the outcome to the receiver of its message, or
writes its error when the message is rejected. -/
theorem exec_onError_allowed (exception : PyException) (s : Invocation)
    (hid : message.extractTaskExecutionId = some i) (hcalm : w.Calm) {row : TaskExecution}
    (hrow : w.db.execution? i = some row)
    (hgate : settings.retryGateAllows message.taskName row.tenantId = true)
    (hlt : row.retryCount < row.maxRetries) :
  ∃ s' w', exec (onError settings message exception) s w = ((.ok (), s'), w') ∧
    (if (w.plan 0).accepts = true then
      s'.result = { s.result with error := some .noResultError }
    else
      s'.result = s.result ∧ ∃ row', w'.db.execution? i = some row' ∧
        row'.errorDetail = some (errorText settings exception))
  := by
  obtain ⟨r, s', w', outcome, L, hrun, hledger, hends, ⟨row', hrow', -, -, hdetail⟩, -⟩ :=
    exec_onError_ledger exception (s := s) hid hrow hgate hlt
  have hpass : (Ledger.initial row.status row.retryCount).pass row.maxRetries (w.plan 0)
      = if (w.plan 0).accepts = true then
          (.resent, ((Ledger.initial row.status row.retryCount).record row.maxRetries).send.mark)
        else (.settled, ((Ledger.initial row.status row.retryCount).record row.maxRetries).reject
          (row.retryCount + 1)) := by
    have hlt' : (Ledger.initial row.status row.retryCount).retryCount < row.maxRetries := hlt
    have hrecorded : (Ledger.initial row.status row.retryCount).recorded = false := rfl
    simp only [Ledger.pass, hrecorded, Bool.false_eq_true, if_false, hcalm 0 0, if_pos hlt',
      Ledger.dispatch, hcalm 0 1]
    rfl
  rw [hrun]
  split at hpass
  case isTrue haccepts =>
    rw [Ledger.run_of_resent hpass] at hledger
    obtain ⟨rfl, rfl⟩ := Prod.ext_iff.mp hledger
    obtain ⟨⟨a, rfl⟩, hresult⟩ := hends
    refine ⟨s', w', rfl, ?_⟩
    rwa [if_pos haccepts]
  case isFalse hrejects =>
    rw [Ledger.run_of_settled hpass] at hledger
    obtain ⟨rfl, rfl⟩ := Prod.ext_iff.mp hledger
    obtain ⟨⟨a, rfl⟩, hresult⟩ := hends
    refine ⟨s', w', rfl, ?_⟩
    rw [if_neg hrejects]
    exact ⟨hresult, row', hrow', hdetail (Ledger.recorded_record)⟩

/-! ### Both hooks -/

/-- An event about a message would be published. -/
def Publishes (settings : Settings) (message : TaskiqMessage) (w : World) : Prop :=
  settings.emitterInitialized = true ∧ message.extractTenantId.isSome ∧ w.emits = true

/-- The outcome of a failed run is handed over by its error hook: the task has handed it over
itself, its message is sent again, its retry is shadowed, or there is neither a row to write nor
an event to publish. -/
def HandsOver (settings : Settings) (message : TaskiqMessage) (exception : PyException) (i : UUID)
    (w : World) : Prop :=
  exception = .noResultError ∨
    match w.db.execution? i with
    | none => ¬ Publishes settings message w
    | some row => row.retryCount < row.maxRetries ∧
        if settings.retryGateAllows message.taskName row.tenantId = true then
          (w.plan 0).accepts = true
        else settings.taskRetryShadowMode = true

/-- The hook after an error hook writes nothing and publishes nothing. -/
def SingleOutcome (settings : Settings) (message : TaskiqMessage) (exception : PyException)
    (s : Invocation) (w : World) : Prop :=
  ∃ s' w' s'' w'', exec (onError settings message exception) s w = ((.ok (), s'), w') ∧
    exec (postExecute settings message) s' w' = ((.ok (), s''), w'') ∧
    w''.db = w'.db ∧ w''.events = w'.events

/-- Whether the outcome is single is seen from the runs of both hooks. -/
theorem singleOutcome_iff {s' s'' : Invocation} {w' w'' : World}
    (herror : exec (onError settings message exception) s w = ((.ok (), s'), w'))
    (hpost : exec (postExecute settings message) s' w' = ((.ok (), s''), w'')) :
  SingleOutcome settings message exception s w ↔ w''.db = w'.db ∧ w''.events = w'.events
  := by
  constructor
  · rintro ⟨s₁, w₁, s₂, w₂, herror', hpost', h⟩
    obtain ⟨⟨-, rfl⟩, rfl⟩ := by simpa only [Prod.mk.injEq] using herror.symm.trans herror'
    obtain ⟨⟨-, rfl⟩, rfl⟩ := by simpa only [Prod.mk.injEq] using hpost.symm.trans hpost'
    apply h
  · intro h
    exact ⟨s', w', s'', w'', herror, hpost, h⟩

/-- The error a hook after an error hook writes is shorter. -/
theorem errorText_ne (settings : Settings) (exception : PyException) :
  errorText settings exception ≠ settings.text exception
  := by
  intro h
  have hlength := congrArg String.length h
  have hseparator : (toString ": ").length = 2 := rfl
  have htext : toString (settings.text exception) = settings.text exception := rfl
  simp only [errorText, String.length_append, htext, hseparator] at hlength
  omega

/-- The event of a failure is published when there is an emitter and a tenant. -/
theorem failureEvents_eq_nil_iff (hid : message.extractTaskExecutionId = some i) (detail : String) :
  failureEvents settings message detail w.emits = [] ↔ ¬ Publishes settings message w
  := by
  unfold failureEvents Publishes statusEvent
  rw [hid]
  cases w.emits with
  | false => simp
  | true =>
      cases settings.emitterInitialized with
      | false => simp
      | true =>
          cases message.extractTenantId with
          | none => simp
          | some tenantId => simp

/-- The outcome is single when the error hook has left a mark in the result. -/
theorem singleOutcome_of_marked (hid : message.extractTaskExecutionId = some i)
    {s' : Invocation} {w' : World}
    (herror : exec (onError settings message exception) s w = ((.ok (), s'), w'))
    (hmarked : s'.result.error = some .noResultError ∨ s'.result.shadowRetry = true) :
  SingleOutcome settings message exception s w
  := by
  have hpost : exec (postExecute settings message) s' w' = ((.ok (), s'), w') := by
    rcases hmarked with hmarked | hmarked
    · apply exec_postExecute_of_noResult settings message hmarked w'
    · apply exec_postExecute_of_shadowed hid hmarked
  exact ⟨s', w', s', w', herror, hpost, rfl, rfl⟩

/-- The outcome is not single when the error hook has written the row and left the result as it
was: the hook after it overwrites the error. -/
theorem not_singleOutcome_of_written (hid : message.extractTaskExecutionId = some i)
    (hcalm : w.Calm) {s' : Invocation} {w' : World}
    (herror : exec (onError settings message exception) s w = ((.ok (), s'), w'))
    (hresult : s'.result = raised exception) (hexception : exception ≠ .noResultError)
    (hwritten : ∃ row, w'.db.execution? i = some row ∧
      row.errorDetail = some (errorText settings exception)) :
  ¬ SingleOutcome settings message exception s w
  := by
  obtain ⟨row, hrow, hdetail⟩ := hwritten
  obtain ⟨hcalm', -⟩ : w'.Calm ∧ w'.emits = w.emits := by
    have hkeeps := calm_exec hcalm (onError settings message exception) s
    rwa [herror] at hkeeps
  obtain ⟨s'', w'', hpost, -, -, hsome⟩ :=
    exec_postExecute_failed settings hid hcalm' hresult hexception
  obtain ⟨row', hrow', hdetail'⟩ := hsome row hrow
  rw [singleOutcome_iff herror hpost]
  rintro ⟨hdb, -⟩
  rw [hdb, hrow] at hrow'
  obtain rfl := Option.some_injective _ hrow'
  apply errorText_ne settings exception (Option.some_injective _ (hdetail.symm.trans hdetail'))

/-- Without a row the outcome is single when no event is published. -/
theorem singleOutcome_none_iff (hid : message.extractTaskExecutionId = some i) (hcalm : w.Calm)
    (hresult : s.result = raised exception) (hexception : exception ≠ .noResultError)
    (hrow : w.db.execution? i = none) :
  SingleOutcome settings message exception s w ↔ ¬ Publishes settings message w
  := by
  obtain ⟨s', w', herror, hkept, hdb⟩ := exec_onError_none exception s hid
    hcalm hrow
  obtain ⟨hcalm', hemits⟩ : w'.Calm ∧ w'.emits = w.emits := by
    have hkeeps := calm_exec hcalm (onError settings message exception) s
    rwa [herror] at hkeeps
  obtain ⟨s'', w'', hpost, hevents, hnone, -⟩ := exec_postExecute_failed settings hid hcalm'
    (hkept.trans hresult) hexception
  have hdb' : w''.db = w'.db := hnone (by rw [hdb, hrow])
  rw [singleOutcome_iff herror hpost, hevents, List.append_right_eq_self,
    failureEvents_eq_nil_iff hid, Publishes, hemits]
  apply and_iff_right hdb'

/-- A failed run of which nothing else fails has a single outcome exactly when its error hook
hands the outcome over. -/
theorem singleOutcome_iff_handsOver (hid : message.extractTaskExecutionId = some i)
    (hcalm : w.Calm) (hresult : s.result = raised exception) :
  SingleOutcome settings message exception s w ↔ HandsOver settings message exception i w
  := by
  have herror : s.result.error = some exception := by rw [hresult, raised]
  cases hrow : w.db.execution? i with
  | none =>
      by_cases hexception : exception = .noResultError
      · obtain ⟨s', w', hrun, hkept, -⟩ := exec_onError_none exception s hid
          hcalm hrow
        refine iff_of_true (singleOutcome_of_marked hid hrun (Or.inl ?_)) (Or.inl hexception)
        rw [hkept, herror, hexception]
      · rw [singleOutcome_none_iff hid hcalm hresult hexception hrow]
        simp [HandsOver, hexception, hrow]
  | some row =>
      by_cases hallowed : settings.retryGateAllows message.taskName row.tenantId = true ∧
          row.retryCount < row.maxRetries
      · obtain ⟨s', w', hrun, hends⟩ := exec_onError_allowed exception s hid hcalm hrow hallowed.1
          hallowed.2
        split at hends
        case isTrue haccepts =>
          refine iff_of_true (singleOutcome_of_marked hid hrun (Or.inl (by rw [hends]))) (Or.inr ?_)
          simp [hrow, hallowed, haccepts]
        case isFalse hrejects =>
          obtain ⟨hkept, hwritten⟩ := hends
          by_cases hexception : exception = .noResultError
          · refine iff_of_true (singleOutcome_of_marked hid hrun (Or.inl ?_)) (Or.inl hexception)
            rw [hkept, herror, hexception]
          · refine iff_of_false (not_singleOutcome_of_written hid hcalm hrun (hkept.trans hresult)
              hexception hwritten) ?_
            simp [HandsOver, hexception, hrow, hallowed, hrejects]
      · obtain ⟨s', w', hrun, hkept, hwritten⟩ := exec_onError_refused exception s hid hcalm hrow
          hallowed
        rw [unsentResult] at hkept
        split at hkept
        case isTrue hshadow =>
          have hclosed : ¬ settings.retryGateAllows message.taskName row.tenantId = true :=
            fun hgate => hallowed ⟨hgate, hshadow.1⟩
          refine iff_of_true (singleOutcome_of_marked hid hrun (Or.inr (by rw [hkept]))) (Or.inr ?_)
          simp [hrow, hclosed, hshadow]
        case isFalse hshadow =>
          by_cases hexception : exception = .noResultError
          · refine iff_of_true (singleOutcome_of_marked hid hrun (Or.inl ?_)) (Or.inl hexception)
            rw [hkept, herror, hexception]
          · refine iff_of_false (not_singleOutcome_of_written hid hcalm hrun (hkept.trans hresult)
              hexception hwritten) ?_
            rintro (hnoResult | hhands)
            · apply hexception hnoResult
            · simp only [hrow] at hhands
              obtain ⟨hlt, hhands⟩ := hhands
              rw [if_neg (fun hgate => hallowed ⟨hgate, hlt⟩)] at hhands
              apply hshadow ⟨hlt, hhands⟩

/-- A run whose retries are exhausted has not a single outcome, and a run that is tried again
has one. -/
theorem singleOutcome_iff_of_exhausted :
  ¬ SingleOutcome Example.settings Example.message Example.exception Example.failed
      (Example.world 3 3 (fun _ => Example.session .commits .commits true)) ∧
    SingleOutcome Example.settings Example.message Example.exception Example.failed
      (Example.world 0 3 (fun _ => Example.session .commits .commits true))
  := by
  have hcalm (retryCount : ℕ) :
      (Example.world retryCount 3 (fun _ => Example.session .commits .commits true)).Calm := by
    intro p n
    change (if n = 0 then Fate.commits else if n = 1 then Fate.commits else Fate.commits) = _
    simp
  constructor
  · intro hsingle
    obtain hnone | ⟨hlt, -⟩ := (singleOutcome_iff_handsOver rfl (hcalm 3) rfl).mp hsingle
    · cases hnone
    · exact absurd hlt (by decide)
  · apply (singleOutcome_iff_handsOver rfl (hcalm 0) rfl).mpr
    exact Or.inr ⟨by decide, rfl⟩

/-- A run whose retries are exhausted is failed twice: two events are published, and the second
hook overwrites what the first one wrote. -/
theorem onError_postExecute_fail_twice :
  Example.message.extractTaskExecutionId = some Example.taskExecutionId ∧
    Example.failed.result = raised Example.exception ∧
    ((exec (onError Example.settings Example.message Example.exception) Example.failed
      (Example.world 3 3 (fun _ => Example.session .commits .commits true))).2.db.execution?
        Example.taskExecutionId).map (fun row => (row.statusMessage, row.errorDetail))
      = some (some "Task failed (max retries exceeded)", some "RuntimeError: crash") ∧
    ((exec (do
        onError Example.settings Example.message Example.exception
        postExecute Example.settings Example.message) Example.failed
      (Example.world 3 3 (fun _ => Example.session .commits .commits true))).2.db.execution?
        Example.taskExecutionId).map (fun row => (row.statusMessage, row.errorDetail))
      = some (some "Task failed", some "crash") ∧
    (exec (do
        onError Example.settings Example.message Example.exception
        postExecute Example.settings Example.message) Example.failed
      (Example.world 3 3 (fun _ => Example.session .commits .commits true))).2.events.map
        (fun e => e.2.name) = ["task_failed", "task_failed"]
  := ⟨rfl, rfl, rfl, rfl, rfl⟩

end Hook

end WorkerTemplate
