import WorkerTemplate.Sequential.Refinement

/-!
# Whole calls of an error hook

The passes of a call and the events between them.  A call for an execution that may be
retried is a run of its ledger from the ledger of the row it finds.
-/

namespace WorkerTemplate

/-- The event of a status change, with its room. -/
def statusEvent (settings : Settings) (message : TaskiqMessage) (status : TaskStatus)
    (statusMessage errorDetail : Option String) : Option (Text × TaskEvent) :=
  if settings.emitterInitialized then
    match message.extractTaskExecutionId, message.extractTenantId with
    | some taskId, some tenantId =>
        let taskName := message.taskName
        some ("org:".toList ++ tenantId.text,
          match status with
          | .completed => .completed { taskId, taskName, tenantId }
          | .failed => .failed { taskId, taskName, errorDetail, tenantId }
          | status =>
              .statusChanged { taskId, taskName, status := status.value, statusMessage, tenantId })
    | _, _ => none
  else none

/-- The world after an event has been published, if it is. -/
def World.published (w : World) (event : Option (Text × TaskEvent)) : World :=
  if w.emits then { w with events := w.events ++ event.toList } else w

namespace World

variable (w : World) (event : Option (Text × TaskEvent))

@[simp]
theorem db_published : (w.published event).db = w.db := by
  unfold published
  split
  · rfl
  · rfl

@[simp]
theorem plan_published : (w.published event).plan = w.plan := by
  unfold published
  split
  · rfl
  · rfl

@[simp]
theorem sent_published : (w.published event).sent = w.sent := by
  unfold published
  split
  · rfl
  · rfl

@[simp]
theorem published_none : w.published none = w := by
  unfold published
  split
  · simp
  · rfl

end World

namespace Hook

variable {s : Invocation} {w : World}

theorem exec_emitTaskEvent (settings : Settings) (tenantId : UUID) (event : TaskEvent) :
  exec (emitTaskEvent settings tenantId event) s w
    = ((.ok (), s), w.published
        (if settings.emitterInitialized then some ("org:".toList ++ tenantId.text, event)
          else none))
  := by
  unfold emitTaskEvent
  split
  case isTrue hinitialized =>
    rw [exec_bind, exec_perform]
    simp only [World.handle, World.published]
    split
    · rfl
    · rfl
  case isFalse hinitialized =>
    rw [World.published_none]
    rfl

/-- Emitting an event never raises, and publishes the event of the status. -/
theorem exec_emitStatusEvent (settings : Settings) (message : TaskiqMessage) (status : TaskStatus)
    (statusMessage errorDetail : Option String) :
  exec (emitStatusEvent settings message status statusMessage errorDetail) s w
    = ((.ok (), s), w.published (statusEvent settings message status statusMessage errorDetail))
  := by
  unfold emitStatusEvent statusEvent
  cases message.extractTaskExecutionId with
  | none => simp
  | some taskId =>
      cases message.extractTenantId with
      | none => simp
      | some tenantId =>
          simp only []
          cases status with
          | completed => apply exec_emitTaskEvent
          | failed => apply exec_emitTaskEvent
          | pending => apply exec_emitTaskEvent
          | queued => apply exec_emitTaskEvent
          | running => apply exec_emitTaskEvent
          | retrying => apply exec_emitTaskEvent
          | cancelled => apply exec_emitTaskEvent
          | partial_ => apply exec_emitTaskEvent

/-! ### Passes -/

variable {c : Call} {L : Ledger}

/-- A pass does to the tables what the pass of the ledger does to the ledger. -/
theorem errorPass_follows (h : L.Describes c s.attempt w) (hL : L.Sound c.maxRetries) :
  ∃ r s' w',
    exec (errorPass c.settings c.message c.exception c.taskExecutionId) s w = ((r, s'), w') ∧
    (L.pass c.maxRetries (w.plan 0)).1.Ends s.result r s'.result ∧
    (L.pass c.maxRetries (w.plan 0)).2.Describes c s'.attempt w' ∧
    w'.plan = fun p => w.plan (p + 1)
  := by
  have hstart : AtStart c L (w.plan 0) { s with identityMap := fun _ => none } w.opened :=
    ⟨h.congr rfl rfl, hL, rfl, rfl, rfl, rfl, rfl⟩
  obtain ⟨r, s', w', hrun, hends, hdescribes, hplan⟩ := hstart.follows
  have hsession := exec_withSession (s := s) (w := w)
    (errorSession c.settings c.message c.exception c.taskExecutionId)
  rw [hrun] at hsession
  cases r with
  | error e =>
      refine ⟨.error e, s', w'.closed, ?_, ?_, hdescribes.congr rfl rfl, hplan⟩
      · rw [errorPass, exec_bind_error hsession]
      · cases houtcome : (L.pass c.maxRetries (w.plan 0)).1 with
        | raised =>
            rw [houtcome] at hends
            exact ⟨⟨e, rfl⟩, hends.2⟩
        | settled =>
            rw [houtcome] at hends
            obtain ⟨⟨a, ha⟩, -⟩ := hends
            cases ha
        | resent =>
            rw [houtcome] at hends
            obtain ⟨⟨a, ha⟩, -⟩ := hends
            cases ha
  | ok emitted =>
      obtain ⟨status, statusMsg⟩ := emitted
      refine ⟨.ok (), s', w'.closed.published (statusEvent c.settings c.message status
        (some statusMsg) (some s!"{c.exception.typeName}: {c.settings.text c.exception}")),
        ?_, ?_, ?_, ?_⟩
      · rw [errorPass, exec_bind_ok hsession]
        apply exec_emitStatusEvent
      · cases houtcome : (L.pass c.maxRetries (w.plan 0)).1 with
        | raised =>
            rw [houtcome] at hends
            obtain ⟨⟨e, he⟩, -⟩ := hends
            cases he
        | settled =>
            rw [houtcome] at hends
            exact ⟨⟨(), rfl⟩, hends.2⟩
        | resent =>
            rw [houtcome] at hends
            exact ⟨⟨(), rfl⟩, hends.2⟩
      · apply hdescribes.congr
        · rw [World.db_published]
          rfl
        · rw [World.sent_published]
          rfl
      · rw [World.plan_published]
        apply hplan

/-- The passes of a call are a run of the ledger. -/
theorem createDbRetry_follows (n : ℕ) (h : L.Describes c s.attempt w)
    (hL : L.Sound c.maxRetries) :
  ∃ r s' w', exec (createDbRetry (n + 1)
      (errorPass c.settings c.message c.exception c.taskExecutionId)) s w = ((r, s'), w') ∧
    (L.run c.maxRetries (n + 1) w.plan).1.Ends s.result r s'.result ∧
    (L.run c.maxRetries (n + 1) w.plan).2.Describes c s'.attempt w'
  := by
  induction n generalizing s w L with
  | zero =>
      obtain ⟨r, s', w', hrun, hends, hdescribes, -⟩ := errorPass_follows h hL
      have hlast : L.run c.maxRetries 1 w.plan = L.pass c.maxRetries (w.plan 0) := by
        simp only [Ledger.run]
        split
        case h_1 hpass => rw [hpass]
        case h_2 hpass => rw [hpass]
      rw [hlast]
      exact ⟨r, s', w', hrun, hends, hdescribes⟩
  | succ n ih =>
      obtain ⟨r, s', w', hrun, hends, hdescribes, hplan⟩ := errorPass_follows h hL
      rw [Ledger.run]
      have hsound := hL.pass (w.plan 0)
      cases houtcome : L.pass c.maxRetries (w.plan 0) with
      | mk outcome L' =>
          rw [houtcome] at hends hdescribes hsound
          cases outcome with
          | raised =>
              obtain ⟨⟨e, rfl⟩, hresult⟩ := hends
              rw [exec_createDbRetry_error n hrun, ← hplan, ← hresult]
              apply ih hdescribes hsound
          | settled =>
              obtain ⟨⟨a, rfl⟩, hresult⟩ := hends
              exact ⟨_, s', w', exec_createDbRetry_ok (n + 1) hrun, ⟨⟨a, rfl⟩, hresult⟩, hdescribes⟩
          | resent =>
              obtain ⟨⟨a, rfl⟩, hresult⟩ := hends
              exact ⟨_, s', w', exec_createDbRetry_ok (n + 1) hrun, ⟨⟨a, rfl⟩, hresult⟩, hdescribes⟩

/-! ### Calls -/

/-- A ledger of an execution describes the tables a call finds. -/
theorem describes_initial {row : TaskExecution}
    (hrow : w.db.execution? c.taskExecutionId = some row) (htenant : row.tenantId = c.tenantId)
    (hmax : row.maxRetries = c.maxRetries) (hattempts : w.db.attempts.length = c.attempts)
    (hsent : w.sent = c.sent) :
  (Ledger.initial row.status row.retryCount).Describes c {} w
  where
  row := by
    refine ⟨row, hrow, htenant, hmax, rfl, rfl, rfl, ?_, ?_, ?_⟩
    · intro hrecorded
      cases hrecorded
    · intro hrecorded
      cases hrecorded
    · intro hrecorded
      cases hrecorded
  audits := by
    constructor
    exact ⟨w.db.attempts, [], none, [], by simp, hattempts, rfl, rfl, rfl, by simp⟩
  sent := by simpa [Ledger.initial] using hsent

/-- What a call of `on_error` for an execution whose retries are allowed leaves behind is what
the run of its ledger leaves behind, and it ends as the run does. -/
theorem exec_onError_ledger {settings : Settings} {message : TaskiqMessage}
    (exception : PyException) {i : UUID} {row : TaskExecution}
    (hid : message.extractTaskExecutionId = some i) (hrow : w.db.execution? i = some row)
    (hgate : settings.retryGateAllows message.taskName row.tenantId = true)
    (hlt : row.retryCount < row.maxRetries) :
  ∃ r s' w' outcome L, exec (onError settings message exception) s w = ((r, s'), w') ∧
    (Ledger.initial row.status row.retryCount).run row.maxRetries 3 w.plan = (outcome, L) ∧
    outcome.Ends s.result r s'.result ∧
    (∃ row', w'.db.execution? i = some row' ∧ row'.status = L.status ∧
      row'.retryCount = L.retryCount ∧ (L.recorded = true →
        row'.errorDetail = some s!"{exception.typeName}: {settings.text exception}")) ∧
    w'.db.attempts.length = w.db.attempts.length + L.audit.length ∧
    (w'.db.attempts.drop w.db.attempts.length).map TaskAttempt.entry = L.audit ∧
    w'.sent = w.sent ++ List.replicate L.sent message
  := by
  let c : Call :=
    { settings, message, exception
      taskExecutionId := i
      tenantId := row.tenantId
      maxRetries := row.maxRetries
      attempts := w.db.attempts.length
      sent := w.sent
      execution := hid
      allowed := hgate }
  have hinitial : (Ledger.initial row.status row.retryCount).Describes c {} w :=
    describes_initial hrow rfl rfl rfl rfl
  have hsound : (Ledger.initial row.status row.retryCount).Sound c.maxRetries :=
    Ledger.Sound.initial row.status hlt
  obtain ⟨r, s', w', hrun, hends, hdescribes⟩ :=
    createDbRetry_follows (s := { s with attempt := {} }) 2 hinitial hsound
  obtain ⟨row', hrow', hdescribesRow⟩ := hdescribes.row
  refine ⟨r, s', w', _, _, ?_, rfl, hends, ⟨row', hrow', hdescribesRow.status,
    hdescribesRow.retryCount, hdescribesRow.errorDetail⟩, hdescribes.audits.length,
    hdescribes.audits.drop, hdescribes.sent⟩
  rw [onError, hid]
  simp only []
  rw [modifyAttempt, exec_bind_ok (exec_modify _ _ _)]
  apply hrun

end Hook

end WorkerTemplate
