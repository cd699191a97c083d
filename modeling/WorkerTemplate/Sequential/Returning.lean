import WorkerTemplate.Sequential.Outcome

/-!
# Decisions that send nothing

A call of `on_error` that sends nothing, under every plan of what fails: which database it
leaves, compared with the one it leaves when nothing fails.
-/

namespace WorkerTemplate

/-! ### Databases up to their timestamps -/

/-- A row without its timestamps. -/
def TaskExecution.untimed (row : TaskExecution) : TaskExecution :=
  { row with startedAt := none, completedAt := none }

/-- A database without the timestamps of its executions. -/
def Database.untimed (db : Database) : Database :=
  { db with executions := db.executions.map TaskExecution.untimed }

/-- The time at which a decision is recorded is seen in the timestamps only. -/
theorem Database.untimed_decided (db : Database) (ctx : ErrorContext) (decision : RetryDecision)
    (task : TaskExecution) (now now' : Time) :
  (db.decided ctx decision task now).untimed = (db.decided ctx decision task now').untimed
  := by
  have hset (row : TaskExecution) :
      (row.set (task.changes (task.assign decision.status (ctx.update decision.statusMsg)
        now))).untimed
        = (row.set (task.changes (task.assign decision.status (ctx.update decision.statusMsg)
          now'))).untimed := by
    simp only [TaskExecution.untimed, TaskExecution.set, TaskExecution.changes,
      TaskExecution.assign]
  have hupdate : (db.apply (.updateExecution task.id (task.changes (task.assign decision.status
      (ctx.update decision.statusMsg) now)))).untimed
      = (db.apply (.updateExecution task.id (task.changes (task.assign decision.status
        (ctx.update decision.statusMsg) now')))).untimed := by
    simp only [Database.untimed, Database.apply, List.map_map]
    congr 1
    apply List.map_congr_left
    intro row _
    simp only [Function.comp_apply]
    split
    · apply hset
    · rfl
  unfold decided
  cases ctx.auditRow decision task with
  | none => apply hupdate
  | some audit =>
      simp only [Option.toList_some, List.map_cons, List.map_nil, Database.view_singleton]
      unfold Database.untimed at hupdate ⊢
      simpa [Database.apply, Database.freshAttemptId] using hupdate

namespace UnsentCall

variable {u : UnsentCall}

/-- The databases that hold the decision of a call differ in their timestamps only. -/
theorem Decided.untimed {db db' : Database} (h : u.Decided db) (h' : u.Decided db') :
  db.untimed = db'.untimed
  := by
  obtain ⟨now, rfl⟩ := h
  obtain ⟨now', rfl⟩ := h'
  apply Database.untimed_decided

end UnsentCall

/-! ### The pass that returns -/

/-- The first of the sessions whose first transaction commits. -/
structure FirstCommits (plan : ℕ → SessionPlan) (p : ℕ) : Prop where
  commits : (plan p).fate 0 = .commits
  before : ∀ q < p, (plan q).fate 0 ≠ .commits

/-- The first of the sessions after one that does not commit. -/
theorem FirstCommits.succ {plan : ℕ → SessionPlan} {p : ℕ} (hfate : (plan 0).fate 0 ≠ .commits)
    (h : FirstCommits (fun q => plan (q + 1)) p) :
  FirstCommits plan (p + 1)
  where
  commits := h.commits
  before q hq := by
    cases q with
    | zero => apply hfate
    | succ q => apply h.before q (by omega)

theorem FirstCommits.unique {plan : ℕ → SessionPlan} {p p' : ℕ} (h : FirstCommits plan p)
    (h' : FirstCommits plan p') :
  p = p'
  := by
  rcases Nat.lt_trichotomy p p' with hlt | heq | hlt
  · exact absurd h.commits (h'.before p hlt)
  · apply heq
  · exact absurd h'.commits (h.before p' hlt)

namespace UnsentCall

variable {u : UnsentCall}

/-- Whether a pass that finds a row marks the result. -/
def marks (u : UnsentCall) (row : TaskExecution) : Bool :=
  (u.settings.resolveRetryDecision (u.context row) {}).retryShadowed

/-- A mark is decided by the retry count the pass finds. -/
theorem marks_eq (u : UnsentCall) (row : TaskExecution) :
  u.marks row = (decide (row.retryCount < row.maxRetries)
    && !u.settings.retryGateAllows u.message.taskName row.tenantId
    && u.settings.taskRetryShadowMode)
  := u.settings.retryShadowed_resolveRetryDecision {} rfl

/-- How a call that returns ends: with its decision in the database, and with the mark of the
pass that returned, which has found the row as it was or the row with the decision. -/
structure Returned (u : UnsentCall) (n : ℕ) (s : Invocation) (w : World) (s' : Invocation)
    (w' : World) (p : ℕ) : Prop where
  le : p ≤ n
  first : FirstCommits w.plan p
  plan : w'.plan = fun q => w.plan (p + 1 + q)
  decided : u.Decided w'.db
  found : ∀ row, w.db.execution? u.row.id = some row →
    (∀ q < p, (w.plan q).fate 0 ≠ .applied) →
      s'.result = { s.result with shadowRetry := s.result.shadowRetry || u.marks row }
  written : (∃ q < p, (w.plan q).fate 0 = .applied) →
      s'.result = { s.result with shadowRetry := s.result.shadowRetry || u.marks (u.decidedRow 0) }

/-- A row with the decision of the call gives the same mark whenever it was written. -/
theorem Decided.marks {db : Database} (h : u.Decided db) {row : TaskExecution}
    (hrow : db.execution? u.row.id = some row) :
  u.marks row = u.marks (u.decidedRow 0)
  := by
  obtain ⟨now, rfl⟩ := h
  rw [Database.execution?_decided now u.found] at hrow
  obtain rfl := Option.some_injective _ hrow
  rw [marks_eq, marks_eq]
  rfl

/-- A pass that raises leaves the result as it was. -/
theorem Moves.result_of_ne {fate : Fate} {s s' : Invocation} {w : World} {db' : Database}
    (h : u.Moves fate s w.db s' db') (hstate : u.State s w) (hfate : fate ≠ .commits) :
  s'.result = s.result
  := by
  obtain ⟨row, hrow, -⟩ := hstate.records.row
  rw [h.result row hrow]
  simp [hfate]

/-- A call returns from its first pass when the transaction of this pass commits. -/
theorem Moves.returned {s s' : Invocation} {w w' : World}
    (h : u.Moves ((w.plan 0).fate 0) s w.db s' w'.db) (hun : u.Unmistakable)
    (hnot : u.Unmistaken s.attempt) (hfate : (w.plan 0).fate 0 = .commits)
    (hplan : w'.plan = fun q => w.plan (q + 1)) (n : ℕ) :
  u.Returned n s w s' w' 0
  where
  le := Nat.zero_le n
  first := ⟨hfate, fun _ hq => absurd hq (Nat.not_lt_zero _)⟩
  plan := by
    rw [hplan]
    funext q
    rw [Nat.zero_add, Nat.add_comm]
  decided := h.decided hun hnot (by simp [hfate])
  found row hrow _ := by
    rw [h.result row hrow, hfate]
    simp [marks]
  written hwritten := by
    obtain ⟨q, hq, -⟩ := hwritten
    exact absurd hq (Nat.not_lt_zero q)

/-- A call that returns from a later pass ends as the call that starts with this pass. -/
theorem Returned.succ {n p : ℕ} {s s₁ s' : Invocation} {w w₁ w' : World}
    (h : u.Returned n s₁ w₁ s' w' p) (hstate : u.State s w)
    (hmoves : u.Moves ((w.plan 0).fate 0) s w.db s₁ w₁.db) (hun : u.Unmistakable)
    (hnot : u.Unmistaken s.attempt) (hfate : (w.plan 0).fate 0 ≠ .commits)
    (hplan : w₁.plan = fun q => w.plan (q + 1)) :
  u.Returned (n + 1) s w s' w' (p + 1)
  := by
  have hresult := hmoves.result_of_ne hstate hfate
  have hfound := h.found
  have hwritten := h.written
  rw [hresult, hplan] at hfound hwritten
  have hshift (q : ℕ) (hq : q < p) : q + 1 < p + 1 := by omega
  constructor
  · apply Nat.succ_le_succ h.le
  · apply FirstCommits.succ hfate
    rw [← hplan]
    apply h.first
  · rw [h.plan, hplan]
    funext q
    change w.plan (p + 1 + q + 1) = w.plan (p + 1 + 1 + q)
    congr 1
    omega
  · apply h.decided
  · intro row hrow hnone
    have hlost : w₁.db = w.db := by
      cases hlost : (w.plan 0).fate 0 with
      | commits => exact absurd hlost hfate
      | applied => exact absurd hlost (hnone 0 (Nat.zero_lt_succ p))
      | lost k => apply hmoves.lost k hlost
    apply hfound row
    · rw [hlost, hrow]
    · intro q hq
      apply hnone (q + 1) (hshift q hq)
  · rintro ⟨q, hq, happlied⟩
    by_cases hlater : ∃ q < p, (w.plan (q + 1)).fate 0 = .applied
    · apply hwritten hlater
    · -- Only the first transaction has taken effect, and the passes after it find its row.
      cases q with
      | succ q => exact absurd ⟨q, by omega, happlied⟩ hlater
      | zero =>
          have hdecided : u.Decided w₁.db := hmoves.decided hun hnot (by simp [happlied])
          have hrow : ∃ row, w₁.db.execution? u.row.id = some row := by
            obtain ⟨now, hdb⟩ := hdecided
            use u.decidedRow now
            rw [hdb]
            apply Database.execution?_decided now u.found
          obtain ⟨row, hrow⟩ := hrow
          rw [hfound row hrow (fun q hq happlied => hlater ⟨q, hq, happlied⟩),
            hdecided.marks hrow]

/-- A call ends with the pass that returns. -/
theorem exec_createDbRetry_returned (n : ℕ) {s : Invocation} {w : World} (h : u.State s w)
    (hun : u.Unmistakable) (hnot : u.Unmistaken s.attempt) :
  ∃ r s' w', Hook.exec (Hook.createDbRetry (n + 1)
      (Hook.errorPass u.settings u.message u.exception u.row.id)) s w = ((r, s'), w') ∧
    u.State s' w' ∧ ((∃ a, r = .ok a) → ∃ p, u.Returned n s w s' w' p) ∧
    ((w.plan 0).fate 0 = .commits → ∃ a, r = .ok a)
  := by
  induction n generalizing s w with
  | zero =>
      obtain ⟨r, s', w', hrun, hstate, hplan, hr, hmoves⟩ := exec_errorPass_unsent h
      refine ⟨r, s', w', hrun, hstate, ?_, hr.mpr⟩
      intro hok
      exact ⟨0, hmoves.returned hun hnot (hr.mp hok) hplan 0⟩
  | succ n ih =>
      obtain ⟨r, s₁, w₁, hrun, hstate, hplan, hr, hmoves⟩ := exec_errorPass_unsent h
      cases r with
      | ok a =>
          have hfate : (w.plan 0).fate 0 = .commits := hr.mp ⟨a, rfl⟩
          refine ⟨_, s₁, w₁, Hook.exec_createDbRetry_ok (n + 1) hrun, hstate, ?_, fun _ => ⟨a, rfl⟩⟩
          intro _
          exact ⟨0, hmoves.returned hun hnot hfate hplan (n + 1)⟩
      | error e =>
          have hfate : (w.plan 0).fate 0 ≠ .commits := by simpa using hr
          obtain ⟨r, s', w', hrun', hstate', hreturned, -⟩ :=
            ih hstate (hmoves.unmistaken hun hnot)
          rw [Hook.exec_createDbRetry_error n hrun]
          refine ⟨r, s', w', hrun', hstate', ?_, fun hcommits => absurd hcommits hfate⟩
          intro hok
          obtain ⟨p, hreturned⟩ := hreturned hok
          exact ⟨p + 1, hreturned.succ h hmoves hun hnot hfate hplan⟩

/-- The calls of an error hook are the calls of its passes. -/
theorem exec_onError_returned {s : Invocation} {w : World} (h : u.State { s with attempt := {} } w)
    (hun : u.Unmistakable) :
  ∃ r s' w', Hook.exec (Hook.onError u.settings u.message u.exception) s w = ((r, s'), w') ∧
    u.State s' w' ∧ ((∃ a, r = .ok a) → ∃ p, u.Returned 2 { s with attempt := {} } w s' w' p) ∧
    ((w.plan 0).fate 0 = .commits → ∃ a, r = .ok a)
  := by
  obtain ⟨r, s', w', hrun, hends⟩ := exec_createDbRetry_returned 2 h hun rfl
  refine ⟨r, s', w', ?_, hends⟩
  rw [Hook.onError, u.execution]
  simp only []
  rw [Hook.modifyAttempt, Hook.exec_bind_ok (Hook.exec_modify _ _ _)]
  apply hrun

end UnsentCall

/-! ### Recording once -/

/-- The world in which nothing fails from now on. -/
def World.calmed (w : World) : World :=
  { w with plan := fun p => { w.plan p with fate := fun _ => .commits } }

/-- What a decision that sends nothing about a row writes: a shadowed retry raises the retry
count by one, and one audit row says that the retry was shadowed or blocked, unless the retries
are exhausted. -/
structure RecordsUnsent (settings : Settings) (row : TaskExecution) (db db' : Database) : Prop where
  execution : ∃ row', db'.execution? row.id = some row' ∧
    row'.retryCount = row.retryCount +
      if row.retryCount < row.maxRetries ∧ settings.taskRetryShadowMode = true then 1 else 0
  attempts : ∃ audit, db'.attempts = db.attempts ++ audit ∧
    audit.map (fun attempt => (attempt.taskExecutionId, attempt.dispatchResult))
      = if row.retryCount < row.maxRetries then
          [(row.id, if settings.taskRetryShadowMode = true then .shadowed else .blocked)]
        else []

namespace UnsentCall

variable {u : UnsentCall}

/-- The decision of a call, by the row it found. -/
theorem decision_eq (u : UnsentCall) :
  u.decision.retryAllowed = false ∧
    u.decision.shouldRetry = decide (u.row.retryCount < u.row.maxRetries) ∧
    u.decision.retryShadowed
      = (decide (u.row.retryCount < u.row.maxRetries) && u.settings.taskRetryShadowMode) ∧
    u.decision.status = if u.decision.retryShadowed then .retrying else .failed
  := by
  have hctx : (u.context u.row).task = some u.row := rfl
  have hallowed : u.decision.retryAllowed = false :=
    retryAllowed_of_row rfl rfl le_rfl {}
  have hstatus := u.settings.status_resolveRetryDecision {} hctx rfl
  refine ⟨hallowed, u.settings.shouldRetry_resolveRetryDecision {} hctx, ?_, ?_⟩
  · rw [decision, u.settings.retryShadowed_resolveRetryDecision {} hctx]
    by_cases hlt : u.row.retryCount < u.row.maxRetries
    · have hgate : u.settings.retryGateAllows u.message.taskName u.row.tenantId = false := by
        rw [Bool.eq_false_iff]
        exact fun hgate => u.refused ⟨hgate, hlt⟩
      change (_ && !u.settings.retryGateAllows u.message.taskName u.row.tenantId && _) = _
      rw [hgate, Bool.not_false, Bool.and_true]
    · simp [hlt]
  · change u.decision.status = if u.decision.retryAllowed || u.decision.retryShadowed then _ else _
      at hstatus
    rw [hstatus, hallowed, Bool.false_or]

/-- A decision that sends nothing is recorded once. -/
theorem Decided.records {db : Database} (h : u.Decided db) :
  RecordsUnsent u.settings u.row u.db db
  := by
  obtain ⟨now, rfl⟩ := h
  obtain ⟨hallowed, hshould, hshadowed, hstatus⟩ := u.decision_eq
  constructor
  · use u.decidedRow now, Database.execution?_decided now u.found
    change (if u.decision.status = .retrying then u.row.retryCount + 1 else u.row.retryCount) = _
    rw [hstatus, hshadowed]
    by_cases hlt : u.row.retryCount < u.row.maxRetries
    · cases hshadow : u.settings.taskRetryShadowMode with
      | true => simp [hlt]
      | false => simp [hlt]
    · simp [hlt]
  · rw [Database.decided, ErrorContext.auditRow, hallowed, hshould, hshadowed]
    by_cases hlt : u.row.retryCount < u.row.maxRetries
    · cases hshadow : u.settings.taskRetryShadowMode with
      | true =>
          simp only [hlt, decide_true, Bool.not_false, Bool.and_true, if_true]
          exact ⟨_, rfl, rfl⟩
      | false =>
          simp only [hlt, decide_true, Bool.not_false, Bool.and_true, if_true]
          exact ⟨_, rfl, rfl⟩
    · use []
      simp [hlt, Database.apply]

end UnsentCall

namespace Hook

variable {settings : Settings} {message : TaskiqMessage} {exception : PyException} {i : UUID}
  {row : TaskExecution} {s : Invocation} {w : World}

/-- An error hook about a running execution that sends nothing records its decision once when it
returns, and at most once when it raises. -/
theorem onError_records_once (hid : message.extractTaskExecutionId = some i)
    (hrow : w.db.execution? i = some row) (hrunning : row.status = .running)
    (hunsent : ¬ (settings.retryGateAllows message.taskName row.tenantId = true ∧
      row.retryCount < row.maxRetries)) :
  let calm := exec (onError settings message exception) s w.calmed
  let run := exec (onError settings message exception) s w
  calm.1.1 = .ok () ∧ RecordsUnsent settings row w.db calm.2.db ∧
    (run.1.1 = .ok () → run.2.db.untimed = calm.2.db.untimed) ∧
    ∀ e, run.1.1 = .error e → run.2.db.untimed = calm.2.db.untimed ∨ run.2.db = w.db
  := by
  obtain rfl : row.id = i := Database.id_of_execution? hrow
  let u : UnsentCall :=
    { settings, message, exception, row
      db := w.db
      sent := w.sent
      result := s.result
      execution := hid
      found := hrow
      refused := hunsent }
  have hun : u.Unmistakable := Or.inl hrunning
  have hstate : u.State { s with attempt := {} } w := ⟨.untouched rfl, rfl, rfl⟩
  have hstate' : u.State { s with attempt := {} } w.calmed := ⟨.untouched rfl, rfl, rfl⟩
  obtain ⟨r, s', w', hrun, hends, hreturned, -⟩ := UnsentCall.exec_onError_returned hstate hun
  obtain ⟨r₀, s₀, w₀, hcalm, -, hreturned₀, hok⟩ := UnsentCall.exec_onError_returned hstate' hun
  obtain ⟨⟨⟩, rfl⟩ := hok rfl
  obtain ⟨p₀, hreturned₀⟩ := hreturned₀ ⟨(), rfl⟩
  have hdecided₀ := hreturned₀.decided
  intro calm run
  rw [show calm = _ from hcalm, show run = _ from hrun]
  refine ⟨rfl, hdecided₀.records, ?_, ?_⟩
  · intro hok
    obtain ⟨p, hreturned⟩ := hreturned ⟨(), hok⟩
    apply hreturned.decided.untimed hdecided₀
  · intro e _
    cases hends.records with
    | untouched hdb => exact Or.inr hdb
    | decided now hdb _ => exact Or.inl (UnsentCall.Decided.untimed ⟨now, hdb⟩ hdecided₀)

theorem onError_records_once_of_lost_commit :
  let world := Example.world 0 3 (Example.plans (Example.session .applied .commits true)
    (Example.session .commits .commits true))
  let hook := onError Example.defaults Example.message Example.exception
  let calm := exec hook Example.failed world.calmed
  let run := exec hook Example.failed world
  calm.1.1 = .ok () ∧ RecordsUnsent Example.defaults (Example.row 0 3) world.db calm.2.db ∧
    (run.1.1 = .ok () → run.2.db.untimed = calm.2.db.untimed) ∧
    ∀ e, run.1.1 = .error e → run.2.db.untimed = calm.2.db.untimed ∨ run.2.db = world.db
  := onError_records_once rfl rfl rfl (by decide)

end Hook

end WorkerTemplate
