import WorkerTemplate.Receiver
import WorkerTemplate.Sequential.Passes.Sentinel
import WorkerTemplate.Sequential.Unsent

/-!
# Calls of `on_error` under database failures

What one call of `on_error` does to the broker, to the retry count and to the result of the
task, for every pattern of failures of its transactions and every answer of the broker.
-/

namespace WorkerTemplate

namespace Example

/-- The world of a running execution under a plan. -/
def world (retryCount maxRetries : ℕ) (plan : ℕ → SessionPlan) : World where
  db := { executions := [row retryCount maxRetries], attempts := [] }
  plan := plan

/-- The plan of a session by the fates of its first two transactions. -/
def session (first second : Fate) (accepts : Bool) : SessionPlan where
  fate n := if n = 0 then first else if n = 1 then second else .commits
  accepts := accepts

/-- A plan by its first two sessions; nothing fails later. -/
def plans (first second : SessionPlan) : ℕ → SessionPlan
  | 0 => first
  | 1 => second
  | _ => session .commits .commits true

end Example

namespace Hook

variable {settings : Settings} {message : TaskiqMessage} {exception : PyException} {i : UUID}
  {row : TaskExecution} {s : Invocation} {w : World}

theorem initial_fresh (hlt : row.retryCount < row.maxRetries) :
  (Ledger.initial row.status row.retryCount).Fresh row.maxRetries
  := ⟨rfl, hlt⟩

/-! ### Messages -/

/-- A call of `on_error` has its message accepted at most once, unless its plan makes it send
twice. -/
theorem onError_sends_once_iff
    (hid : message.extractTaskExecutionId = some i) (hrow : w.db.execution? i = some row)
    (hgate : settings.retryGateAllows message.taskName row.tenantId = true) :
  (exec (onError settings message exception) s w).2.sent.length ≤ w.sent.length + 1
    ↔ ¬ SendsTwice row.retryCount row.maxRetries w.plan
  := by
  by_cases hlt : row.retryCount < row.maxRetries
  · obtain ⟨r, s', w', outcome, L, hrun, hledger, -, -, -, -, hsent⟩ :=
      exec_onError_ledger exception (s := s) hid hrow hgate hlt
    have htwo := Ledger.two_le_sent_run_three (initial_fresh hlt) w.plan
    rw [hledger] at htwo
    have hiff : 2 ≤ L.sent ↔ SendsTwice row.retryCount row.maxRetries w.plan := by
      simpa [Ledger.initial] using htwo
    rw [hrun, hsent, List.length_append, List.length_replicate, ← hiff]
    omega
  · obtain ⟨r, s', w', hrun, hsent, -⟩ :=
      exec_onError_unsent exception s hid hrow (fun hallowed => hlt hallowed.2)
    rw [hrun, hsent]
    refine iff_of_true (Nat.le_succ _) ?_
    rintro ⟨hlt', -⟩
    omega

/-- A message whose record was lost with its first commit is sent once. -/
theorem onError_sends_once_of_lost_commit :
  (exec (onError Example.settings Example.message Example.exception) Example.failed
      (Example.world 0 1 (Example.plans (Example.session (.lost 4) .commits true)
        (Example.session .commits .commits true)))).2.sent = [Example.message] ∧
    ¬ SendsTwice 0 1 (Example.plans (Example.session (.lost 4) .commits true)
        (Example.session .commits .commits true))
  := by
  have hrow : (Example.world 0 1 (Example.plans (Example.session (.lost 4) .commits true)
      (Example.session .commits .commits true))).db.execution? Example.taskExecutionId
        = some (Example.row 0 1) := rfl
  have hiff : (exec (onError Example.settings Example.message Example.exception) Example.failed
      (Example.world 0 1 (Example.plans (Example.session (.lost 4) .commits true)
        (Example.session .commits .commits true)))).2.sent.length ≤ 0 + 1 ↔ _ :=
    onError_sends_once_iff rfl hrow (by decide)
  exact ⟨rfl, hiff.mp le_rfl⟩

/-- A message that was accepted but could not be marked is sent again. -/
theorem onError_sends_twice :
  Example.message.extractTaskExecutionId = some (Example.row 0 3).id ∧
    Example.settings.retryGateAllows Example.message.taskName (Example.row 0 3).tenantId = true ∧
    (exec (onError Example.settings Example.message Example.exception) Example.failed
      (Example.world 0 3 (Example.plans (Example.session .commits (.lost 1) true)
        (Example.session .commits .commits true)))).2.sent
      = [Example.message, Example.message]
  := ⟨rfl, by decide, rfl⟩

/-! ### Failures before the message is sent -/

/-- A call of `on_error` has returned with its message sent, its retry counted and audited as
dispatched, and the outcome left to the receiver. -/
structure RetryKept (message : TaskiqMessage) (row : TaskExecution) (w : World)
    (r : Except OperationalError Unit) (s' : Invocation) (w' : World) : Prop where
  returns : ∃ a, r = .ok a
  sent : w'.sent = w.sent ++ [message]
  retryCount : ∃ row', w'.db.execution? row.id = some row' ∧
    row'.retryCount = row.retryCount + 1
  audit : ∃ attempt, w'.db.attempts.drop w.db.attempts.length = [attempt] ∧
    attempt.dispatchResult = .dispatched
  result : s'.result.error = some .noResultError

/-- A retry that is allowed is kept when nothing fails after the first transaction of a pass
has committed, unless it uses up the budget and was recorded by a commit that raised. -/
theorem onError_keeps_retry_iff
    (hid : message.extractTaskExecutionId = some i) (hrow : w.db.execution? i = some row)
    (hgate : settings.retryGateAllows message.taskName row.tenantId = true)
    (hlt : row.retryCount < row.maxRetries) (haccepts : ∀ p, (w.plan p).accepts = true)
    (hsecond : ∀ p, (w.plan p).fate 1 = .commits)
    (hcommits : ∃ p < 3, (w.plan p).fate 0 = .commits) :
  RetryKept message row w (exec (onError settings message exception) s w).1.1
      (exec (onError settings message exception) s w).1.2
      (exec (onError settings message exception) s w).2
    ↔ row.retryCount + 1 < row.maxRetries ∨ CommitsFirst w.plan
  := by
  obtain ⟨r, s', w', outcome, L, hrun, hledger, hends, hrow', -, hdrop, hsent⟩ :=
    exec_onError_ledger exception (s := s) hid hrow hgate hlt
  have hfresh := initial_fresh hlt
  have hrowId : row.id = i := Database.id_of_execution? hrow
  rw [hrun]
  by_cases hbudget : row.retryCount + 1 < row.maxRetries ∨ CommitsFirst w.plan
  · refine iff_of_true ?_ hbudget
    rw [hfresh.run_of_commits 3 haccepts hsecond hcommits hbudget] at hledger
    obtain ⟨rfl, rfl⟩ := Prod.ext_iff.mp hledger
    obtain ⟨hsent', hcount, haudit⟩ := hfresh.record_send_mark rfl rfl
    obtain ⟨⟨a, ha⟩, hresult⟩ := hends
    obtain ⟨row', hfound, -, hcount', -⟩ := hrow'
    constructor
    · exact ⟨a, ha⟩
    · rw [hsent]
      change _ ++ List.replicate (Ledger.send _).mark.sent message = _
      rw [hsent']
      rfl
    · rw [hrowId]
      exact ⟨row', hfound, hcount'.trans hcount⟩
    · change _ = (Ledger.send _).mark.audit at hdrop
      rw [haudit] at hdrop
      obtain ⟨attempt, hattempt, hentry⟩ := List.map_eq_singleton_iff.mp hdrop
      exact ⟨attempt, hattempt, (Prod.ext_iff.mp hentry).2⟩
    · rw [hresult]
  · refine iff_of_false ?_ hbudget
    intro hkept
    have hnone := hfresh.sent_run_of_not_commitsFirst 3 hcommits hbudget
    rw [hledger] at hnone
    have hsent' := hkept.sent
    rw [hsent, show L.sent = 0 from hnone] at hsent'
    simp at hsent'

/-- The last retry of an execution is kept when its first commit has no effect. -/
theorem onError_keeps_retry_of_lost_commit :
  CommitsFirst (Example.plans (Example.session (.lost 4) .commits true)
      (Example.session .commits .commits true)) ∧
    RetryKept Example.message (Example.row 0 1)
      (Example.world 0 1 (Example.plans (Example.session (.lost 4) .commits true)
        (Example.session .commits .commits true)))
      (exec (onError Example.settings Example.message Example.exception) Example.failed
        (Example.world 0 1 (Example.plans (Example.session (.lost 4) .commits true)
          (Example.session .commits .commits true)))).1.1
      (exec (onError Example.settings Example.message Example.exception) Example.failed
        (Example.world 0 1 (Example.plans (Example.session (.lost 4) .commits true)
          (Example.session .commits .commits true)))).1.2
      (exec (onError Example.settings Example.message Example.exception) Example.failed
        (Example.world 0 1 (Example.plans (Example.session (.lost 4) .commits true)
          (Example.session .commits .commits true)))).2
  := by
  have hfirst : CommitsFirst (Example.plans (Example.session (.lost 4) .commits true)
      (Example.session .commits .commits true)) := by
    rintro (_ | _ | p) - ⟨⟩
  have hrow : (Example.world 0 1 (Example.plans (Example.session (.lost 4) .commits true)
      (Example.session .commits .commits true))).db.execution? Example.taskExecutionId
        = some (Example.row 0 1) := rfl
  use hfirst
  refine (onError_keeps_retry_iff rfl hrow (by decide) (by decide) ?_ ?_ ?_).mpr (Or.inr hfirst)
  · rintro (_ | _ | p)
    · rfl
    · rfl
    · rfl
  · rintro (_ | _ | p)
    · rfl
    · rfl
    · rfl
  · exact ⟨1, by decide, rfl⟩

/-- The last permitted retry of an execution is lost when the commit that records it takes effect
and raises: the next pass finds the budget used up, and the message is never sent. -/
theorem onError_loses_last_retry :
  Example.message.extractTaskExecutionId = some (Example.row 0 1).id ∧
    Example.settings.retryGateAllows Example.message.taskName (Example.row 0 1).tenantId = true ∧
    (Example.row 0 1).retryCount < (Example.row 0 1).maxRetries ∧
    (exec (onError Example.settings Example.message Example.exception) Example.failed
      (Example.world 0 1 (Example.plans (Example.session .applied .commits true)
        (Example.session .commits .commits true)))).2.sent = []
  := ⟨rfl, by decide, by decide, rfl⟩

/-! ### The result of the task -/

/-- The hook after the error hook leaves a task to the receiver of its message. -/
theorem exec_postExecute_of_noResult (settings : Settings) (message : TaskiqMessage)
    {s : Invocation} (h : s.result.error = some .noResultError) (w : World) :
  exec (postExecute settings message) s w = ((.ok (), s), w)
  := by
  rw [postExecute, dbRetry, defaultMaxAttempts]
  apply exec_createDbRetry_ok 2
  cases message.extractTaskExecutionId with
  | none => rfl
  | some taskExecutionId =>
      simp only []
      rw [exec_bind_ok (exec_get s w)]
      simp only [h, if_true]
      rfl

/-- A call of `on_error` has raised, or it has returned with the sentinel exactly when its message
was accepted; then the hook after it does not write. -/
def OwnsOutcome (settings : Settings) (message : TaskiqMessage) (w : World)
    (r : Except OperationalError Unit) (s' : Invocation) (w' : World) : Prop :=
  (∃ a, r = .ok a) →
    (s'.result.error = some .noResultError ↔ w'.sent ≠ w.sent) ∧
      (w'.sent ≠ w.sent → (exec (postExecute settings message) s' w').2.db = w'.db)

theorem ownsOutcome_iff (settings : Settings) (message : TaskiqMessage) (w : World)
    (r : Except OperationalError Unit) (s' : Invocation) (w' : World) :
  OwnsOutcome settings message w r s' w'
    ↔ ((∃ a, r = .ok a) → (s'.result.error = some .noResultError ↔ w'.sent ≠ w.sent))
  := by
  constructor
  · intro h hreturns
    exact (h hreturns).1
  · intro h hreturns
    use h hreturns
    intro hsent
    rw [exec_postExecute_of_noResult settings message ((h hreturns).mpr hsent)]

/-- A call of `on_error` that returns leaves the sentinel exactly when its message was accepted,
unless its plan makes it lose the sentinel. -/
theorem onError_owns_outcome_iff
    (hid : message.extractTaskExecutionId = some i) (hrow : w.db.execution? i = some row)
    (hexception : exception ≠ .noResultError) (hresult : s.result.error = some exception) :
  OwnsOutcome settings message w (exec (onError settings message exception) s w).1.1
      (exec (onError settings message exception) s w).1.2
      (exec (onError settings message exception) s w).2
    ↔ ¬ (settings.retryGateAllows message.taskName row.tenantId = true ∧
        row.retryCount < row.maxRetries ∧ LosesSentinel row.retryCount row.maxRetries w.plan)
  := by
  have herror : s.result.error ≠ some .noResultError := by
    rw [hresult]
    intro h
    apply hexception (Option.some_injective _ h)
  rw [ownsOutcome_iff]
  by_cases hallowed : settings.retryGateAllows message.taskName row.tenantId = true ∧
      row.retryCount < row.maxRetries
  · obtain ⟨hgate, hlt⟩ := hallowed
    obtain ⟨r, s', w', outcome, L, hrun, hledger, hends, -, -, -, hsent⟩ :=
      exec_onError_ledger exception (s := s) hid hrow hgate hlt
    have hsettled := Ledger.run_three_eq_settled (initial_fresh hlt) w.plan
    rw [hledger] at hsettled
    have hiff : outcome = .settled ∧ 0 < L.sent
        ↔ LosesSentinel row.retryCount row.maxRetries w.plan := hsettled
    have hne : w'.sent ≠ w.sent ↔ 0 < L.sent := by
      rw [hsent, Ne, List.append_right_eq_self, List.replicate_eq_nil_iff]
      omega
    rw [hrun, hne]
    simp only [hgate, hlt, true_and, ← hiff]
    cases outcome with
    | raised =>
        obtain ⟨⟨e, rfl⟩, -⟩ := hends
        simp
    | settled =>
        obtain ⟨hreturns, hkept⟩ := hends
        simp [hreturns, hkept, herror]
    | resent =>
        obtain ⟨hreturns, hkept⟩ := hends
        have hpos : 0 < ((Ledger.initial row.status row.retryCount).run row.maxRetries 3
            w.plan).2.sent := by
          apply Ledger.sent_of_resent 3 w.plan (Nat.zero_le _)
          · simp [Ledger.initial]
          · rw [hledger]
        rw [hledger] at hpos
        simp [hkept, hpos]
  · obtain ⟨r, s', w', hrun, hsent, herror', -⟩ :=
      exec_onError_unsent exception s hid hrow hallowed
    rw [hrun]
    refine iff_of_true ?_ ?_
    · intro _
      rw [herror', hsent]
      simp [herror]
    · rintro ⟨hgate, hlt, -⟩
      apply hallowed ⟨hgate, hlt⟩

/-- The outcome of a retry whose first commit was lost is left to the receiver of its message. -/
theorem onError_owns_outcome_of_lost_commit :
  OwnsOutcome Example.settings Example.message
      (Example.world 0 1 (Example.plans (Example.session (.lost 4) .commits true)
        (Example.session .commits .commits true)))
      (exec (onError Example.settings Example.message Example.exception) Example.failed
        (Example.world 0 1 (Example.plans (Example.session (.lost 4) .commits true)
          (Example.session .commits .commits true)))).1.1
      (exec (onError Example.settings Example.message Example.exception) Example.failed
        (Example.world 0 1 (Example.plans (Example.session (.lost 4) .commits true)
          (Example.session .commits .commits true)))).1.2
      (exec (onError Example.settings Example.message Example.exception) Example.failed
        (Example.world 0 1 (Example.plans (Example.session (.lost 4) .commits true)
          (Example.session .commits .commits true)))).2 ∧
    ¬ LosesSentinel 0 1 (Example.plans (Example.session (.lost 4) .commits true)
        (Example.session .commits .commits true))
  := by
  have hrow : (Example.world 0 1 (Example.plans (Example.session (.lost 4) .commits true)
      (Example.session .commits .commits true))).db.execution? Example.taskExecutionId
        = some (Example.row 0 1) := rfl
  have hkeeps : ¬ LosesSentinel 0 1 (Example.plans (Example.session (.lost 4) .commits true)
      (Example.session .commits .commits true)) := by
    rw [LosesSentinel]
    decide
  refine ⟨(onError_owns_outcome_iff rfl hrow (by decide) rfl).mpr ?_, hkeeps⟩
  rintro ⟨-, -, hloses⟩
  apply hkeeps hloses

/-- A message that was accepted but could not be marked uses up the budget, so the next pass
returns without the sentinel, and the hook after it fails the execution whose retry is on
its way. -/
theorem onError_disowns_outcome :
  Example.message.extractTaskExecutionId = some (Example.row 0 1).id ∧
    Example.failed.result.error = some Example.exception ∧
    Example.exception ≠ .noResultError ∧
    (exec (onError Example.settings Example.message Example.exception) Example.failed
      (Example.world 0 1 (Example.plans (Example.session .commits (.lost 0) true)
        (Example.session .commits .commits true)))).1.1 = .ok () ∧
    (exec (onError Example.settings Example.message Example.exception) Example.failed
      (Example.world 0 1 (Example.plans (Example.session .commits (.lost 0) true)
        (Example.session .commits .commits true)))).2.sent = [Example.message] ∧
    ((exec (do
        onError Example.settings Example.message Example.exception
        postExecute Example.settings Example.message) Example.failed
      (Example.world 0 1 (Example.plans (Example.session .commits (.lost 0) true)
        (Example.session .commits .commits true)))).2.db.execution?
          Example.taskExecutionId).map (fun row => (row.status, row.statusMessage))
      = some (.failed, some "Task failed")
  := ⟨rfl, rfl, by decide, rfl, rfl, rfl⟩

/-! ### The retry budget -/

/-- A call of `on_error` raises the retry count by at most one, unless its plan makes it
record two retries. -/
theorem onError_spends_one_iff
    (hid : message.extractTaskExecutionId = some i) (hrow : w.db.execution? i = some row) :
  (∃ row', (exec (onError settings message exception) s w).2.db.execution? i = some row' ∧
      (row'.retryCount = row.retryCount ∨ row'.retryCount = row.retryCount + 1))
    ↔ ¬ (settings.retryGateAllows message.taskName row.tenantId = true ∧
        SpendsTwice row.retryCount row.maxRetries w.plan)
  := by
  by_cases hallowed : settings.retryGateAllows message.taskName row.tenantId = true ∧
      row.retryCount < row.maxRetries
  · obtain ⟨hgate, hlt⟩ := hallowed
    obtain ⟨r, s', w', outcome, L, hrun, hledger, -, ⟨row', hrow', -, hcount, -⟩, -⟩ :=
      exec_onError_ledger exception (s := s) hid hrow hgate hlt
    have htwo := Ledger.two_le_retryCount_run_three (initial_fresh hlt) w.plan
    have hle := Ledger.retryCount_le_run row.maxRetries 3 w.plan
      (Ledger.initial row.status row.retryCount)
    rw [hledger] at htwo hle
    have hiff : row.retryCount + 2 ≤ L.retryCount
        ↔ SpendsTwice row.retryCount row.maxRetries w.plan := htwo
    have hle' : row.retryCount ≤ L.retryCount := hle
    rw [hrun]
    simp only [hgate, true_and, ← hiff, hrow', Option.some.injEq, exists_eq_left']
    omega
  · obtain ⟨r, s', w', hrun, -, -, hcount⟩ := exec_onError_unsent exception s hid hrow hallowed
    rw [hrun]
    refine iff_of_true hcount ?_
    rintro ⟨hgate, hlt, -⟩
    apply hallowed ⟨hgate, by omega⟩

/-- A retry whose first commit was lost is counted once. -/
theorem onError_spends_one_of_lost_commit :
  ((exec (onError Example.settings Example.message Example.exception) Example.failed
      (Example.world 0 1 (Example.plans (Example.session (.lost 4) .commits true)
        (Example.session .commits .commits true)))).2.db.execution?
          Example.taskExecutionId).map (·.retryCount) = some 1 ∧
    ¬ SpendsTwice 0 1 (Example.plans (Example.session (.lost 4) .commits true)
        (Example.session .commits .commits true))
  := by
  have hrow : (Example.world 0 1 (Example.plans (Example.session (.lost 4) .commits true)
      (Example.session .commits .commits true))).db.execution? Example.taskExecutionId
        = some (Example.row 0 1) := rfl
  have hiff : (∃ row', (exec (onError Example.settings Example.message Example.exception)
      Example.failed (Example.world 0 1 (Example.plans (Example.session (.lost 4) .commits true)
        (Example.session .commits .commits true)))).2.db.execution? Example.taskExecutionId
          = some row' ∧ (row'.retryCount = 0 ∨ row'.retryCount = 0 + 1)) ↔ _ :=
    onError_spends_one_iff rfl hrow
  use rfl
  intro hspends
  apply hiff.mp ⟨_, rfl, Or.inr rfl⟩
  exact ⟨by decide, hspends⟩

/-- A rejected message whose failure is lost after the record of the call was overwritten makes
the next pass record a second retry. -/
theorem onError_spends_two :
  Example.message.extractTaskExecutionId = some (Example.row 0 3).id ∧
    ((exec (onError Example.settings Example.message Example.exception) Example.failed
      (Example.world 0 3 (Example.plans (Example.session .commits (.lost 4) false)
        (Example.session .commits .commits true)))).2.db.execution?
          Example.taskExecutionId).map (·.retryCount) = some 2
  := ⟨rfl, rfl⟩

end Hook

end WorkerTemplate
