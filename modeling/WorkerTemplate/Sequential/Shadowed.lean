import WorkerTemplate.Sequential.Returning

/-!
# The mark of a shadowed retry

A call of `on_error` that shadows a retry marks the result, so that the hook after it keeps the
row as it is.  The mark is lost when a pass finds what an earlier one has recorded.
-/

namespace WorkerTemplate

namespace Hook

variable {settings : Settings} {message : TaskiqMessage} {exception : PyException} {i : UUID}
  {row : TaskExecution} {s : Invocation} {w : World}

/-- The row after a transaction that updates it, under a fate. -/
def leaves (fate : Fate) (row row' : TaskExecution) : TaskExecution :=
  match fate with
  | .lost _ => row
  | _ => row'

/-- A transaction that is not lost leaves the updated row. -/
theorem leaves_of_ne {fate : Fate} (h : ∀ k, fate ≠ .lost k) (row row' : TaskExecution) :
  leaves fate row row' = row'
  := by
  cases fate with
  | commits => rfl
  | lost k => exact absurd rfl (h k)
  | applied => rfl

/-- A transaction that is lost leaves the row. -/
theorem leaves_of_not {fate : Fate} (h : ¬ ∀ k, fate ≠ .lost k) (row row' : TaskExecution) :
  leaves fate row row' = row
  := by
  cases fate with
  | commits => exact absurd (by simp) h
  | lost k => rfl
  | applied => exact absurd (by simp) h

/-- A session that sets the status of an execution, under every fate of its transaction. -/
theorem exec_setStatus_of_fate (status : TaskStatus) (fields : StatusUpdate)
    (hrow : w.db.execution? i = some row) :
  ∃ r s' w', exec (setStatus i status fields) s w = ((r, s'), w') ∧ s'.result = s.result ∧
    w'.plan = (fun p => w.plan (p + 1)) ∧
    ((∃ a, r = .ok a) ↔ (w.plan 0).fate 0 = .commits) ∧
    w'.db.execution? i
      = some (leaves ((w.plan 0).fate 0) row (row.assign status fields w.clock))
  := by
  have hview : w.opened.view.execution? i = some row := hrow
  have hid : row.id = i := Database.id_of_execution? hrow
  have hupdated : (w.opened.updated row status fields).view.execution? i
      = some (row.assign status fields w.clock) := by
    rw [World.updated, World.view_push, World.view_tick, Database.view_singleton, hid,
      Database.execution?_updateExecution_self, hview, Option.map_some,
      TaskExecution.set_changes_assign]
    rfl
  rw [setStatus, exec_withSession]
  cases hfate : (w.plan 0).fate 0 with
  | commits =>
      have hw : w.opened.fate = .commits := hfate
      have hw' : (w.opened.updated row status fields).fate = .commits := hfate
      rw [exec_bind_ok (exec_updateTaskStatus (World.up_of_commits hw) status fields (Or.inl rfl)
        hview), exec_commit hw']
      exact ⟨_, _, _, rfl, rfl, rfl, by simp, hupdated⟩
  | applied =>
      have hw : w.opened.fate = .applied := hfate
      have hw' : (w.opened.updated row status fields).fate = .applied := hfate
      rw [exec_bind_ok (exec_updateTaskStatus (World.up_of_applied hw) status fields (Or.inl rfl)
        hview), exec_commit_applied hw']
      exact ⟨_, _, _, rfl, rfl, rfl, by simp, hupdated⟩
  | lost k =>
      have hdoomed : Doomed (fun _ result => result = s.result) (do
          let _ ← updateTaskStatus i status fields
          commit) :=
        (inert_updateTaskStatus i status fields).bind_doomed (fun _ => doomed_commit)
      obtain ⟨e, s', w', hrun, hresult, hagrees⟩ :=
        hdoomed { s with identityMap := fun _ => none } w.opened k rfl hfate
      rw [hrun]
      refine ⟨_, _, _, rfl, hresult, hagrees.plan, by simp, ?_⟩
      change w'.db.execution? i = some row
      rw [hagrees.db]
      apply hrow

/-- One of the first sessions does not lose its first transaction. -/
def Writes (n : ℕ) (plan : ℕ → SessionPlan) : Prop :=
  ∃ q ≤ n, ∀ k, (plan q).fate 0 ≠ .lost k

/-- A pass that fails the execution and emits an event about it. -/
theorem exec_failPass (settings : Settings) (message : TaskiqMessage) (s : Invocation)
    (fields : StatusUpdate) (statusMessage errorDetail : Option String)
    (hrow : w.db.execution? i = some row) :
  ∃ r s' w', exec (do
        setStatus i .failed fields
        emitStatusEvent settings message .failed statusMessage errorDetail) s w = ((r, s'), w') ∧
    s'.result = s.result ∧ w'.plan = (fun p => w.plan (p + 1)) ∧
    ((∃ a, r = .ok a) ↔ (w.plan 0).fate 0 = .commits) ∧
    w'.db.execution? i
      = some (leaves ((w.plan 0).fate 0) row (row.assign .failed fields w.clock))
  := by
  obtain ⟨r, s', w', hrun, hresult, hplan, hr, hrow'⟩ :=
    exec_setStatus_of_fate (s := s) .failed fields hrow
  cases r with
  | error e => exact ⟨_, s', w', exec_bind_error hrun, hresult, hplan, by simpa using hr, hrow'⟩
  | ok a =>
      refine ⟨.ok (), s', w'.published (statusEvent settings message .failed statusMessage
        errorDetail), ?_, hresult, ?_, ?_, ?_⟩
      · rw [exec_bind_ok hrun]
        apply exec_emitStatusEvent
      · rw [World.plan_published, hplan]
      · simpa using hr
      · rw [World.db_published]
        apply hrow'

/-- Passes that fail an execution fail it unless the transactions of all of them are lost. -/
theorem exec_createDbRetry_fails (settings : Settings) (message : TaskiqMessage) {call : Hook Unit}
    (result : TaskiqResult) (fields : StatusUpdate) (statusMessage errorDetail : Option String)
    (hcall : ∀ s w, s.result = result → exec call s w = exec (do
      setStatus i .failed fields
      emitStatusEvent settings message .failed statusMessage errorDetail) s w)
    (n : ℕ) {s : Invocation} {w : World} {row : TaskExecution} (hresult : s.result = result)
    (hrow : w.db.execution? i = some row) :
  ∃ row', (exec (createDbRetry (n + 1) call) s w).2.db.execution? i = some row' ∧
    (Writes n w.plan ∨ row.status = .failed → row'.status = .failed) ∧
    (¬ Writes n w.plan → row' = row)
  := by
  induction n generalizing s w row with
  | zero =>
      obtain ⟨r, s', w', hrun, -, -, -, hrow'⟩ :=
        exec_failPass settings message s fields statusMessage errorDetail hrow
      rw [← hcall s w hresult] at hrun
      rw [createDbRetry, hrun]
      refine ⟨_, hrow', ?_, ?_⟩
      · intro hfails
        by_cases hfate : ∀ k, (w.plan 0).fate 0 ≠ .lost k
        · rw [leaves_of_ne hfate]
          rfl
        · rw [leaves_of_not hfate]
          apply hfails.resolve_left
          rintro ⟨q, hq, hwrites⟩
          obtain rfl : q = 0 := by omega
          apply hfate hwrites
      · intro hnone
        apply leaves_of_not
        intro hfate
        apply hnone ⟨0, le_rfl, hfate⟩
  | succ n ih =>
      obtain ⟨r, s', w', hrun, hresult', hplan, hr, hrow'⟩ :=
        exec_failPass settings message s fields statusMessage errorDetail hrow
      rw [← hcall s w hresult] at hrun
      cases r with
      | ok a =>
          rw [exec_createDbRetry_ok (n + 1) hrun]
          have hfate : ∀ k, (w.plan 0).fate 0 ≠ .lost k := by simp [hr.mp ⟨a, rfl⟩]
          refine ⟨_, hrow', ?_, ?_⟩
          · intro _
            rw [leaves_of_ne hfate]
            rfl
          · intro hnone
            exact absurd ⟨0, Nat.zero_le _, hfate⟩ hnone
      | error e =>
          rw [exec_createDbRetry_error n hrun]
          obtain ⟨row', hfound, hfails, hkeeps⟩ := ih (hresult'.trans hresult) hrow'
          rw [hplan] at hfails hkeeps
          refine ⟨row', hfound, ?_, ?_⟩
          · intro hcause
            apply hfails
            by_cases hfate : ∀ k, (w.plan 0).fate 0 ≠ .lost k
            · right
              rw [leaves_of_ne hfate]
              rfl
            · rw [leaves_of_not hfate]
              apply hcause.imp_left
              rintro ⟨q, hq, hwrites⟩
              cases q with
              | zero => exact absurd hwrites hfate
              | succ q => exact ⟨q, by omega, hwrites⟩
          · intro hnone
            rw [hkeeps]
            · apply leaves_of_not
              intro hfate
              apply hnone ⟨0, Nat.zero_le _, hfate⟩
            · rintro ⟨q, hq, hwrites⟩
              apply hnone ⟨q + 1, by omega, hwrites⟩

/-- The hook after an error hook that has handed nothing over fails the execution, unless its
transactions are lost. -/
theorem exec_postExecute_writes (settings : Settings)
    (hid : message.extractTaskExecutionId = some i)
    (hresult : s.result = raised exception) (hexception : exception ≠ .noResultError)
    (hrow : w.db.execution? i = some row) :
  ∃ row', (exec (postExecute settings message) s w).2.db.execution? i = some row' ∧
    (Writes 2 w.plan ∨ row.status = .failed → row'.status = .failed) ∧
    (¬ Writes 2 w.plan → row' = row)
  := by
  rw [postExecute, dbRetry, defaultMaxAttempts]
  apply exec_createDbRetry_fails settings message (raised exception)
    { errorDetail := some (settings.text exception), statusMessage := some "Task failed" }
    (some "Task failed") (some (settings.text exception)) _ 2 hresult hrow
  intro s w hresult
  rw [hid]
  simp only []
  rw [exec_bind_ok (exec_get s w), hresult]
  simp only [raised, Option.some.injEq, if_neg hexception, Bool.false_eq_true, if_false, if_true,
    Option.elim_some]
  rfl

/-- The mark of a shadowed retry is lost: the decision was recorded by a commit that took effect
and raised, the retry count it has raised is the last one, so that the pass that returns has
nothing to shadow, and the hook after it writes. -/
def LosesMark (row : TaskExecution) (exception : PyException) (plan : ℕ → SessionPlan) : Prop :=
  exception ≠ .noResultError ∧ row.retryCount + 1 = row.maxRetries ∧
    ∃ p ≤ 2, FirstCommits plan p ∧ (∃ q < p, (plan q).fate 0 = .applied) ∧
      Writes 2 (fun q => plan (p + 1 + q))

/-- A row with a shadowed retry, which an operator may recover. -/
def IsShadowed (row : TaskExecution) : Prop :=
  row.status = .retrying ∧ row.statusMessage = some "Retry shadowed (automatic retry disabled)"

theorem isShadowed_decidedRow {u : UnsentCall} (hshadowed : u.decision.retryShadowed = true)
    (now : Time) :
  IsShadowed (u.decidedRow now)
  := by
  obtain ⟨-, -, -, hstatus⟩ := u.decision_eq
  rw [hshadowed, if_pos rfl] at hstatus
  use hstatus
  have hctx : (u.context u.row).task = some u.row := rfl
  have hmsg : u.decision.statusMsg = "Retry shadowed (automatic retry disabled)" :=
    u.settings.statusMsg_resolveRetryDecision_of_shadowed {} hctx rfl hshadowed
  change (some u.decision.statusMsg).or u.row.statusMessage = _
  rw [hmsg]
  rfl

/-- The pass that returns marks the result as shadowed, unless a transaction before it has taken
effect and has spent the last retry. -/
theorem shadowRetry_iff_of_returned {u : UnsentCall} {n p : ℕ} {s' : Invocation} {w' : World}
    (hrow : w.db.execution? u.row.id = some u.row) (hlt : u.row.retryCount < u.row.maxRetries)
    (hclosed : u.settings.retryGateAllows u.message.taskName u.row.tenantId = false)
    (hshadow : u.settings.taskRetryShadowMode = true) (hresult : s.result = raised exception)
    (hreturned : u.Returned n s w s' w' p) :
  s'.result.shadowRetry = true
    ↔ ¬ (u.row.retryCount + 1 = u.row.maxRetries ∧ ∃ q < p, (w.plan q).fate 0 = .applied)
  := by
  have hmarks (row : TaskExecution) (htenant : row.tenantId = u.row.tenantId) :
      u.marks row = decide (row.retryCount < row.maxRetries) := by
    rw [u.marks_eq, htenant, hclosed, hshadow, Bool.not_false, Bool.and_true, Bool.and_true]
  by_cases happlied : ∃ q < p, (w.plan q).fate 0 = .applied
  · have hcount : (u.decidedRow 0).retryCount = u.row.retryCount + 1 := by
      obtain ⟨-, -, hshadowed, hstatus⟩ := u.decision_eq
      rw [hshadowed, hshadow, decide_eq_true hlt, Bool.and_true, if_pos rfl] at hstatus
      exact if_pos hstatus
    rw [hreturned.written happlied, hmarks (u.decidedRow 0) rfl, hcount, hresult]
    simp only [raised, Bool.false_or, decide_eq_true_eq, happlied, and_true]
    change u.row.retryCount + 1 < u.row.maxRetries ↔ _
    omega
  · have hnone : ∀ q < p, (w.plan q).fate 0 ≠ .applied :=
      fun q hq hfate => happlied ⟨q, hq, hfate⟩
    rw [hreturned.found u.row hrow hnone, hmarks u.row rfl, hresult]
    simp [raised, hlt, happlied]

/-- The hook after a shadowed retry whose mark is missing leaves the row to an operator exactly
when all of its transactions are lost. -/
theorem isShadowed_postExecute_iff (settings : Settings)
    (hid : message.extractTaskExecutionId = some i) (hresult : s.result = raised exception)
    (hexception : exception ≠ .noResultError) (hrow : w.db.execution? i = some row)
    (hshadowed : IsShadowed row) :
  (∃ row', (exec (postExecute settings message) s w).2.db.execution? i = some row' ∧
      IsShadowed row') ↔ ¬ Writes 2 w.plan
  := by
  obtain ⟨row', hfound, hfails, hkeeps⟩ :=
    exec_postExecute_writes settings hid hresult hexception hrow
  constructor
  · rintro ⟨row'', hfound', hstatus, -⟩ hwrites
    obtain rfl := Option.some_injective _ (hfound.symm.trans hfound')
    cases hstatus.symm.trans (hfails (Or.inl hwrites))
  · intro hnone
    use row', hfound
    rw [hkeeps hnone]
    apply hshadowed

/-- After a shadowed retry and the hook after it the row is left to an operator, unless the mark
of the retry is lost. -/
theorem onError_keeps_shadowed_iff (hid : message.extractTaskExecutionId = some i)
    (hrow : w.db.execution? i = some row) (hlt : row.retryCount < row.maxRetries)
    (hclosed : settings.retryGateAllows message.taskName row.tenantId = false)
    (hshadow : settings.taskRetryShadowMode = true) (hresult : s.result = raised exception)
    (hreturns : (exec (onError settings message exception) s w).1.1 = .ok ()) :
  (∃ row', (exec (do
      onError settings message exception
      postExecute settings message) s w).2.db.execution? i = some row' ∧ IsShadowed row')
    ↔ ¬ LosesMark row exception w.plan
  := by
  obtain rfl : row.id = i := Database.id_of_execution? hrow
  let u : UnsentCall :=
    { settings, message, exception, row
      db := w.db
      sent := w.sent
      result := s.result
      execution := hid
      found := hrow
      refused := by simp [hclosed] }
  have hshadowed : u.decision.retryShadowed = true := by
    obtain ⟨-, -, hshadowed, -⟩ := u.decision_eq
    simp [hshadowed, u, hlt, hshadow]
  have hun : u.Unmistakable := by
    obtain ⟨-, -, -, hstatus⟩ := u.decision_eq
    rw [hshadowed] at hstatus
    exact Or.inr hstatus
  have hstate : u.State { s with attempt := {} } w := ⟨.untouched rfl, rfl, rfl⟩
  obtain ⟨r, s', w', hrun, hends, hreturned, -⟩ := UnsentCall.exec_onError_returned hstate hun
  change exec (onError settings message exception) s w = _ at hrun
  rw [hrun] at hreturns
  obtain rfl : r = .ok () := hreturns
  obtain ⟨p, hreturned⟩ := hreturned ⟨(), rfl⟩
  obtain ⟨now, hdb⟩ := hreturned.decided
  have hrow' : w'.db.execution? row.id = some (u.decidedRow now) := by
    rw [hdb]
    apply Database.execution?_decided now u.found
  have hdecided : IsShadowed (u.decidedRow now) := isShadowed_decidedRow hshadowed now
  have hmark : s'.result.shadowRetry = true
      ↔ ¬ (row.retryCount + 1 = row.maxRetries ∧ ∃ q < p, (w.plan q).fate 0 = .applied) :=
    shadowRetry_iff_of_returned (u := u) (s := { s with attempt := {} }) hrow hlt hclosed hshadow
      hresult hreturned
  rw [exec_bind_ok hrun]
  by_cases hexception : exception = .noResultError
  · have herror : s'.result.error = some .noResultError := by
      rw [hends.error, ← hexception]
      change s.result.error = _
      rw [hresult, raised]
    rw [exec_postExecute_of_noResult settings message herror w']
    refine iff_of_true ⟨_, hrow', hdecided⟩ ?_
    rintro ⟨hraised, -⟩
    apply hraised hexception
  · by_cases hmarked : s'.result.shadowRetry = true
    · rw [exec_postExecute_of_shadowed hid hmarked]
      refine iff_of_true ⟨_, hrow', hdecided⟩ ?_
      rintro ⟨-, hlast, p', -, hfirst, happlied, -⟩
      obtain rfl := hfirst.unique hreturned.first
      apply hmark.mp hmarked ⟨hlast, happlied⟩
    · obtain ⟨hlast, happlied⟩ := not_not.mp (mt hmark.mpr hmarked)
      obtain ⟨mark, hmark'⟩ :
          ∃ mark, s'.result = { raised exception with shadowRetry := mark } := by
        rw [hreturned.written happlied, ← hresult]
        exact ⟨_, rfl⟩
      have hresult' : s'.result = raised exception := by
        rw [hmark'] at hmarked ⊢
        cases mark with
        | false => rfl
        | true => exact absurd rfl hmarked
      rw [isShadowed_postExecute_iff settings hid hresult' hexception hrow' hdecided,
        hreturned.plan, not_iff_not]
      constructor
      · intro hwrites
        exact ⟨hexception, hlast, p, hreturned.le, hreturned.first, happlied, hwrites⟩
      · rintro ⟨-, -, p', -, hfirst, -, hwrites⟩
        obtain rfl := hfirst.unique hreturned.first
        apply hwrites

/-- The mark of a shadowed retry that is not the last one survives a first commit that raises. -/
theorem onError_keeps_shadowed_of_lost_commit :
  ∃ row', (exec (do
      onError Example.defaults Example.message Example.exception
      postExecute Example.defaults Example.message) Example.failed
        (Example.world 0 3 (Example.plans (Example.session .applied .commits true)
          (Example.session .commits .commits true)))).2.db.execution? Example.taskExecutionId
            = some row' ∧ IsShadowed row'
  := by
  apply (onError_keeps_shadowed_iff rfl rfl (by decide) rfl rfl rfl rfl).mpr
  rintro ⟨-, hlast, -⟩
  exact absurd hlast (by decide)

/-- A shadowed retry is failed by the hook after it: the first pass records it by a commit that
takes effect and raises, and the second pass finds the retries exhausted. -/
theorem postExecute_fails_shadowed :
  Example.message.extractTaskExecutionId = some Example.taskExecutionId ∧
    Example.defaults.retryGateAllows Example.message.taskName (Example.row 0 1).tenantId = false ∧
    Example.defaults.taskRetryShadowMode = true ∧
    Example.failed.result = raised Example.exception ∧
    (exec (onError Example.defaults Example.message Example.exception) Example.failed
      (Example.world 0 1 (Example.plans (Example.session .applied .commits true)
        (Example.session .commits .commits true)))).1.1 = .ok () ∧
    ((exec (do
        onError Example.defaults Example.message Example.exception
        postExecute Example.defaults Example.message) Example.failed
      (Example.world 0 1 (Example.plans (Example.session .applied .commits true)
        (Example.session .commits .commits true)))).2.db.execution?
          Example.taskExecutionId).map (fun row => (row.status, row.statusMessage))
      = some (.failed, some "Task failed")
  := ⟨rfl, rfl, rfl, rfl, rfl, rfl⟩

end Hook

end WorkerTemplate
