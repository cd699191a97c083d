import WorkerTemplate.Concurrent.Finality.Protocol

/-!
# What an error hook knows of its execution

An error hook keeps to the protocol of the deliveries: what it has recorded in its invocation is
what it has written to the execution, unless another thread has committed an update.
-/

namespace WorkerTemplate

namespace Hook

open Finality

variable {i : UUID} {s : Invocation} {c : State}

/-- The status message of a retry that was not accepted. -/
def dispatchError : String := "Task failed (retry dispatch error)"

/-- A row with a terminal status is a failure that a record recognizes; where another retry is
allowed, it is the failure to send one. -/
def Recognized (settings : Settings) (message : TaskiqMessage) (attempt : OnErrorAttempt)
    (row : TaskExecution) : Prop :=
  row.status.IsTerminal →
    row.status = .failed ∧ attempt.recognizes (some row) = true ∧
      (row.retryCount < row.maxRetries →
        settings.retryGateAllows message.taskName row.tenantId = true →
          row.statusMessage = some dispatchError)

/-- The record of an error hook recognizes a terminal status that the hook has left. -/
def Kept (settings : Settings) (message : TaskiqMessage) (attempt : OnErrorAttempt) (c : State) :
    Prop :=
  ∀ written, c.wrote = some written → Recognized settings message attempt written

variable {settings : Settings} {message : TaskiqMessage} {attempt : OnErrorAttempt}

theorem Kept.forgets {c' : State} (h : Kept settings message attempt c) (hforgets : c.Forgets c') :
  Kept settings message attempt c'
  := fun written hwritten => h written (hforgets.wrote hwritten)

theorem Kept.leaves (h : Kept settings message attempt c) :
  c.Leaves .failed
  := fun written hwritten hterminal => (h written hwritten hterminal).1

/-- A thread that has left no terminal status keeps to any record. -/
theorem kept_of_leaves_running (h : c.Leaves .running) :
  Kept settings message attempt c
  := by
  intro written hwritten hterminal
  rw [h written hwritten hterminal] at hterminal
  exact absurd hterminal (by decide)

/-- The record of a call whose message was rejected. -/
def recordDispatchError (attempt : OnErrorAttempt) : OnErrorAttempt :=
  { attempt with recordedStatus := some .failed, statusMessage := some dispatchError }

/-- What the session parts of an error hook leave, however they end. -/
def Ends (settings : Settings) (message : TaskiqMessage) {α : Type} : Post α State :=
  fun _ s c => Kept settings message s.attempt c ∧ s.result.isErr = true

/-- A session of an error hook that has read the execution and has nothing to commit. -/
structure Holds (i : UUID) (s : Invocation) (c : State) : Prop where
  session : Session i s c
  read : c.sight ≠ .unread
  setting : c.setting = false
  wrote : ∀ row, c.sight = .exact row → c.wrote = none ∨ c.wrote = some row
  isErr : s.result.isErr = true

/-- Marking an attempt does not touch the execution. -/
theorem obeys_markTaskAttemptDispatched_finality (j : UUID) (n : ℕ) :
  Obeys (Finality.protocol i) (markTaskAttemptDispatched j n)
    (fun r s' c' => s' = s ∧ ((∃ e, r = .error e) ∧ c' = c.close ∨ (∃ a, r = .ok a) ∧ c' = c)) s c
  := by
  rw [markTaskAttemptDispatched, getLatestPendingOrDispatchedTaskAttempt, obeys_bind, obeys_execute]
  use trivial
  rintro (e | _ | row) c' hmoves
  · exact ⟨rfl, Or.inl ⟨⟨e, rfl⟩, hmoves⟩⟩
  · exact ⟨rfl, Or.inr ⟨⟨_, rfl⟩, hmoves⟩⟩
  · obtain rfl : c' = c := hmoves
    rw [next_ok]
    simp only []
    split
    · rw [obeys_bind, obeys_execute]
      use trivial
      rintro (e | _) c'' hmoves'
      · exact ⟨rfl, Or.inl ⟨⟨e, rfl⟩, hmoves'⟩⟩
      · exact ⟨rfl, Or.inr ⟨⟨_, rfl⟩, hmoves'⟩⟩
    · exact ⟨rfl, Or.inr ⟨⟨_, rfl⟩, rfl⟩⟩

/-- A commit that has nothing to commit keeps what the thread has left. -/
theorem Holds.commit (h : Holds i s c) :
  Holds i s c.commit ∧ c.Forgets c.commit
  := by
  have hsight : c.commit.sight = c.sight := rfl
  refine ⟨⟨⟨h.session.keyed, ?_, ?_, ?_⟩, ?_, rfl, ?_, h.isErr⟩,
    State.forgets_commit h.setting h.wrote⟩
  · rw [hsight]
    apply h.session.unread
  · rw [hsight]
    apply h.session.exact
  · rw [hsight]
    apply h.session.lost
  · rw [hsight]
    apply h.read
  · intro row hrow
    cases hwrote : c.commit.wrote with
    | none => exact Or.inl rfl
    | some written =>
        cases (State.wrote_commit h.read hwrote).symm.trans hrow
        exact Or.inr rfl

/-- A message that is recorded as sent leaves the execution alone. -/
theorem obeys_markDispatched_finality (h : Holds i s c) (hkept : Kept settings message s.attempt c)
    (j : UUID) (n : ℕ) (notFound : String) :
  Obeys (Finality.protocol i) (markDispatched j n notFound) (Ends settings message) s c
  := by
  rw [markDispatched, obeys_bind]
  apply (obeys_markTaskAttemptDispatched_finality j n).mono
  rintro _ s' c' ⟨rfl, ⟨⟨e, rfl⟩, rfl⟩ | ⟨⟨marked, rfl⟩, rfl⟩⟩
  · exact ⟨hkept, h.isErr⟩
  · rw [next_ok]
    have hcommit : Kept settings message s'.attempt c'.commit := hkept.forgets h.commit.2
    cases marked with
    | false => exact ⟨hkept, h.isErr⟩
    | true =>
        simp only [Bool.not_true, Bool.false_eq_true, if_false]
        rw [obeys_bind, obeys_commit]
        use trivial
        rintro (e | _) c'' hmoves
        · rcases hmoves with rfl | rfl
          · exact ⟨hkept, h.isErr⟩
          · exact ⟨hcommit, h.isErr⟩
        · obtain rfl : c'' = c'.commit := hmoves
          exact ⟨hcommit, h.isErr⟩

/-- A commit of a new row of the execution ends a session, when the record recognizes the row. -/
theorem obeys_commit_finality (hread : c.sight ≠ .unread) (hisErr : s.result.isErr = true)
    (hkept : Kept settings message s.attempt c)
    (hrow : ∀ row, c.sight = .exact row → Recognized settings message s.attempt row) :
  Obeys (Finality.protocol i) commit
    (fun r s' c' => s' = s ∧ Ends settings message r s' c' ∧ ((∃ e, r = .error e) ∨ c' = c.commit))
    s c
  := by
  have hcommit : Kept settings message s.attempt c.commit := by
    intro written hwritten
    apply hrow written (State.wrote_commit hread hwritten)
  rw [obeys_commit]
  use trivial
  rintro (e | _) c' hmoves
  · rcases hmoves with rfl | rfl
    · exact ⟨rfl, ⟨hkept, hisErr⟩, Or.inl ⟨e, rfl⟩⟩
    · exact ⟨rfl, ⟨hcommit, hisErr⟩, Or.inl ⟨e, rfl⟩⟩
  · obtain rfl : c' = c.commit := hmoves
    exact ⟨rfl, ⟨hcommit, hisErr⟩, Or.inr rfl⟩

/-- A session whose decision is committed sends the message, and fails the execution when it is
rejected. -/
theorem obeys_dispatchRetry_finality {ctx : ErrorContext} {decision : RetryDecision}
    (h : Holds i s c) (hid : ctx.taskExecutionId = i)
    (hkept : Kept settings message s.attempt c)
    (hcount : ∀ row, c.sight = .exact row →
      s.attempt.recordedRetryCount = some row.retryCount)
    (hmessage : ∀ written, c.wrote = some written → written.status.IsTerminal →
      written.statusMessage = some dispatchError) :
  Obeys (Finality.protocol i) (dispatchRetry ctx decision) (Ends settings message) s c
  := by
  rw [dispatchRetry, requeue, obeys_bind, obeys_perform]
  use trivial
  rintro requeued c rfl
  rw [next_ok]
  split
  · rw [obeys_bind, obeys_get, next_ok, obeys_bind]
    apply (obeys_markDispatched_finality h hkept _ _ _).mono
    rintro (e | _) s' c' hends
    · apply hends
    · apply hends
  · rw [obeys_bind, hid]
    apply (obeys_updateTaskStatus_finality h.session (fun _ => hkept.leaves) _).mono
    rintro _ s' c' ⟨hsame, hforgets, ⟨e, rfl⟩ | ⟨⟨a, rfl⟩, -, hread, hrow⟩⟩
    · refine ⟨?_, hsame.result ▸ h.isErr⟩
      rw [hsame.attempt]
      apply hkept.forgets hforgets
    · rw [next_ok, obeys_bind, modifyAttempt, obeys_modify, next_ok]
      have hisErr : s'.result.isErr = true := hsame.result ▸ h.isErr
      -- What the record says now is what a terminal status already said.
      have hkept' : Kept settings message (recordDispatchError s'.attempt) c' := by
        intro written hwritten hterminal
        have hwritten' := hforgets.wrote hwritten
        obtain ⟨hstatus, hrecognizes, -⟩ := hkept written hwritten' hterminal
        have hmessage' := hmessage written hwritten' hterminal
        rw [OnErrorAttempt.recognizes_iff] at hrecognizes
        refine ⟨hstatus, ?_, fun _ _ => hmessage'⟩
        rw [OnErrorAttempt.recognizes_iff, hsame.attempt]
        exact ⟨congrArg some hstatus.symm, hrecognizes.2.1, hmessage'.symm⟩
      have hrow' : ∀ row, c'.sight = .exact row →
          Recognized settings message (recordDispatchError s'.attempt) row := by
        intro row hsight _
        obtain ⟨task, now, rfl, hc⟩ := hrow row hsight
        refine ⟨rfl, ?_, fun _ _ => rfl⟩
        rw [OnErrorAttempt.recognizes_iff, hsame.attempt]
        exact ⟨rfl, hcount task (hc.resolve_left h.read), rfl⟩
      have hcommit : Obeys (Finality.protocol i) (do
          commit
          pure (TaskStatus.failed, "Task failed (retry dispatch error)"))
          (Ends settings message) { s' with attempt := recordDispatchError s'.attempt } c' := by
        rw [obeys_bind]
        apply (obeys_commit_finality (s := { s' with attempt := recordDispatchError s'.attempt })
          hread hisErr hkept' hrow').mono
        rintro (e | _) s₁ c₁ ⟨rfl, hends, -⟩
        · apply hends
        · apply hends
      cases ctx.task with
      | none => apply hcommit
      | some task =>
          simp only []
          rw [obeys_bind, recordTaskAttempt, obeys_execute]
          use trivial
          rintro (e | _) c'' hmoves
          · obtain rfl : c'' = c'.close := hmoves
            exact ⟨hkept', hisErr⟩
          · obtain rfl : c'' = c' := hmoves
            apply hcommit

/-- What a session decides about: the row it has read, which its thread may have left. -/
structure Decides (i : UUID) (ctx : ErrorContext) (task : TaskExecution) (s : Invocation)
    (c : State) : Prop where
  holds : Holds i s c
  taskExecutionId : ctx.taskExecutionId = i
  loaded : ctx.task = some task
  sight : c.sight = .exact task

/-- A session that finds its own record sends the message whose sending was recorded. -/
theorem obeys_recoverRetry_finality {ctx : ErrorContext} {decision : RetryDecision}
    {task : TaskExecution} (h : Decides i ctx task s c)
    (hkept : Kept settings message s.attempt c) (hlt : task.retryCount < task.maxRetries)
    (hgate : settings.retryGateAllows message.taskName task.tenantId = true)
    (hrecognizes : s.attempt.recognizes (some task) = true) :
  Obeys (Finality.protocol i) (recoverRetry ctx decision) (Ends settings message) s c
  := by
  have hholds := h.holds
  rw [OnErrorAttempt.recognizes_iff] at hrecognizes
  rw [recoverRetry, obeys_bind, obeys_get, next_ok, obeys_bind, getTaskAttemptDispatchState,
    getLatestPendingOrDispatchedTaskAttempt, obeys_execute]
  use trivial
  rintro (e | _ | row) c' hmoves
  · obtain rfl : c' = c.close := hmoves
    exact ⟨hkept, hholds.isErr⟩
  · obtain rfl : c' = c := hmoves
    exact ⟨hkept, hholds.isErr⟩
  · obtain rfl : c' = c := hmoves
    rw [next_ok]
    simp only []
    split
    · rw [obeys_bind, recoverDispatchAudit]
      apply (obeys_markDispatched_finality hholds hkept _ _ _).mono
      rintro (e | _) s' c'' hends
      · apply hends
      · apply hends
    · rw [obeys_bind, obeys_commit]
      use trivial
      rintro (e | _) c'' hmoves
      · rcases hmoves with rfl | rfl
        · exact ⟨hkept, hholds.isErr⟩
        · exact ⟨hkept.forgets hholds.commit.2, hholds.isErr⟩
      · obtain rfl : c'' = c'.commit := hmoves
        rw [next_ok]
        have hsight : c'.commit.sight = .exact task := h.sight
        apply obeys_dispatchRetry_finality hholds.commit.1 h.taskExecutionId
          (hkept.forgets hholds.commit.2)
        · intro row' hrow'
          cases hsight.symm.trans hrow'
          apply hrecognizes.2.1
        · intro written hwritten hterminal
          have heq : written = task :=
            Sight.exact.inj ((State.wrote_commit hholds.read hwritten).symm.trans hsight)
          rw [heq] at hwritten hterminal ⊢
          exact (hkept task (hholds.commit.2.wrote hwritten) hterminal).2.2 hlt hgate

/-- Reconciling a pending attempt does not touch the execution. -/
theorem obeys_reconcilePending_finality (j : UUID) :
  Obeys (Finality.protocol i) (reconcilePending j)
    (fun r s' c' => s' = s ∧
      ((∃ e, r = .error e) ∧ (c' = c.close ∨ c' = c) ∨ (∃ a, r = .ok a) ∧ c' = c)) s c
  := by
  rw [reconcilePending, obeys_bind, getLatestPendingTaskAttempt, obeys_execute]
  use trivial
  rintro (e | _ | row) c' hmoves
  · exact ⟨rfl, Or.inl ⟨⟨e, rfl⟩, Or.inl hmoves⟩⟩
  · exact ⟨rfl, Or.inr ⟨⟨_, rfl⟩, hmoves⟩⟩
  · obtain rfl : c' = c := hmoves
    rw [next_ok]
    simp only []
    rw [obeys_bind]
    apply (obeys_markTaskAttemptDispatched_finality j row.attemptNumber).mono
    rintro _ s' c'' ⟨rfl, ⟨⟨e, rfl⟩, rfl⟩ | ⟨⟨marked, rfl⟩, rfl⟩⟩
    · exact ⟨rfl, Or.inl ⟨⟨e, rfl⟩, Or.inl rfl⟩⟩
    · rw [next_ok]
      cases marked with
      | false => exact ⟨rfl, Or.inl ⟨⟨_, rfl⟩, Or.inr rfl⟩⟩
      | true => exact ⟨rfl, Or.inr ⟨⟨_, rfl⟩, rfl⟩⟩

/-- A session that has left no terminal status records its decision, and its record recognizes
the row it leaves. -/
theorem obeys_recordInitialErrorStatus_finality {ctx : ErrorContext} {decision : RetryDecision}
    {task : TaskExecution} (h : Decides i ctx task s c) (hleaves : c.Leaves .running) :
  Obeys (Finality.protocol i) (recordInitialErrorStatus ctx decision)
    (fun r s' c' => c'.Leaves .running ∧ s'.result.isErr = true ∧
      ((∃ e, r = .error e) ∨ (∃ a, r = .ok a) ∧ Session i s' c' ∧ c'.sight ≠ .unread ∧
        ∀ row, c'.sight = .exact row →
          s'.attempt.recognizes (some row) = true ∧ row.status = decision.status ∧
            row.tenantId = task.tenantId ∧ row.maxRetries = task.maxRetries ∧
            row.retryCount
              = if decision.status = .retrying then task.retryCount + 1 else task.retryCount))
    s c
  := by
  have hany : c.Leaves decision.status := by
    intro written hwritten hterminal
    rw [hleaves written hwritten hterminal] at hterminal
    exact absurd hterminal (by decide)
  rw [recordInitialErrorStatus, obeys_bind, h.taskExecutionId]
  apply (obeys_updateTaskStatus_finality h.holds.session (fun _ => hany) _).mono
  rintro _ s' c' ⟨hsame, hforgets, ⟨e, rfl⟩ | ⟨⟨a, rfl⟩, hs', hread, hrow⟩⟩
  · exact ⟨hleaves.forgets hforgets, hsame.result ▸ h.holds.isErr, Or.inl ⟨e, rfl⟩⟩
  · have hleaves' := hleaves.forgets hforgets
    have hisErr : s'.result.isErr = true := hsame.result ▸ h.holds.isErr
    have hrow' : ∀ row, c'.sight = .exact row → ∃ now,
        row = task.assign decision.status (ctx.update decision.statusMsg) now := by
      intro row hsight
      obtain ⟨task', now, rfl, hc⟩ := hrow row hsight
      have heq : task = task' :=
        Sight.exact.inj (h.sight.symm.trans (hc.resolve_left h.holds.read))
      rw [heq]
      exact ⟨now, rfl⟩
    rw [next_ok, obeys_bind, modifyAttempt, obeys_modify, next_ok]
    simp only [h.loaded, Option.map_some]
    -- The record and the row agree, whatever number the record holds.
    have hdone {n : Option ℕ} : ∀ row, c'.sight = .exact row →
        OnErrorAttempt.recognizes
          { recordedStatus := some decision.status
            recordedRetryCount :=
              some (if decision.status = .retrying then task.retryCount + 1 else task.retryCount)
            statusMessage := some decision.statusMsg
            attemptNumber := n } (some row) = true ∧
          row.status = decision.status ∧ row.tenantId = task.tenantId ∧
          row.maxRetries = task.maxRetries ∧
          row.retryCount
            = if decision.status = .retrying then task.retryCount + 1 else task.retryCount := by
      intro row hsight
      obtain ⟨now, rfl⟩ := hrow' row hsight
      rw [OnErrorAttempt.recognizes_iff]
      exact ⟨⟨rfl, rfl, rfl⟩, rfl, rfl, rfl, rfl⟩
    split
    · rw [recordTaskAttempt, obeys_execute]
      use trivial
      rintro (e | _) c'' hmoves
      · obtain rfl : c'' = c'.close := hmoves
        exact ⟨hleaves', hisErr, Or.inl ⟨e, rfl⟩⟩
      · obtain rfl : c'' = c' := hmoves
        exact ⟨hleaves', hisErr, Or.inr ⟨⟨_, rfl⟩, ⟨hs'.keyed, hs'.unread, hs'.exact, hs'.lost⟩,
          hread, hdone⟩⟩
    · split
      · rw [obeys_bind, modifyAttempt, obeys_modify, next_ok, recordTaskAttempt, obeys_execute]
        use trivial
        rintro (e | _) c'' hmoves
        · obtain rfl : c'' = c'.close := hmoves
          exact ⟨hleaves', hisErr, Or.inl ⟨e, rfl⟩⟩
        · obtain rfl : c'' = c' := hmoves
          exact ⟨hleaves', hisErr, Or.inr ⟨⟨_, rfl⟩, ⟨hs'.keyed, hs'.unread, hs'.exact, hs'.lost⟩,
            hread, hdone⟩⟩
      · rw [obeys_pure]
        exact ⟨hleaves', hisErr, Or.inr ⟨⟨_, rfl⟩, ⟨hs'.keyed, hs'.unread, hs'.exact, hs'.lost⟩,
          hread, hdone⟩⟩

/-- A thread whose record does not recognize the row it has read has left no terminal status. -/
theorem Decides.leaves_running {ctx : ErrorContext} {task : TaskExecution}
    (h : Decides i ctx task s c) (hkept : Kept settings message s.attempt c)
    (hnew : s.attempt.recognizes (some task) = false) :
  c.Leaves .running
  := by
  intro written hwritten hterminal
  have hrecognizes := (hkept written hwritten hterminal).2.1
  rcases h.holds.wrote task h.sight with hwrote | hwrote
  · cases hwrote.symm.trans hwritten
  · rw [Option.some_injective _ (hwritten.symm.trans hwrote), hnew] at hrecognizes
    cases hrecognizes

section Deciding

variable {ctx : ErrorContext} {task : TaskExecution} (h : Decides i ctx task s c)
  (hkept : Kept settings message s.attempt c)

include h hkept

/-- A session that allows a retry for the first time leaves no terminal status before it
sends the message. -/
theorem obeys_recordRetry_finality
    (hallowed : (settings.resolveRetryDecision ctx s.attempt).retryAllowed = true)
    (hnew : s.attempt.recognizes (some task) = false) :
  Obeys (Finality.protocol i) (recordRetry ctx (settings.resolveRetryDecision ctx s.attempt))
    (Ends settings message) s c
  := by
  have hleaves := h.leaves_running hkept hnew
  have hretrying : (settings.resolveRetryDecision ctx s.attempt).status = .retrying := by
    rw [settings.status_resolveRetryDecision s.attempt h.loaded hnew, hallowed]
    rfl
  rw [recordRetry, obeys_bind]
  apply (obeys_reconcilePending_finality _).mono
  rintro _ s' c' ⟨rfl, ⟨⟨e, rfl⟩, rfl | rfl⟩ | ⟨⟨a, rfl⟩, rfl⟩⟩
  · exact ⟨hkept, h.holds.isErr⟩
  · exact ⟨hkept, h.holds.isErr⟩
  · rw [next_ok, obeys_bind]
    apply (obeys_recordInitialErrorStatus_finality h hleaves).mono
    rintro _ s₁ c₁ ⟨hleaves₁, hisErr, ⟨e, rfl⟩ | ⟨⟨a, rfl⟩, hs₁, hread, hrow⟩⟩
    · exact ⟨kept_of_leaves_running hleaves₁, hisErr⟩
    · rw [next_ok, obeys_bind]
      -- The row that is committed is retrying, so nothing terminal is left.
      have hnot : ∀ row, c₁.sight = .exact row → ¬ row.status.IsTerminal := by
        intro row hsight
        obtain ⟨-, hstatus, -⟩ := hrow row hsight
        rw [hstatus, hretrying]
        decide
      apply (obeys_commit_finality hread hisErr (kept_of_leaves_running hleaves₁)
        (fun row hsight hterminal => absurd hterminal (hnot row hsight))).mono
      rintro (e | _) s₂ c₂ ⟨rfl, hends, hcommit⟩
      · apply hends
      · obtain rfl := hcommit.resolve_left (by rintro ⟨e, ⟨⟩⟩)
        rw [next_ok]
        have hwrote : ∀ row, c₁.commit.wrote = some row → c₁.sight = .exact row :=
          fun row hrow => State.wrote_commit hread hrow
        apply obeys_dispatchRetry_finality _ h.taskExecutionId hends.1
        · intro row hsight
          have hrecognizes := (hrow row hsight).1
          rw [OnErrorAttempt.recognizes_iff] at hrecognizes
          apply hrecognizes.2.1
        · intro written hwritten hterminal
          exact absurd hterminal (hnot written (hwrote written hwritten))
        · refine ⟨⟨hs₁.keyed, hs₁.unread, hs₁.exact, hs₁.lost⟩, hread, rfl, ?_, hisErr⟩
          intro row hsight
          cases hwritten : c₁.commit.wrote with
          | none => exact Or.inl rfl
          | some written =>
              right
              rw [Sight.exact.inj ((hwrote written hwritten).symm.trans hsight)]

variable (hmessage : ctx.message = message)

include hmessage

/-- A session that allows no retry leaves at most a failure that its record recognizes. -/
theorem obeys_recordFailure_finality
    (hrefused : (settings.resolveRetryDecision ctx s.attempt).retryAllowed = false) :
  Obeys (Finality.protocol i) (recordFailure ctx (settings.resolveRetryDecision ctx s.attempt))
    (Ends settings message) s c
  := by
  have hallowed := settings.retryAllowed_resolveRetryDecision s.attempt h.loaded
  rw [hrefused, hmessage] at hallowed
  have hrecorded := settings.retryAlreadyRecorded_resolveRetryDecision s.attempt h.loaded
  rw [recordFailure, hrecorded]
  cases hnew : s.attempt.recognizes (some task) with
  | true =>
      simp only [Bool.not_true, Bool.false_eq_true, if_false]
      rw [obeys_bind, obeys_commit]
      use trivial
      rintro (e | _) c' hmoves
      · rcases hmoves with rfl | rfl
        · exact ⟨hkept, h.holds.isErr⟩
        · exact ⟨hkept.forgets h.holds.commit.2, h.holds.isErr⟩
      · obtain rfl : c' = c.commit := hmoves
        exact ⟨hkept.forgets h.holds.commit.2, h.holds.isErr⟩
  | false =>
      simp only [Bool.not_false, if_true]
      rw [obeys_bind]
      apply (obeys_recordInitialErrorStatus_finality h (h.leaves_running hkept hnew)).mono
      rintro _ s₁ c₁ ⟨hleaves₁, hisErr, ⟨e, rfl⟩ | ⟨⟨a, rfl⟩, -, hread, hrow⟩⟩
      · exact ⟨kept_of_leaves_running hleaves₁, hisErr⟩
      · rw [next_ok, obeys_bind]
        have hrecognized : ∀ row, c₁.sight = .exact row →
            Recognized settings message s₁.attempt row := by
          intro row hsight hterminal
          obtain ⟨hrecognizes, hstatus, htenant, hmax, hcount⟩ := hrow row hsight
          rw [hstatus, settings.status_resolveRetryDecision s.attempt h.loaded hnew] at hterminal
          have hfailed : (settings.resolveRetryDecision ctx s.attempt).status = .failed := by
            rw [settings.status_resolveRetryDecision s.attempt h.loaded hnew]
            split at hterminal
            · exact absurd hterminal (by decide)
            · rename_i hnot
              rw [if_neg hnot]
          refine ⟨hstatus.trans hfailed, hrecognizes, ?_⟩
          intro hlt hgate
          rw [hcount, hmax, hfailed, if_neg (by simp)] at hlt
          rw [htenant] at hgate
          simp [hlt, hgate] at hallowed
        apply (obeys_commit_finality hread hisErr (kept_of_leaves_running hleaves₁)
          hrecognized).mono
        rintro (e | _) s₂ c₂ ⟨rfl, hends, -⟩
        · apply hends
        · apply hends

theorem obeys_recordDecision_finality :
  Obeys (Finality.protocol i) (recordDecision ctx (settings.resolveRetryDecision ctx s.attempt))
    (Ends settings message) s c
  := by
  have hrecorded := settings.retryAlreadyRecorded_resolveRetryDecision s.attempt h.loaded
  rw [recordDecision]
  split
  case isTrue hallowed =>
    split
    case isTrue hrecognizes =>
      rw [hrecorded] at hrecognizes
      have hparts := hallowed
      rw [settings.retryAllowed_resolveRetryDecision s.attempt h.loaded, Bool.and_eq_true,
        decide_eq_true_eq, hmessage] at hparts
      apply obeys_recoverRetry_finality h hkept hparts.1 hparts.2 hrecognizes
    case isFalse hnew =>
      rw [hrecorded, Bool.not_eq_true] at hnew
      apply obeys_recordRetry_finality h hkept hallowed hnew
  case isFalse hrefused =>
    apply obeys_recordFailure_finality h hkept hmessage (by simpa using hrefused)

end Deciding

/-- A pass of an error hook keeps its record of the terminal status it has left. -/
theorem maintains_errorPass_finality (settings : Settings) (message : TaskiqMessage)
    (exception : PyException) :
  Maintains (Finality.protocol i)
    (fun s c => Kept settings message s.attempt c ∧ s.result.isErr = true)
    (errorPass settings message exception i)
  := by
  have hsession : Maintains (Finality.protocol i)
      (fun s c => Kept settings message s.attempt c ∧ s.result.isErr = true)
      (withSession (errorSession settings message exception i)) := by
    rintro s c ⟨hkept, hisErr⟩
    apply obeys_withSession trivial
    rintro c' rfl
    rw [errorSession, obeys_bind]
    apply (obeys_getTaskExecution_finality (session_open i s c)).mono
    rintro _ s₁ c₁ ⟨hsame, hforgets, ⟨e, rfl⟩ | ⟨task, rfl, hs₁, -, -, hsetting, hunread, -⟩⟩
    · use trivial
      rintro c₂ rfl
      refine ⟨?_, hsame.result ▸ hisErr⟩
      rw [hsame.attempt]
      apply hkept.forgets hforgets
    · obtain ⟨hsight, hwrote⟩ := hunread rfl
      rw [next_ok, obeys_bind, obeys_get, next_ok, obeys_bind]
      have hdecides : Decides i
          { task := some task, taskExecutionId := i, message,
            errorDetail := s!"{exception.typeName}: {settings.text exception}" } task s₁ c₁ := by
        refine ⟨⟨hs₁, by simp [hsight], hsetting, ?_, hsame.result ▸ hisErr⟩, rfl, rfl, hsight⟩
        intro row hrow
        rw [← Sight.exact.inj (hsight.symm.trans hrow)]
        apply hwrote
      have hkept₁ : Kept settings message s₁.attempt c₁ := by
        rw [hsame.attempt]
        apply hkept.forgets hforgets
      apply (obeys_recordDecision_finality hdecides hkept₁ rfl).mono
      rintro (e | emitted) s₂ c₂ ⟨hkept₂, hisErr₂⟩
      · use trivial
        rintro c₃ rfl
        exact ⟨hkept₂, hisErr₂⟩
      · rw [next_ok]
        split
        · rw [obeys_bind, modifyResult, obeys_modify]
          use trivial
          rintro c₃ rfl
          exact ⟨hkept₂, hisErr₂⟩
        · use trivial
          rintro c₃ rfl
          exact ⟨hkept₂, hisErr₂⟩
  rw [errorPass]
  apply hsession.bind
  rintro ⟨status, statusMsg⟩
  apply maintains_emitStatusEvent (maintains_emit_finality _)

/-- An error hook leaves no terminal status other than a failure. -/
theorem obeys_onError_finality (settings : Settings) {message : TaskiqMessage}
    (exception : PyException) (hid : message.extractTaskExecutionId = some i)
    (hleaves : c.Leaves .running) (hisErr : s.result.isErr = true) :
  Obeys (Finality.protocol i) (onError settings message exception)
    (fun _ s' c' => c'.Leaves .failed ∧ s'.result.isErr = true) s c
  := by
  rw [onError, hid]
  simp only []
  rw [obeys_bind, modifyAttempt, obeys_modify, next_ok]
  have hcall := (maintains_errorPass_finality (i := i) settings message exception).createDbRetry
    defaultMaxAttempts { s with attempt := {} } c ⟨kept_of_leaves_running hleaves, hisErr⟩
  apply Obeys.mono hcall
  rintro r s' c' ⟨hkept, hisErr'⟩
  exact ⟨hkept.leaves, hisErr'⟩

theorem leaves_of_leaves_running (h : c.Leaves .running) (status : TaskStatus) :
  c.Leaves status
  := by
  intro written hwritten hterminal
  rw [h written hwritten hterminal] at hterminal
  exact absurd hterminal (by decide)

/-- A delivery obeys the protocol of terminal statuses. -/
theorem obeys_deliver_finality (settings : Settings) {message : TaskiqMessage}
    (hid : message.extractTaskExecutionId = some i) (hwrote : c.wrote = none) :
  Obeys (Finality.protocol i) (deliver settings message) (fun _ _ _ => True) s c
  := by
  have hleaves : c.Leaves .running := by
    intro written hwritten
    cases hwrote.symm.trans hwritten
  rw [deliver, obeys_bind]
  apply (maintains_preExecute_finality settings hid s.result s c ⟨rfl, hleaves⟩).mono
  rintro (e | _) s₁ c₁ ⟨-, hleaves₁⟩
  · trivial
  · rw [next_ok, obeys_bind, obeys_perform]
    use trivial
    rintro (_ | exception) c₁ rfl
    · rw [next_ok, finish, obeys_bind, modifyResult, obeys_modify, next_ok]
      apply (maintains_postExecute_finality settings hid succeeded _ _ ⟨rfl, _⟩).mono
      · intros
        trivial
      · apply leaves_of_leaves_running hleaves₁
    · rw [next_ok, finish, obeys_bind, modifyResult, obeys_modify, next_ok, obeys_bind]
      apply (obeys_onError_finality settings exception hid hleaves₁ rfl).mono
      rintro (e | _) s₂ c₂ ⟨hleaves₂, hisErr⟩
      · trivial
      · rw [next_ok]
        apply (maintains_postExecute_finality settings hid s₂.result s₂ c₂ ⟨rfl, _⟩).mono
        · intros
          trivial
        · rwa [hisErr]

end Hook

end WorkerTemplate
