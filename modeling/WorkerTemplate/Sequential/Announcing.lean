import WorkerTemplate.Sequential.Alone

/-!
# What the hooks announce

The status that a hook announces is the one of the committed row, whatever has failed before:
every session of a hook that returns has committed the status it hands on.
-/

namespace WorkerTemplate

/-- A decision recognized from the row keeps the status of the row. -/
theorem Settings.status_of_recorded (settings : Settings) {ctx : ErrorContext}
    (attempt : OnErrorAttempt) {row : TaskExecution} (hctx : ctx.task = some row)
    (hrecorded : (settings.resolveRetryDecision ctx attempt).retryAlreadyRecorded = true) :
  row.status = (settings.resolveRetryDecision ctx attempt).status
  := by
  rw [settings.retryAlreadyRecorded_resolveRetryDecision attempt hctx] at hrecorded
  obtain ⟨hstatus, -, -⟩ := (attempt.recognizes_iff row).mp hrecorded
  have hrecorded' : attempt.recognizes ctx.task = true := by rwa [hctx]
  simp only [resolveRetryDecision, hrecorded', if_true, hstatus, Option.getD_some]

namespace Hook

variable {sound : Prop} {s : Invocation} {c : Scene} {ctx : ErrorContext}
  {decision : RetryDecision}

/-- The session has loaded the row it reads. -/
structure Loaded (i : UUID) (row : TaskExecution) (s : Invocation) (c : Scene) : Prop where
  instance_ : s.identityMap i = some row
  row : c.view.execution? i = some row

theorem Loaded.inStep {i : UUID} {row : TaskExecution} (h : Loaded i row s c) :
  InStep i s c
  := by
  intro task htask
  rw [h.instance_] at htask
  obtain rfl := Option.some_injective _ htask
  apply h.row

/-- The committed row has the status that is handed on. -/
def Announces (i : UUID) (emitted : TaskStatus × String) (_ : Invocation) (c : Scene) : Prop :=
  ∃ row, c.db.execution? i = some row ∧ row.status = emitted.1

/-! ### Recording -/

/-- A new retry keeps the table well audited, as there is no pending row left, and its number is
larger than those of the open rows. -/
theorem wellAudited_insertRetry {db : Database} {i : UUID} {task : TaskExecution} {n : ℕ}
    {row : TaskAttempt} (h : db.WellAudited) (hsettled : db.Settled i)
    (hspent : ∀ row' ∈ db.attempts, row'.taskExecutionId = i → row'.IsOpen →
      row'.attemptNumber < n)
    (htask : db.execution? i = some task) (hone : 1 ≤ n) (hle : n ≤ task.retryCount)
    (hi : row.taskExecutionId = i) (hn : row.attemptNumber = n) :
  (db.apply (.insertAttempt row)).WellAudited
  := by
  subst hi hn
  apply h.insertAttempt
  · rintro row' hrow' hi ⟨hpending, -⟩
    apply hsettled row' hrow' hi hpending
  · intro row' hrow' hi hopen _
    exact (hspent row' hrow' hi hopen).ne
  · intro _
    exact ⟨task, htask, hone, hle⟩

/-- Recording a decision about the row gives it the status of the decision. -/
theorem leaves_recordInitialErrorStatus (hsound : c.Sound sound) {task : TaskExecution}
    (hctx : ctx.task = some task) (hloaded : Loaded ctx.taskExecutionId task s c)
    (hretry : decision.retryAllowed = true →
      decision.status = .retrying ∧ decision.attemptNumber = task.retryCount + 1)
    (hsettled : sound → decision.retryAllowed = true → c.view.Settled ctx.taskExecutionId) :
  Leaves sound (recordInitialErrorStatus ctx decision) (fun _ s' c' => ∃ row,
    Loaded ctx.taskExecutionId row s' c' ∧ row.status = decision.status) s c
  := by
  rw [recordInitialErrorStatus]
  apply (leaves_updateTaskStatus hsound _ _ hloaded.inStep hloaded.row).bind
  rintro - s₁ c₁ hsound₁ ⟨now, rfl, hmap, -, -⟩
  have hrow := execution?_updated decision.status
    { errorDetail := some ctx.errorDetail, statusMessage := some decision.statusMsg } now
    hloaded.row
  rw [modifyAttempt]
  apply leaves_modify_bind
  rw [hctx]
  simp only []
  split
  case isTrue hrefused =>
    apply (leaves_recordTaskAttempt hsound₁ _ _ _ _ _ _ _ _).mono
    · rintro - s₂ c₂ - - ⟨rfl, -, hexecutions⟩
      refine ⟨_, ⟨hmap, ?_⟩, rfl⟩
      rw [hexecutions, hrow]
    · intro h row _ _ hresult
      apply (hsound₁ h).2.insertAttempt_of_not_open
      rw [TaskAttempt.IsOpen, hresult]
      split
      · simp
      · simp
  case isFalse =>
    split
    case isTrue hallowed =>
      obtain ⟨hstatus, hnumber⟩ := hretry hallowed
      rw [modifyAttempt]
      apply leaves_modify_bind
      apply (leaves_recordTaskAttempt hsound₁ _ _ _ _ _ _ _ _).mono
      · rintro - s₂ c₂ - - ⟨rfl, -, hexecutions⟩
        refine ⟨_, ⟨hmap, ?_⟩, rfl⟩
        rw [hexecutions, hrow]
      · intro h row hi hn _
        apply wellAudited_insertRetry (hsound₁ h).2 (hsettled h hallowed) _ hrow _ _ hi hn
        · intro row' hrow' hi' hopen
          obtain ⟨task', htask', -, hle⟩ := (hsound h).2.spent row' hrow' hopen
          rw [hi', hloaded.row] at htask'
          obtain rfl := Option.some_injective _ htask'
          omega
        · omega
        · change _ ≤ if decision.status = .retrying then task.retryCount + 1 else task.retryCount
          rw [if_pos hstatus, hnumber]
    case isFalse => exact leaves_pure hsound₁ ⟨_, ⟨hmap, hrow⟩, rfl⟩

/-- Marking the sent message commits, and leaves the row as it is. -/
theorem leaves_markDispatched (hsound : c.Sound sound) {i : UUID} {row : TaskExecution}
    (hrow : c.view.execution? i = some row) (n : ℕ) (notFound : String) :
  Leaves sound (markDispatched i n notFound) (fun _ _ c' => c'.db.execution? i = some row) s c
  := by
  rw [markDispatched]
  apply (leaves_markTaskAttemptDispatched hsound i n).bind
  rintro marked s' c' hsound' ⟨rfl, rfl⟩
  have hcommit : Leaves sound (do
      commit
      modifyResult fun result => { result with error := some .noResultError })
      (fun _ _ c' => c'.db.execution? i = some row) s'
      { c with view := c.view.view (markEffects c.view i n) } := by
    apply leaves_commit_bind hsound'
    intro hsound''
    apply leaves_modify hsound''
    change (c.view.view (markEffects c.view i n)).execution? i = some row
    rw [execution?_view_markEffects, hrow]
  cases marked with
  | false => exact (leaves_throw hsound' _).bind (fun _ _ _ _ h => h)
  | true => apply hcommit

/-! ### Branches -/

/-- Sending the message leaves the row retrying, or fails it. -/
theorem leaves_dispatchRetry (hsound : c.Sound sound) {row : TaskExecution}
    (hloaded : Loaded ctx.taskExecutionId row s c) (hstatus : row.status = decision.status) :
  Leaves sound (dispatchRetry ctx decision) (Announces ctx.taskExecutionId) s c
  := by
  rw [dispatchRetry, requeue]
  apply leaves_kiq_bind
  intro accepted
  cases accepted with
  | true =>
      apply leaves_get_bind
      apply (leaves_markDispatched hsound hloaded.row _ _).bind
      intro _ s' c' hsound' hrow
      apply leaves_pure hsound' ⟨row, hrow, hstatus⟩
  | false =>
      simp only [Bool.false_eq_true, if_false]
      apply (leaves_updateTaskStatus hsound _ _ hloaded.inStep hloaded.row).bind
      rintro - s₁ c₁ hsound₁ ⟨now, rfl, hmap, -, -⟩
      have hrow := execution?_updated .failed
        { errorDetail := some ctx.errorDetail,
          statusMessage := some "Task failed (retry dispatch error)" } now hloaded.row
      rw [modifyAttempt]
      apply leaves_modify_bind
      cases ctx.task with
      | none =>
          apply leaves_commit_bind hsound₁
          intro hsound₂
          apply leaves_pure hsound₂ ⟨_, hrow, rfl⟩
      | some task =>
          apply (leaves_recordTaskAttempt hsound₁ _ _ _ _ _ _ _ _).bind
          · rintro - s₂ c₂ hsound₂ ⟨-, -, hexecutions⟩
            have hrow₂ := (hexecutions ctx.taskExecutionId).trans hrow
            apply leaves_commit_bind hsound₂
            intro hsound₃
            apply leaves_pure hsound₃ ⟨_, hrow₂, rfl⟩
          · intro h row' _ _ hresult
            apply (hsound₁ h).2.insertAttempt_of_not_open
            rw [TaskAttempt.IsOpen, hresult]
            simp

/-- Finding the retry of an earlier pass leaves its row, or fails it. -/
theorem leaves_recoverRetry (hsound : c.Sound sound) {row : TaskExecution}
    (hloaded : Loaded ctx.taskExecutionId row s c) (hstatus : row.status = decision.status) :
  Leaves sound (recoverRetry ctx decision) (Announces ctx.taskExecutionId) s c
  := by
  rw [recoverRetry]
  apply leaves_get_bind
  rw [getTaskAttemptDispatchState, getLatestPendingOrDispatchedTaskAttempt]
  apply leaves_query_bind rfl hsound
  simp only [Database.answer]
  split
  case h_1 => exact leaves_throw hsound _
  case h_2 attempt _ =>
    split
    case isTrue =>
      rw [recoverDispatchAudit]
      apply (leaves_markDispatched hsound hloaded.row _ _).bind
      intro _ s' c' hsound' hrow
      apply leaves_pure hsound' ⟨row, hrow, hstatus⟩
    case isFalse =>
      apply leaves_commit_bind hsound
      intro hsound'
      apply leaves_dispatchRetry hsound' ⟨hloaded.instance_, hloaded.row⟩ hstatus

/-- Recording a new retry leaves the row retrying, or fails it. -/
theorem leaves_recordRetry (hsound : c.Sound sound) {task : TaskExecution}
    (hctx : ctx.task = some task) (hloaded : Loaded ctx.taskExecutionId task s c)
    (hstatus : decision.status = .retrying)
    (hnumber : decision.attemptNumber = task.retryCount + 1) :
  Leaves sound (recordRetry ctx decision) (Announces ctx.taskExecutionId) s c
  := by
  rw [recordRetry]
  apply (leaves_reconcilePending hsound ctx.taskExecutionId).bind
  rintro - s₁ c₁ hsound₁ ⟨rfl, -, hexecutions, hsettled⟩
  have hloaded₁ : Loaded ctx.taskExecutionId task s₁ c₁ :=
    ⟨hloaded.instance_, by rw [hexecutions, hloaded.row]⟩
  apply (leaves_recordInitialErrorStatus hsound₁ hctx hloaded₁ (fun _ => ⟨hstatus, hnumber⟩)
    (fun h _ => hsettled h)).bind
  rintro - s₂ c₂ hsound₂ ⟨row, hloaded₂, hrow⟩
  apply leaves_commit_bind hsound₂
  intro hsound₃
  apply leaves_dispatchRetry hsound₃ ⟨hloaded₂.instance_, hloaded₂.row⟩ hrow

/-- A decision that sends nothing leaves the row with its status. -/
theorem leaves_recordFailure (hsound : c.Sound sound) {task : TaskExecution}
    (hctx : ctx.task = some task) (hloaded : Loaded ctx.taskExecutionId task s c)
    (hrecorded : decision.retryAlreadyRecorded = true → task.status = decision.status)
    (hallowed : decision.retryAllowed = false) :
  Leaves sound (recordFailure ctx decision) (Announces ctx.taskExecutionId) s c
  := by
  have hcommit {row : TaskExecution} {s₁ : Invocation} {c₁ : Scene} (hsound₁ : c₁.Sound sound)
      (hloaded₁ : Loaded ctx.taskExecutionId row s₁ c₁) (hstatus : row.status = decision.status) :
      Leaves sound (do
        commit
        pure (decision.status, decision.statusMsg)) (Announces ctx.taskExecutionId) s₁ c₁ := by
    apply leaves_commit_bind hsound₁
    intro hsound₂
    apply leaves_pure hsound₂ ⟨row, hloaded₁.row, hstatus⟩
  rw [recordFailure]
  cases hnew : decision.retryAlreadyRecorded with
  | true => apply hcommit hsound hloaded (hrecorded hnew)
  | false =>
      simp only [Bool.not_false, if_true]
      apply (leaves_recordInitialErrorStatus hsound hctx hloaded _ _).bind
      · rintro - s₁ c₁ hsound₁ ⟨row, hloaded₁, hstatus⟩
        apply hcommit hsound₁ hloaded₁ hstatus
      · intro h
        cases h.symm.trans hallowed
      · intro _ h
        cases h.symm.trans hallowed

/-- A decision about no row writes nothing. -/
theorem leaves_recordFailure_none (hsound : c.Sound sound) (hctx : ctx.task = none)
    (hinStep : InStep ctx.taskExecutionId s c)
    (hnone : c.view.execution? ctx.taskExecutionId = none) :
  Leaves sound (recordFailure ctx decision) (fun _ _ _ => True) s c
  := by
  rw [recordFailure]
  cases decision.retryAlreadyRecorded with
  | true =>
      apply leaves_commit_bind hsound
      intro hsound'
      apply leaves_pure hsound' trivial
  | false =>
      simp only [Bool.not_false, if_true]
      rw [recordInitialErrorStatus, bind_assoc]
      apply (leaves_updateTaskStatus_none hsound _ _ hinStep hnone).bind
      rintro - s₁ c₁ hsound₁ ⟨rfl, -, -⟩
      rw [modifyAttempt, hctx, bind_assoc]
      apply leaves_modify_bind
      apply leaves_commit_bind hsound₁
      intro hsound₂
      apply leaves_pure hsound₂ trivial

/-- What a decision about the row leaves is announced. -/
theorem leaves_recordDecision (hsound : c.Sound sound) {task : TaskExecution}
    (settings : Settings) (attempt : OnErrorAttempt) (hctx : ctx.task = some task)
    (hloaded : Loaded ctx.taskExecutionId task s c) :
  Leaves sound (recordDecision ctx (settings.resolveRetryDecision ctx attempt))
    (Announces ctx.taskExecutionId) s c
  := by
  have hstatus := settings.status_of_recorded attempt hctx
  rw [recordDecision]
  split
  case isTrue hallowed =>
    cases hnew : (settings.resolveRetryDecision ctx attempt).retryAlreadyRecorded with
    | true => apply leaves_recoverRetry hsound hloaded (hstatus hnew)
    | false =>
        simp only [Bool.false_eq_true, if_false]
        have hcoherent := settings.coherent_resolveRetryDecision attempt hctx hnew
        apply leaves_recordRetry hsound hctx hloaded (hcoherent.retrying.mpr (Or.inl hallowed))
        apply settings.attemptNumber_resolveRetryDecision attempt hctx
  case isFalse hallowed =>
    apply leaves_recordFailure hsound hctx hloaded hstatus
    rwa [Bool.not_eq_true] at hallowed

/-! ### Sessions -/

/-- The session of a pass announces the status it has committed. -/
theorem leaves_errorSession (hsound : c.Sound sound) (settings : Settings)
    (message : TaskiqMessage) (exception : PyException) {i : UUID} {row : TaskExecution}
    (hmap : s.identityMap i = none) (hrow : c.view.execution? i = some row) :
  Leaves sound (errorSession settings message exception i) (Announces i) s c
  := by
  have hinStep : InStep i s c := by
    intro task htask
    rw [hmap] at htask
    cases htask
  rw [errorSession]
  apply (leaves_getTaskExecution hsound hinStep).bind
  rintro task s₁ c₁ hsound₁ ⟨rfl, rfl, hmap₁, -, -⟩
  rw [hrow] at hmap₁
  apply leaves_get_bind
  rw [hrow]
  simp only []
  apply Leaves.bind (leaves_recordDecision hsound₁ settings s₁.attempt rfl ⟨hmap₁, hrow⟩)
  intro emitted s₂ c₂ hsound₂ hannounces
  split
  · rw [modifyResult]
    apply leaves_modify_bind
    apply leaves_pure hsound₂ hannounces
  · apply leaves_pure hsound₂ hannounces

/-- The session of a pass without a row writes nothing. -/
theorem leaves_errorSession_none (hsound : c.Sound sound) (settings : Settings)
    (message : TaskiqMessage) (exception : PyException) {i : UUID}
    (hmap : s.identityMap i = none) (hnone : c.view.execution? i = none) :
  Leaves sound (errorSession settings message exception i) (fun _ _ _ => True) s c
  := by
  have hinStep : InStep i s c := by
    intro task htask
    rw [hmap] at htask
    cases htask
  rw [errorSession]
  apply (leaves_getTaskExecution hsound hinStep).bind
  rintro task s₁ c₁ hsound₁ ⟨rfl, rfl, hmap₁, -, -⟩
  apply leaves_get_bind
  rw [hnone] at hmap₁ ⊢
  have hinStep₁ : InStep i s₁ c₁ := by
    intro task htask
    rw [hmap₁] at htask
    cases htask
  simp only []
  rw [recordDecision]
  simp only [Settings.resolveRetryDecision, Option.any_none, Bool.false_and, Bool.false_eq_true,
    if_false]
  apply (leaves_recordFailure_none hsound₁ rfl hinStep₁ hnone).bind
  intro emitted s₂ c₂ hsound₂ _
  apply leaves_pure hsound₂ trivial

end Hook

/-! ### Rows that exist -/

/-- Whether the row of an execution exists, in the committed database as in the transaction. -/
def Scene.Has (i : UUID) (b : Bool) (c : Scene) : Prop :=
  (c.db.execution? i).isSome = b ∧ (c.view.execution? i).isSome = b

/-- No effect of a transaction creates or deletes an execution. -/
theorem Database.isSome_execution?_view (db : Database) (es : List Effect) (i : UUID) :
  ((db.view es).execution? i).isSome = (db.execution? i).isSome
  := by
  apply Database.eq_view (f := fun db => (db.execution? i).isSome)
  rintro e - db
  cases e with
  | insertAttempt row => rfl
  | updateAttempt id d => rfl
  | updateExecution j changes =>
      rw [Database.execution?_updateExecution]
      split
      · rw [Option.isSome_map]
      · rfl

/-- Every operation of a hook leaves the executions there are. -/
theorem Scene.has_of_moves {sound : Prop} {i : UUID} {b : Bool} {c c' : Scene} {o : Op}
    {r : o.Answer} (hmoves : (alone sound).moves c o r c') (h : c.Has i b) :
  c'.Has i b
  := by
  obtain ⟨hdb, hview⟩ := h
  cases o with
  | openSession =>
      obtain rfl : c' = _ := hmoves
      exact ⟨hdb, hdb⟩
  | closeSession =>
      obtain rfl : c' = _ := hmoves
      exact ⟨hdb, hdb⟩
  | now =>
      obtain rfl : c' = c := hmoves
      exact ⟨hdb, hview⟩
  | body message =>
      obtain rfl : c' = c := hmoves
      exact ⟨hdb, hview⟩
  | kiq message =>
      obtain rfl : c' = c := hmoves
      exact ⟨hdb, hview⟩
  | emit room event =>
      obtain rfl : c' = _ := hmoves
      exact ⟨hdb, hview⟩
  | statement st =>
      cases r with
      | error e =>
          obtain rfl : c' = c := hmoves
          exact ⟨hdb, hview⟩
      | ok r =>
          obtain ⟨-, rfl⟩ := hmoves
          refine ⟨hdb, ?_⟩
          rw [Database.isSome_execution?_view, hview]
  | commit =>
      cases r with
      | error e =>
          obtain rfl | rfl : c' = { c with view := c.db } ∨ c' = { c with db := c.view } := hmoves
          · exact ⟨hdb, hdb⟩
          · exact ⟨hview, hview⟩
      | ok r =>
          obtain rfl : c' = _ := hmoves
          exact ⟨hview, hview⟩

/-! ### Hooks -/

/-- An event tells the status that the row has at this moment. -/
def Emission.Tells (i : UUID) (e : Emission) : Prop :=
  ∀ row, e.db.execution? i = some row → e.event.status = row.status.value

namespace Hook

variable {sound : Prop} {s : Invocation} {c : Scene} {i : UUID} {b : Bool}

/-- How a hook ends: it has emitted nothing, or it returns after one event, which tells the
status. -/
def Told (sound : Prop) (i : UUID) (b : Bool) (emissions : List Emission) : Post Unit Scene :=
  fun r _ c' => c'.Sound sound ∧ c'.Has i b ∧ (c'.emissions = emissions ∨
    r = .ok () ∧ ∃ e, c'.emissions = emissions ++ [e] ∧ e.db = c'.db ∧ e.Tells i)

/-- A part of a hook leaves the executions there are. -/
theorem Leaves.and_has {α : Type} {h : Hook α} {Q : α → Invocation → Scene → Prop}
    (hh : Leaves sound h Q s c) (hhas : c.Has i b) :
  Obeys (alone sound) h (fun r s' c' => (c'.Sound sound ∧ c'.emissions = c.emissions ∧
    ∀ a, r = .ok a → Q a s' c') ∧ c'.Has i b) s c
  := Program.Follows.and_of_moves (fun _ _ _ _ => Scene.has_of_moves) hh hhas

/-- A session leaves what its body leaves. -/
theorem Leaves.withSession {α : Type} {body : Hook α} {Q : α → Invocation → Scene → Prop}
    (hsound : c.Sound sound)
    (hbody : Scene.Sound sound { c with view := c.db } → Leaves sound body Q
      { s with identityMap := fun _ => none } { c with view := c.db }) :
  Leaves sound (withSession body) (fun a _ c' => ∃ s₁ c₁, Q a s₁ c₁ ∧ c'.db = c₁.db) s c
  := by
  apply obeys_withSession trivial
  intro c' hmoves
  obtain rfl : c' = { c with view := c.db } := hmoves
  apply Obeys.mono (hbody (fun h => ⟨(hsound h).1, (hsound h).1⟩))
  rintro r s₁ c₁ ⟨hsound₁, hemissions, hleaves⟩
  use trivial
  intro c₂ hmoves
  obtain rfl : c₂ = { c₁ with view := c₁.db } := hmoves
  exact ⟨fun h => ⟨(hsound₁ h).1, (hsound₁ h).1⟩, hemissions,
    fun a ha => ⟨s₁, c₁, hleaves a ha, rfl⟩⟩

/-- Emitting an event about a status that the row has. -/
theorem obeys_emitStatusEvent_told (hsound : c.Sound sound) (hhas : c.Has i b)
    (settings : Settings) (message : TaskiqMessage) {status : TaskStatus}
    (statusMessage errorDetail : Option String)
    (hstatus : ∀ row, c.db.execution? i = some row → row.status = status) :
  Obeys (alone sound) (emitStatusEvent settings message status statusMessage errorDetail)
    (Told sound i b c.emissions) s c
  := by
  have hevent (tenantId : UUID) (event : TaskEvent) (hevent : event.status = status.value) :
      Obeys (alone sound) (emitTaskEvent settings tenantId event) (Told sound i b c.emissions)
        s c := by
    rw [emitTaskEvent]
    split
    · rw [obeys_bind, obeys_perform]
      use trivial
      intro r c' hmoves
      obtain rfl : c' = _ := hmoves
      refine ⟨hsound, hhas, Or.inr ⟨rfl, _, rfl, rfl, ?_⟩⟩
      intro row hrow
      rw [hstatus row hrow]
      apply hevent
    · exact ⟨hsound, hhas, Or.inl rfl⟩
  rw [emitStatusEvent]
  split
  · split
    · apply hevent _ _ rfl
    · apply hevent _ _ rfl
    · apply hevent _ _ rfl
  · exact ⟨hsound, hhas, Or.inl rfl⟩

end Hook

end WorkerTemplate
