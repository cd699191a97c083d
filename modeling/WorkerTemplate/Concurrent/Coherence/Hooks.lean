import WorkerTemplate.Concurrent.Coherence.Protocol

/-!
# The marks that hooks set

The hooks keep to the protocol of the marks: they set the time of the start with the first running
status, the time of completion with every terminal one, and the error after a body that has raised.
-/

namespace WorkerTemplate

namespace Hook

open Coherence

variable {i j : UUID} {s : Invocation} {c : State} {α : Type}

/-! ### Services -/

/-- What a service leaves that touches the identity map only: what does not depend on the
session, and where it returns, the instances of the session. -/
structure Serves (i : UUID) (s : Invocation) (c : State) (r : Except OperationalError α)
    (s' : Invocation) (c' : State) : Prop where
  attempt : s'.attempt = s.attempt
  result : s'.result = s.result
  lasts : c.Lasts c'
  returned : ∀ a, r = .ok a → c.Gains c' ∧ Instances i s' c'

/-- A row that is read by its primary key is one whose marks the thread knows. -/
theorem knows_of_select {row : TaskExecution} {c' : State} {tenantId : Option UUID}
    (hmoves : (Coherence.protocol i).moves c (.statement (.selectExecution j tenantId))
      (.ok (some row)) c') :
  row.id = j ∧ c.Gains c' ∧ (j = i → c'.Knows row)
  := by
  obtain ⟨hid, rfl, hcoherent⟩ := hmoves
  refine ⟨hid, ?_, ?_⟩
  · split
    · apply c.gains_read row
    · exact .refl c
  · intro hj
    rw [if_pos hj]
    apply c.knows_read (hcoherent hj)

/-- A statement that fails leaves what does not depend on the session. -/
theorem serves_error {st : Statement} {c' : State} {e e' : OperationalError}
    (hmoves : (Coherence.protocol i).moves c (.statement st) (.error e) c') :
  Serves i s c (.error e' : Except OperationalError α) s c'
  := ⟨rfl, rfl, State.lasts_of_moves hmoves, by rintro a ⟨⟩⟩

/-- Loading an execution gives an instance of it whose marks the thread knows. -/
theorem obeys_getTaskExecution_coherence (hs : Instances i s c) (j : UUID) :
  Obeys (Coherence.protocol i) (getTaskExecution j none)
    (fun r s' c' => Serves i s c r s' c' ∧ (r = .ok none → j ≠ i) ∧
      ∀ task, r = .ok (some task) → task.id = j ∧ (j = i → c'.Knows task)) s c
  := by
  apply obeys_getTaskExecution trivial
  · intro e c' hmoves
    exact ⟨serves_error hmoves, by simp, by simp⟩
  · rintro c' ⟨rfl, hne⟩
    refine ⟨⟨rfl, rfl, .refl c', fun _ _ => ⟨.refl c', hs⟩⟩, ?_, by simp⟩
    intro _ hj
    apply hne ⟨hj, rfl⟩
  · intro row c' hmoves
    obtain ⟨hid, hgains, hknows⟩ := knows_of_select hmoves
    have hs' := hs.mono hgains
    constructor
    · intro task htask
      obtain ⟨htaskid, htaskknows⟩ := hs' row.id task htask
      refine ⟨⟨rfl, rfl, hgains.toLasts, fun _ _ => ⟨hgains, hs'⟩⟩, by simp, ?_⟩
      rintro _ ⟨⟩
      exact ⟨htaskid.trans hid, fun hj => htaskknows (hid.trans hj)⟩
    · intro _
      have hkeep : Instances i (s.keep row) c' := hs'.keep (fun hi => hknows (hid ▸ hi))
      refine ⟨⟨rfl, rfl, hgains.toLasts, fun _ _ => ⟨hgains, hkeep⟩⟩, by simp, ?_⟩
      rintro _ ⟨⟩
      exact ⟨hid, hknows⟩

theorem obeys_refresh_coherence (hs : Instances i s c) (task : TaskExecution) :
  Obeys (Coherence.protocol i) (refresh task) (fun r s' c' => Serves i s c r s' c') s c
  := by
  apply obeys_refresh trivial
  · intro e c' hmoves
    apply serves_error hmoves
  · rintro c' ⟨rfl, -⟩
    exact ⟨rfl, rfl, .refl c', fun _ _ => ⟨.refl c', hs⟩⟩
  · intro row c' hmoves
    obtain ⟨hid, hgains, hknows⟩ := knows_of_select hmoves
    refine ⟨rfl, rfl, hgains.toLasts, fun _ _ => ⟨hgains, ?_⟩⟩
    apply (hs.mono hgains).keep (fun hi => hknows (hid ▸ hi))

/-- Updating a status for which there is what it needs; the running status starts the row. -/
theorem obeys_updateTaskStatus_coherence (hs : Instances i s c) {status : TaskStatus}
    {fields : StatusUpdate} (hneeds : j = i → Needs status fields c) :
  Obeys (Coherence.protocol i) (updateTaskStatus j status fields)
    (fun r s' c' => Serves i s c r s' c' ∧
      ∀ a, r = .ok a → status = .running → j = i → c'.Started) s c
  := by
  apply obeys_updateTaskStatus (obeys_getTaskExecution_coherence hs j)
  · rintro e s₁ c₁ ⟨hserves, -, -⟩
    exact ⟨⟨hserves.attempt, hserves.result, hserves.lasts, by rintro a ⟨⟩⟩, by rintro a ⟨⟩⟩
  · rintro s₁ c₁ ⟨hserves, hnone, -⟩
    refine ⟨⟨hserves.attempt, hserves.result, hserves.lasts, ?_⟩, ?_⟩
    · intro _ _
      apply hserves.returned none rfl
    · intro _ _ _ hj
      exact absurd hj (hnone rfl)
  · rintro task s₁ c₁ ⟨hserves, -, hsome⟩
    obtain ⟨hid, hknows⟩ := hsome task rfl
    obtain ⟨hgains, hs₁⟩ := hserves.returned _ rfl
    use trivial
    rintro now c₁ rfl
    refine ⟨?_, ?_, ?_⟩
    · intro hi
      have hj : j = i := hid.symm.trans hi
      have hneeds₁ : Needs status fields c₁ :=
        ⟨fun h h' => hgains.reads ((hneeds hj).begun h h'),
          fun h => hgains.raised ((hneeds hj).error h)⟩
      apply permitted_changes_assign (hknows hj) hneeds₁ now
    · intro e c₂ hmoves
      have hlasts := hserves.lasts.trans (State.lasts_of_moves hmoves)
      exact ⟨⟨hserves.attempt, hserves.result, hlasts, by rintro a ⟨⟩⟩, by rintro a ⟨⟩⟩
    · intro c₂ hmoves
      have hc₂ : c₂ = if task.id = i then
          c₁.update (task.changes (task.assign status fields now)) else c₁ := hmoves
      have hgains₂ : c₁.Gains c₂ := by
        rw [hc₂]
        split
        · apply c₁.gains_update _
        · exact .refl c₁
      have hstarted : status = .running → j = i → c₂.Started := by
        rintro rfl hj
        rw [hc₂, if_pos (hid.trans hj)]
        apply started_update_assign (hknows hj) fields now
      apply (obeys_refresh_coherence (hs₁.mono hgains₂) task).mono
      rintro (e | row) s₃ c₃ hserves₃
      · have hlasts := (hserves.lasts.trans hgains₂.toLasts).trans hserves₃.lasts
        exact ⟨⟨hserves₃.attempt.trans hserves.attempt, hserves₃.result.trans hserves.result,
          hlasts, by rintro a ⟨⟩⟩, by rintro a ⟨⟩⟩
      · obtain ⟨hgains₃, hs₃⟩ := hserves₃.returned row rfl
        have hgains' : c.Gains c₃ := (hgains.trans hgains₂).trans hgains₃
        exact ⟨⟨hserves₃.attempt.trans hserves.attempt, hserves₃.result.trans hserves.result,
          hgains'.toLasts, fun _ _ => ⟨hgains', hs₃⟩⟩,
          fun _ _ hstatus hj => hgains₃.reads (hstarted hstatus hj)⟩

/-! ### Sessions -/

/-- A condition that depends neither on a session nor on its instances. -/
def Lasting (base : Invocation → State → Prop) : Prop :=
  ∀ (s s' : Invocation) (c c' : State), s'.attempt = s.attempt → s'.result = s.result →
    c.Lasts c' → base s c → base s' c'

variable {base : Invocation → State → Prop}

theorem sustains_getTaskExecution_coherence (hbase : Lasting base) :
  Sustains (Coherence.protocol i) base (Instances i) (getTaskExecution j none)
  := by
  intro s c hs hI
  apply (obeys_getTaskExecution_coherence hI j).mono
  rintro r s' c' ⟨hserves, -, -⟩
  exact ⟨hbase s s' c c' hserves.attempt hserves.result hserves.lasts hs,
    fun a ha => (hserves.returned a ha).2⟩

theorem sustains_updateTaskStatus_coherence (hbase : Lasting base) {status : TaskStatus}
    {fields : StatusUpdate} (hneeds : ∀ s c, base s c → j = i → Needs status fields c) :
  Sustains (Coherence.protocol i) base (Instances i) (updateTaskStatus j status fields)
  := by
  intro s c hs hI
  apply (obeys_updateTaskStatus_coherence hI (hneeds s c hs)).mono
  rintro r s' c' ⟨hserves, -⟩
  exact ⟨hbase s s' c c' hserves.attempt hserves.result hserves.lasts hs,
    fun a ha => (hserves.returned a ha).2⟩

theorem sustains_commit_coherence (hbase : Lasting base) :
  Sustains (Coherence.protocol i) base (Instances i) commit
  := by
  apply sustains_commit
  · intro c
    trivial
  · rintro s c _ hs hI rfl
    exact ⟨hbase s s c _ rfl rfl c.gains_commit.toLasts hs, hI.mono c.gains_commit⟩
  · rintro s c e _ hs rfl
    apply hbase s s c _ rfl rfl c.lasts_close hs

/-- A statement that touches no execution leaves what the thread knows. -/
theorem sustains_execute_coherence (hbase : Lasting base) {st : Statement}
    (hallows : ∀ c, (Coherence.protocol i).allows c (.statement st))
    (hmoves : ∀ c a c', (Coherence.protocol i).moves c (.statement st) (.ok a) c' → c' = c) :
  Sustains (Coherence.protocol i) base (Instances i) (execute st)
  := by
  apply sustains_execute
  · intro s c _ _
    apply hallows c
  · intro s c a c' hs hI h
    rw [hmoves c a c' h]
    exact ⟨hs, hI⟩
  · intro s c e c' hs h
    apply hbase s s c c' rfl rfl (State.lasts_of_moves h) hs

theorem opens_coherence (hbase : Lasting base) (s : Invocation) (c : State) (hs : base s c) :
  (Coherence.protocol i).allows c .openSession ∧
    ∀ c', (Coherence.protocol i).moves c .openSession () c' →
      base { s with identityMap := fun _ => none } c' ∧
        Instances i { s with identityMap := fun _ => none } c'
  := by
  use trivial
  rintro _ rfl
  exact ⟨hbase s _ c _ rfl rfl c.lasts_close hs, instances_nil i s _⟩

theorem closes_coherence (hbase : Lasting base) (s : Invocation) (c : State) (hs : base s c) :
  (Coherence.protocol i).allows c .closeSession ∧
    ∀ c', (Coherence.protocol i).moves c .closeSession () c' → base s c'
  := by
  use trivial
  rintro _ rfl
  apply hbase s s c _ rfl rfl c.lasts_close hs

theorem maintains_setStatus_coherence (hbase : Lasting base) {status : TaskStatus}
    {fields : StatusUpdate} (hneeds : ∀ s c, base s c → j = i → Needs status fields c) :
  Maintains (Coherence.protocol i) base (setStatus j status fields)
  := by
  apply Sustains.withSession _ (opens_coherence hbase) (closes_coherence hbase)
  apply (sustains_updateTaskStatus_coherence hbase hneeds).bind
  intro _
  apply sustains_commit_coherence hbase

/-- Publishing an event tells a thread nothing. -/
theorem maintains_emit_coherence (I : Invocation → State → Prop) (room : Text)
    (event : TaskEvent) :
  Maintains (Coherence.protocol i) I (perform (.emit room event))
  := by
  apply maintains_perform
  · intro s c _
    trivial
  · rintro s c r _ h rfl
    apply h

/-! ### The hooks -/

variable {settings : Settings} {message : TaskiqMessage}

/-- The execution of a message is started where the hook before the body returns. -/
theorem obeys_preExecute_coherence (hid : message.extractTaskExecutionId = some j)
    (s : Invocation) (c : State) :
  Obeys (Coherence.protocol i) (preExecute settings message)
    (fun r _ c' => r = .ok () → j = i → c'.started = true) s c
  := by
  rw [preExecute]
  apply obeys_createDbRetry (fun _ _ => True) _ (fun _ _ _ _ => trivial) _ trivial
  intro s c _
  rw [hid]
  simp only []
  rw [obeys_bind]
  have hsession : Obeys (Coherence.protocol i)
      (setStatus j .running { statusMessage := some "Task started" })
      (fun r _ c' => r = .ok () → j = i → c'.started = true) s c := by
    apply obeys_withSession trivial
    rintro _ rfl
    have hneeds : j = i → Needs .running { statusMessage := some "Task started" } c.close :=
      fun _ => ⟨fun _ hne => absurd rfl hne, by rintro ⟨⟩⟩
    rw [obeys_bind]
    apply (obeys_updateTaskStatus_coherence (instances_nil i s _) hneeds).mono
    rintro (e | task) s' c' ⟨-, hstarted⟩
    · use trivial
      rintro _ rfl ⟨⟩
    · rw [next_ok, obeys_commit]
      use trivial
      rintro (e | _) _ rfl
      · use trivial
        rintro _ rfl ⟨⟩
      · use trivial
        rintro _ rfl _ hj
        have hc' : c'.Started := hstarted task rfl rfl hj
        simp only [State.close, State.commit, Bool.or_eq_true]
        apply hc'
  apply hsession.mono
  rintro (e | _) s' c' h
  · rintro ⟨⟩
  · rw [next_ok]
    have hemit := maintains_emitStatusEvent (P := Coherence.protocol i)
      (I := fun _ c => j = i → c.started = true) (maintains_emit_coherence _) settings message
      .running (some "Task started") none s' c' (h rfl)
    apply hemit.mono
    intro _ _ _ hstarted _
    apply hstarted

/-- What is known after a body: the execution was started, and a body has raised when the result
is an error. -/
def Ran (i j : UUID) (isErr : Bool) (c : State) : Prop :=
  j = i → c.started = true ∧ (isErr = true → c.raised = true)

theorem Ran.lasts {isErr : Bool} {c' : State} (h : Ran i j isErr c) (hlasts : c.Lasts c') :
  Ran i j isErr c'
  := fun hj => ⟨hlasts.started (h hj).1, fun herr => hlasts.raised ((h hj).2 herr)⟩

/-- The hook after a body keeps what is known after it. -/
theorem maintains_postExecute_coherence (hid : message.extractTaskExecutionId = some j)
    (result : TaskiqResult) :
  Maintains (Coherence.protocol i) (fun s c => s.result = result ∧ Ran i j result.isErr c)
    (postExecute settings message)
  := by
  have hbase : Lasting (fun s c => s.result = result ∧ Ran i j result.isErr c) := by
    rintro s s' c c' - hresult hlasts ⟨hs, hran⟩
    exact ⟨hresult.trans hs, hran.lasts hlasts⟩
  rw [postExecute]
  apply Maintains.createDbRetry
  rw [hid]
  intro s c h
  simp only []
  rw [obeys_bind, obeys_get, next_ok, h.1]
  revert s c
  change Maintains _ _ _
  apply Maintains.ite (maintains_pure _)
  apply Maintains.ite (maintains_pure _)
  cases herr : result.isErr with
  | true =>
      rw [herr] at hbase
      have hstatus (fields : StatusUpdate) : Maintains (Coherence.protocol i)
          (fun s c => s.result = result ∧ Ran i j true c) (setStatus j .failed fields) := by
        apply maintains_setStatus_coherence hbase
        rintro s c ⟨-, hran⟩ hj
        exact ⟨fun hbegun => absurd hbegun (by decide), fun _ => (hran hj).2 rfl⟩
      apply (hstatus _).bind
      intro _
      apply maintains_emitStatusEvent (maintains_emit_coherence _)
  | false =>
      rw [herr] at hbase
      have hstatus : Maintains (Coherence.protocol i)
          (fun s c => s.result = result ∧ Ran i j false c)
          (setStatus j .completed { statusMessage := some "Task completed successfully" }) := by
        apply maintains_setStatus_coherence hbase
        rintro s c ⟨-, hran⟩ hj
        exact ⟨fun _ _ => .inl (hran hj).1, by rintro ⟨⟩⟩
      apply hstatus.bind
      intro _
      apply maintains_emitStatusEvent (maintains_emit_coherence _)

/-- The operations of the hook after an error sustain what its session knows, when the execution
was started and a body has raised. -/
theorem errs_coherence (i j : UUID) :
  Errs (Coherence.protocol i) (fun _ c => Ran i j true c) (Instances i) j
  := by
  have hbase : Lasting (fun _ c => Ran i j true c) := by
    rintro s s' c c' - - hlasts hran
    apply hran.lasts hlasts
  constructor
  case openSession => exact opens_coherence hbase
  case closeSession => exact closes_coherence hbase
  case commit => exact sustains_commit_coherence hbase
  case load => exact sustains_getTaskExecution_coherence hbase
  case update =>
    intro status fields
    apply sustains_updateTaskStatus_coherence hbase
    intro s c hran hj
    exact ⟨fun _ _ => .inl (hran hj).1, fun _ => (hran hj).2 rfl⟩
  case select =>
    intro filter
    exact sustains_execute_coherence hbase (fun _ => trivial) (fun _ _ _ h => h)
  case insert =>
    intro row
    exact sustains_execute_coherence hbase (fun _ => trivial) (fun _ _ _ h => h)
  case resolve =>
    intro id d
    exact sustains_execute_coherence hbase (fun _ => trivial) (fun _ _ _ h => h)
  case kiq =>
    intro message
    apply sustains_perform
    · intro s c _ _
      trivial
    · rintro s c r _ hran hs rfl
      exact ⟨hran, hs⟩
  case emit => exact maintains_emit_coherence _
  case attempt => exact fun _ _ _ => ⟨fun h => h, fun h => h⟩
  case result => exact fun _ _ _ => ⟨fun h => h, fun h => h⟩

/-- A delivery obeys the protocol of the marks. -/
theorem obeys_deliver_coherence (settings : Settings) (message : TaskiqMessage) (s : Invocation)
    (c : State) :
  Obeys (Coherence.protocol i) (deliver settings message) (fun _ _ _ => True) s c
  := by
  cases hid : message.extractTaskExecutionId with
  | none => apply obeys_deliver_none hid trivial
  | some j =>
      rw [deliver, obeys_bind]
      apply (obeys_preExecute_coherence hid s c).mono
      rintro (e | _) s₁ c₁ hstarted
      · trivial
      · rw [next_ok, obeys_bind, obeys_perform]
        use trivial
        rintro (_ | exception) c₂ hc₂
        · have hran : Ran i j false c₂ := by
            intro hj
            rw [hc₂, if_neg (by simp)]
            exact ⟨hstarted rfl hj, by rintro ⟨⟩⟩
          rw [next_ok, finish, obeys_bind, modifyResult, obeys_modify, next_ok]
          apply (maintains_postExecute_coherence hid succeeded _ _ ⟨rfl, hran⟩).mono
          intros
          trivial
        · have hran : Ran i j true c₂ := by
            rintro rfl
            rw [hc₂, if_pos ⟨hid, rfl⟩]
            exact ⟨hstarted rfl rfl, fun _ => rfl⟩
          rw [next_ok, finish, obeys_bind, modifyResult, obeys_modify, next_ok, obeys_bind]
          apply ((errs_coherence i j).onError settings hid exception _ _ hran).mono
          rintro (e | _) s₃ c₃ hran₃
          · trivial
          · rw [next_ok]
            have hran' : Ran i j s₃.result.isErr c₃ :=
              fun hj => ⟨(hran₃ hj).1, fun _ => (hran₃ hj).2 rfl⟩
            apply (maintains_postExecute_coherence hid s₃.result s₃ c₃ ⟨rfl, hran'⟩).mono
            intros
            trivial

end Hook

end WorkerTemplate
