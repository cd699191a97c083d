import WorkerTemplate.Concurrent.Coherence.Hooks

/-!
# Coherent rows

What the times and the error of a row say about its status.  A row is started before it is
running, retrying or completed, and a terminal status sets a time of completion.  Nothing
takes these marks back: a message that is delivered again finds the completion and the error
of the deliveries before it, and leaves them.
-/

namespace WorkerTemplate

namespace Coherence

/-- A terminal status of the execution was committed. -/
def Terminated (i : UUID) (w : Cluster) : Prop := ∃ e ∈ w.history, e.terminates i = true

/-- A body of the execution has raised. -/
def Raised (i : UUID) (w : Cluster) : Prop := ∃ e ∈ w.history, e.raises i = true

/-- What a thread knows is so. -/
structure Sound (i : UUID) (row : TaskExecution) (t : ℕ) (w : Cluster) (c : State) : Prop where
  started : c.started = true → row.startedAt.isSome
  readsStarted : c.readsStarted = true → (row.after i (w.txn t)).startedAt.isSome
  readsCompleted : c.readsCompleted = true → (row.after i (w.txn t)).completedAt.isSome
  raised : c.raised = true → Raised i w

/-- The committed row is coherent, the open transactions are justified, and what the threads know
is so. -/
structure Inv (i : UUID) (row : TaskExecution) (cs : List State) (w : Cluster) : Prop where
  found : w.db.execution? i = some row
  coherent : row.Coherent (Terminated i w) (Raised i w)
  justified : ∀ t, row.Justifies i (Raised i w) (w.txn t)
  sound : ∀ t c, cs[t]? = some c → Sound i row t w c

variable {i : UUID} {row row' : TaskExecution} {cs : List State} {c c' : State} {t : ℕ}
  {w w' : Cluster} {e : Entry}

theorem raised_of_history (hhistory : w'.history = e :: w.history) (h : Raised i w) :
  Raised i w'
  := by
  rw [Raised, hhistory]
  apply h.imp fun _ h => ⟨List.mem_cons_of_mem _ h.1, h.2⟩

theorem terminated_of_history (hhistory : w'.history = e :: w.history) :
  Terminated i w' ↔ Terminated i w ∨ e.terminates i = true
  := by
  rw [Terminated, hhistory, List.exists_mem_cons_iff, or_comm]
  rfl

/-- What a thread knows stays so while the rows it knows gain marks. -/
theorem Sound.of_marksLE (h : Sound i row t w c) (hmarks : row.MarksLE row')
    (hafter : (row.after i (w.txn t)).MarksLE (row'.after i (w'.txn t)))
    (hraised : Raised i w → Raised i w') :
  Sound i row' t w' c
  where
  started := hmarks.started ∘ h.started
  readsStarted := hafter.started ∘ h.readsStarted
  readsCompleted := hafter.completed ∘ h.readsCompleted
  raised := hraised ∘ h.raised

/-- What a thread knows stays so while its transaction waits. -/
theorem Sound.mono (h : Sound i row t w c) (hmarks : row.MarksLE row')
    (hraised : Raised i w → Raised i w') (htxn : w'.txn t = w.txn t) :
  Sound i row' t w' c
  := by
  apply h.of_marksLE hmarks _ hraised
  rw [htxn]
  apply hmarks.after _

/-- What a thread knows stays so when it goes on with a permitted effect. -/
theorem Sound.concat (h : Sound i row t w c) (effect : Effect)
    (hpermits : (row.after i (w.txn t)).PermitsEffect i (Raised i w) effect)
    (hraised : Raised i w → Raised i w') (htxn : w'.txn t = w.txn t ++ [effect]) :
  Sound i row t w' c
  := by
  apply h.of_marksLE (.refl row) _ hraised
  rw [htxn, TaskExecution.after_concat]
  apply hpermits.marksLE

/-- What a thread knows when its transaction was taken back. -/
theorem Sound.close (h : Sound i row t w c) (hmarks : row.MarksLE row')
    (hraised : Raised i w → Raised i w') :
  Sound i row' t w' c.close
  where
  started := hmarks.started ∘ h.started
  readsStarted := by rintro ⟨⟩
  readsCompleted := by rintro ⟨⟩
  raised := hraised ∘ h.raised

/-- The transaction of a thread changes, and the row only gains marks. -/
theorem Inv.set (hinv : Inv i row cs w) (hmarks : row.MarksLE row')
    (hfound : w'.db.execution? i = some row')
    (hcoherent : row'.Coherent (Terminated i w') (Raised i w'))
    (hraised : Raised i w → Raised i w') (htxn : ∀ t', t' ≠ t → w'.txn t' = w.txn t')
    (hjustified : row'.Justifies i (Raised i w') (w'.txn t)) (hsound : Sound i row' t w' c') :
  Inv i row' (cs.set t c') w'
  where
  found := hfound
  coherent := hcoherent
  justified := by
    intro t'
    by_cases ht : t' = t
    · rw [ht]
      apply hjustified
    · rw [htxn t' ht]
      apply (hinv.justified t').mono hmarks hraised
  sound := by
    intro t' c'' hc''
    rcases Machine.state_of_set hc'' with ⟨rfl, rfl⟩ | ⟨hne, hc''⟩
    · apply hsound
    · apply (hinv.sound t' c'' hc'').mono hmarks hraised (htxn t' hne)

/-- An operation that commits nothing keeps the row. -/
theorem Inv.keep (hinv : Inv i row cs w) (hhistory : w'.history = e :: w.history)
    (heffects : e.effects = []) (hdb : w'.db = w.db)
    (htxn : ∀ t', t' ≠ t → w'.txn t' = w.txn t')
    (hjustified : row.Justifies i (Raised i w) (w'.txn t)) (hsound : Sound i row t w' c') :
  Inv i row (cs.set t c') w'
  := by
  have hraised : Raised i w → Raised i w' := raised_of_history hhistory
  have hterminated : Terminated i w ↔ Terminated i w' := by
    rw [terminated_of_history hhistory, Entry.terminates, heffects]
    simp
  apply hinv.set (.refl row) _ (hinv.coherent.mono hterminated hraised) hraised htxn
    (hjustified.mono (.refl row) hraised) hsound
  rw [hdb, hinv.found]

/-- A commit applies a justified transaction to the row. -/
theorem Inv.commit (hinv : Inv i row cs w) (hhistory : w'.history = e :: w.history)
    (heffects : e.effects = w.txn t) (hdb : w'.db = w.view t)
    (htxn : ∀ t', t' ≠ t → w'.txn t' = w.txn t') (hidle : w'.txn t = [])
    (hsound : Sound i (row.after i (w.txn t)) t w' c') :
  Inv i (row.after i (w.txn t)) (cs.set t c') w'
  := by
  have hraised : Raised i w → Raised i w' := raised_of_history hhistory
  have hterminated : Terminated i w ∨ (w.txn t).any (Effect.terminates i) = true
      ↔ Terminated i w' := by
    rw [terminated_of_history hhistory, Entry.terminates, heffects]
  have hjustified := hinv.justified t
  apply hinv.set hjustified.marksLE _ ((hinv.coherent.after hjustified).mono hterminated hraised)
    hraised htxn _ hsound
  · rw [hdb]
    apply Database.execution?_view_after hinv.found _
  · rw [hidle]
    trivial

/-- A statement without effects tells a thread what it has read. -/
theorem Inv.reads (hinv : Inv i row cs w) (hc : cs[t]? = some c) {j : UUID}
    {tenantId : Option UUID} {r : Option TaskExecution}
    (hr : r = (w.view t).answer (.selectExecution j tenantId)) :
  ∃ c', (protocol i).moves c (.statement (.selectExecution j tenantId)) (.ok r) c' ∧
    Sound i row t w c'
  := by
  have hsound := hinv.sound t c hc
  have hview : (w.view t).execution? i = some (row.after i (w.txn t)) :=
    Database.execution?_view_after hinv.found _
  cases r with
  | none =>
      refine ⟨c, ⟨rfl, ?_⟩, hsound⟩
      rintro ⟨rfl, rfl⟩
      cases hr.trans hview
  | some found =>
      have hfound : (w.view t).execution? j = some found := by
        cases tenantId with
        | none => apply hr.symm
        | some tenantId => apply (Option.filter_eq_some_iff.mp hr.symm).1
      have hid : found.id = j := Database.id_of_execution? hfound
      by_cases hj : j = i
      · have hafter : found = row.after i (w.txn t) := by
          rw [hj, hview] at hfound
          apply (Option.some_injective _ hfound).symm
        have hcoherent := hinv.coherent.after (hinv.justified t)
        rw [← hafter] at hcoherent
        refine ⟨c.read found, ⟨hid, (if_pos hj).symm, fun _ => hcoherent.terminal⟩, ?_⟩
        refine ⟨hsound.started, ?_, ?_, hsound.raised⟩
        · simp only [State.read, Bool.or_eq_true, ← hafter]
          rintro (hreads | hfound)
          · rw [hafter]
            apply hsound.readsStarted hreads
          · apply hfound
        · simp only [State.read, Bool.or_eq_true, ← hafter]
          rintro (hreads | hfound)
          · rw [hafter]
            apply hsound.readsCompleted hreads
          · apply hfound
      · exact ⟨c, ⟨hid, (if_neg hj).symm, fun h => absurd h hj⟩, hsound⟩

/-- An update that the protocol allows is permitted by the row that the transaction has left. -/
theorem Inv.permits (hinv : Inv i row cs w) (hc : cs[t]? = some c) {j : UUID}
    {changes : ExecutionChanges}
    (hallows : (protocol i).allows c (.statement (.updateExecution j changes))) :
  (row.after i (w.txn t)).PermitsEffect i (Raised i w) (.updateExecution j changes)
  := by
  have hsound := hinv.sound t c hc
  intro hj
  apply (hallows hj).mono
  · rintro (hstarted | hreads)
    · apply (hinv.justified t).marksLE.started (hsound.started hstarted)
    · apply hsound.readsStarted hreads
  · apply hsound.readsCompleted
  · apply hsound.raised

/-- What a thread knows when it has updated the row. -/
theorem Sound.update (h : Sound i row t w c) {j : UUID} {changes : ExecutionChanges}
    (hpermits : (row.after i (w.txn t)).PermitsEffect i (Raised i w) (.updateExecution j changes))
    (hraised : Raised i w → Raised i w')
    (htxn : w'.txn t = w.txn t ++ [.updateExecution j changes]) :
  Sound i row t w' (if j = i then c.update changes else c)
  := by
  have hconcat := h.concat _ hpermits hraised htxn
  split
  case isFalse => exact hconcat
  case isTrue hj =>
    have hset : row.after i (w'.txn t) = (row.after i (w.txn t)).set changes := by
      rw [htxn, TaskExecution.after_concat, Effect.onRow, if_pos hj]
    have hpermitted := hpermits hj
    refine ⟨hconcat.started, ?_, ?_, hconcat.raised⟩
    · simp only [State.update, Bool.or_eq_true]
      rintro (hreads | hnew)
      · apply hconcat.readsStarted hreads
      · rw [hset]
        apply (TaskExecution.isSome_getD hpermitted.startedAt _).mpr (.inl hnew)
    · simp only [State.update, Bool.or_eq_true]
      rintro (hreads | hnew)
      · apply hconcat.readsCompleted hreads
      · rw [hset]
        apply (TaskExecution.isSome_getD hpermitted.completedAt _).mpr (.inl hnew)

/-- What a thread knows when its transaction was committed. -/
theorem Sound.commit (h : Sound i row t w c) (hmarks : row.MarksLE (row.after i (w.txn t)))
    (hraised : Raised i w → Raised i w') (hidle : w'.txn t = []) :
  Sound i (row.after i (w.txn t)) t w' c.commit
  := by
  refine ⟨?_, ?_, ?_, hraised ∘ h.raised⟩
  · simp only [State.commit, Bool.or_eq_true]
    rintro (hstarted | hreads)
    · apply hmarks.started (h.started hstarted)
    · apply h.readsStarted hreads
  · rw [hidle]
    apply h.readsStarted
  · rw [hidle]
    apply h.readsCompleted

/-- What a thread knows when a body was run. -/
theorem Sound.ran (h : Sound i row t w c) {message : TaskiqMessage} {r : Option PyException}
    (hhistory : w'.history = { thread := t, op := .body message, answer := r } :: w.history)
    (htxn : w'.txn t = w.txn t) :
  Sound i row t w'
    (if message.extractTaskExecutionId = some i ∧ r.isSome then { c with raised := true } else c)
  := by
  have hmono := h.mono (.refl row) (raised_of_history hhistory) htxn
  split
  case isFalse => exact hmono
  case isTrue hraises =>
    refine ⟨hmono.started, hmono.readsStarted, hmono.readsCompleted, ?_⟩
    intro _
    refine ⟨_, by rw [hhistory]; exact List.mem_cons_self .., ?_⟩
    simpa [Entry.raises, Op.raises] using hraises

/-- An operation that the protocol allows moves what its thread knows as the protocol says. -/
theorem Inv.performs (hinv : Inv i row cs w) (hc : cs[t]? = some c) {faults : Cluster.Faults}
    {o : Op} {r : o.Answer} (hallows : (protocol i).allows c o)
    (hstep : w.Performs faults t o r w') :
  ∃ c' row', (protocol i).moves c o r c' ∧ Inv i row' (cs.set t c') w'
  := by
  have hsound := hinv.sound t c hc
  have hjustified := hinv.justified t
  have hothers : ∀ t', t' ≠ t → w'.txn t' = w.txn t' := fun t' hne => hstep.txn_of_ne hne
  -- An operation whose transaction is taken back.
  have hclose {e : Entry} (hhistory : w'.history = e :: w.history) (heffects : e.effects = [])
      (hdb : w'.db = w.db) (hidle : w'.txn t = []) : Inv i row (cs.set t c.close) w' := by
    apply hinv.keep hhistory heffects hdb hothers
    · rw [hidle]
      trivial
    · apply hsound.close (.refl row) (raised_of_history hhistory)
  -- An operation that leaves the transaction alone.
  have hsame {e : Entry} (hhistory : w'.history = e :: w.history) (heffects : e.effects = [])
      (hdb : w'.db = w.db) (htxn : w'.txn t = w.txn t) : Inv i row (cs.set t c) w' := by
    apply hinv.keep hhistory heffects hdb hothers
    · rw [htxn]
      apply hjustified
    · apply hsound.mono (.refl row) (raised_of_history hhistory) htxn
  cases hstep with
  | opens => exact ⟨_, row, rfl, hclose rfl rfl rfl (by simp)⟩
  | closes => exact ⟨_, row, rfl, hclose rfl rfl rfl (by simp)⟩
  | @fails w s failures => exact ⟨_, row, by cases s <;> rfl, hclose rfl rfl rfl (by simp)⟩
  | lost => exact ⟨_, row, rfl, hclose rfl rfl rfl (by simp)⟩
  | commits =>
      refine ⟨_, _, rfl, hinv.commit rfl rfl rfl hothers (by simp) ?_⟩
      apply hsound.commit hjustified.marksLE (raised_of_history rfl) (by simp)
  | applied =>
      refine ⟨_, _, rfl, hinv.commit rfl rfl rfl hothers (by simp) ?_⟩
      apply hsound.close hjustified.marksLE (raised_of_history rfl)
  | now time => exact ⟨_, row, rfl, hsame rfl rfl rfl rfl⟩
  | accepts => exact ⟨_, row, rfl, hsame rfl rfl rfl rfl⟩
  | rejects => exact ⟨_, row, rfl, hsame rfl rfl rfl rfl⟩
  | emits r => exact ⟨_, row, rfl, hsame rfl rfl rfl rfl⟩
  | runs =>
      refine ⟨_, row, rfl, hinv.keep rfl rfl rfl hothers hjustified ?_⟩
      exact hsound.ran rfl rfl
  | @answers w s r free answers =>
      -- A statement goes on with its effect.
      have hconcat {e : Effect} {c' : State} (heffects : s.effects = [e])
          (hpermits : (row.after i (w.txn t)).PermitsEffect i (Raised i w) e)
          (hsound' : Sound i row t ((w.push t s).record t (.statement s) (.ok r) []) c') :
          Inv i row (cs.set t c') ((w.push t s).record t (.statement s) (.ok r) []) := by
        refine hinv.keep rfl rfl rfl hothers ?_ hsound'
        simp only [Cluster.txn_record, Cluster.txn_push, Function.update_self, heffects]
        apply hjustified.concat hpermits
      cases s with
      | selectAttempt filter => exact ⟨_, row, rfl, hsame rfl rfl rfl (by simp [Statement.effects])⟩
      | insertAttempt attempt =>
          refine ⟨_, row, rfl, hconcat rfl trivial ?_⟩
          apply hsound.concat (.insertAttempt attempt) trivial (raised_of_history rfl)
            (by simp [Statement.effects])
      | updateAttempt id d =>
          refine ⟨_, row, rfl, hconcat rfl trivial ?_⟩
          apply hsound.concat (.updateAttempt id d) trivial (raised_of_history rfl)
            (by simp [Statement.effects])
      | updateExecution j changes =>
          have hpermits := hinv.permits hc hallows
          refine ⟨_, row, rfl, hconcat rfl hpermits ?_⟩
          apply hsound.update hpermits (raised_of_history rfl) (by simp [Statement.effects])
      | selectExecution j tenantId =>
          obtain ⟨c', hmoves, hsound'⟩ := hinv.reads hc answers
          refine ⟨c', row, hmoves, hinv.keep rfl rfl rfl hothers ?_ ?_⟩
          · simpa [Statement.effects] using hjustified
          · apply hsound'.mono (.refl row) (raised_of_history rfl) (by simp [Statement.effects])

/-- A crash takes back the open transaction of a thread. -/
theorem Inv.crash (hinv : Inv i row cs w) (hc : cs[t]? = some c) :
  Inv i row (cs.set t c.close) (w.release t)
  := by
  have hothers : ∀ t', t' ≠ t → (w.release t).txn t' = w.txn t' := by
    intro t' hne
    simp [hne]
  refine hinv.set (.refl row) hinv.found hinv.coherent (fun h => h) hothers ?_ ?_
  · simp only [Cluster.txn_release, Function.update_self]
    trivial
  · exact (hinv.sound t c hc).close (.refl row) (fun h => h)

/-- A new thread knows nothing. -/
theorem Inv.spawn (hinv : Inv i row cs w) :
  Inv i row (cs ++ [({} : State)]) w
  where
  found := hinv.found
  coherent := hinv.coherent
  justified := hinv.justified
  sound := by
    intro t c hc
    rcases Machine.state_of_concat hc with hc | ⟨-, rfl⟩
    · apply hinv.sound t c hc
    · constructor <;> rintro ⟨⟩

/-- Workers that deliver messages refine the protocol of the marks. -/
def refinement (i : UUID) (faults : Cluster.Faults) :
    (workers faults Delivers).Refinement (protocol i) where
  final _ := True
  inv cs w := ∃ row, Inv i row cs w
  exec := by
    rintro cs w w' t c o r ⟨row, hinv⟩ hc hallows hstep
    obtain ⟨c', row', hmoves, hinv'⟩ := hinv.performs hc hallows hstep
    exact ⟨c', hmoves, row', hinv'⟩
  spawn := by
    rintro cs w w' p ⟨row, hinv⟩ hspawn
    cases hspawn with
    | deliver settings message result =>
        refine ⟨{}, ?_, row, hinv.spawn⟩
        apply Hook.follows_thread
        apply Hook.obeys_deliver_coherence
  crash := by
    rintro cs w w' t c ⟨row, hinv⟩ hc ⟨-, rfl⟩
    exact ⟨_, trivial, row, hinv.crash hc⟩

end Coherence

/-- However often messages are delivered, and whatever overlaps or fails, the row of an execution
stays coherent. -/
theorem coherent_of_delivers {i : UUID} {createdAt : Time} {taskName : Text} {tenantId : UUID}
    {maxRetries : ℕ} {configSnapshot : Option Dict} {parentTaskId : Option UUID}
    {totalSteps : Option ℕ} {db : Database} {outcomes : ℕ → Option PyException}
    {c : Machine.Config Op.Answer Cluster}
    (hcreated : db.execution? i = some (createTaskExecution i createdAt taskName tenantId maxRetries
      configSnapshot parentTaskId totalSteps))
    (hc : (workers .any Delivers).Reachable { db, outcomes } c) :
  ∃ row, c.world.db.execution? i = some row ∧
    row.Coherent (∃ e ∈ c.world.history, e.terminates i = true)
      (∃ e ∈ c.world.history, e.raises i = true)
  := by
  have hinit : Coherence.Inv i (createTaskExecution i createdAt taskName tenantId maxRetries
      configSnapshot parentTaskId totalSteps) [] { db, outcomes } := by
    refine ⟨hcreated, ⟨?_, ?_, ?_, ?_⟩, fun _ => trivial, by rintro t c ⟨⟩⟩
    · exact fun hbegun => absurd hbegun (by decide : ¬ TaskStatus.pending.IsBegun)
    · exact fun hterminal => absurd hterminal (by decide : ¬ TaskStatus.pending.IsTerminal)
    · simp [Coherence.Terminated, createTaskExecution]
    · rintro ⟨⟩
  obtain ⟨cs, haccounts⟩ := (Coherence.refinement i .any).reachable ⟨_, hinit⟩ hc
  obtain ⟨row, hinv⟩ := haccounts.inv
  exact ⟨row, hinv.found, hinv.coherent⟩

namespace Example

/-- The row of an execution that was created. -/
def createdRow : TaskExecution := createTaskExecution taskExecutionId 0 "job".toList tenantId 3

/-- The cluster of an execution that was created. -/
def created (outcomes : ℕ → Option PyException) : Cluster where
  db := { executions := [createdRow], attempts := [] }
  outcomes := outcomes

/-- The first body raises. -/
def raisesOnce (n : ℕ) : Option PyException := if n = 0 then some exception else none

theorem permitted_delivers (faults : Cluster.Faults) (t t' n n' : ℕ) :
  ∀ turn ∈ [Turn.spawn delivery, .run t n {}, .spawn delivery, .run t' n' {}],
    turn.Permitted faults Delivers
  := by
  have hspawn : (Turn.spawn delivery).Permitted faults Delivers :=
    fun _ => .deliver settings message _
  have hrun (t n : ℕ) : (Turn.run t n {}).Permitted faults Delivers := ⟨by simp, by simp⟩
  simp only [List.forall_mem_cons, List.not_mem_nil]
  exact ⟨hspawn, hrun _ _, hspawn, hrun _ _, by simp⟩

end Example

/-- An execution that fails and is then completed is coherent. -/
theorem coherent_of_delivers_retried :
  ∃ c row, (workers .any Delivers).Reachable (Example.created Example.raisesOnce) c ∧
    c.world.db.execution? Example.taskExecutionId = some row ∧ row.status = .completed ∧
    row.Coherent (∃ e ∈ c.world.history, e.terminates Example.taskExecutionId = true)
      (∃ e ∈ c.world.history, e.raises Example.taskExecutionId = true)
  := by
  obtain ⟨c, hc, hp⟩ := Turn.exists_reachable
    (Example.permitted_delivers .any 0 1 100 100) (w := Example.created Example.raisesOnce)
    (p := fun c => (c.world.db.execution? Example.taskExecutionId).map (·.status)
      = some .completed) (by rfl)
  have hcreated : (Example.created Example.raisesOnce).db.execution? Example.taskExecutionId
      = some Example.createdRow := rfl
  obtain ⟨row, hrow, hcoherent⟩ := coherent_of_delivers hcreated hc
  rw [hrow] at hp
  exact ⟨c, row, hc, hrow, by simpa using hp, hcoherent⟩

/-- A message that is delivered again leaves a running execution with the time at which it was
completed before, and one that is delivered after a failure completes an execution with the
error of the failure. -/
theorem exists_reachable_incoherent :
  (∃ c row, (workers Example.calm Delivers).Reachable (Example.created fun _ => none) c ∧
    c.world.db.execution? Example.taskExecutionId = some row ∧
    row.status = .running ∧ row.completedAt.isSome) ∧
  ∃ c row, (workers Example.calm Delivers).Reachable (Example.created Example.raisesOnce) c ∧
    c.world.db.execution? Example.taskExecutionId = some row ∧
    row.status = .completed ∧ row.errorDetail.isSome
  := by
  constructor
  · obtain ⟨c, hc, hp⟩ := Turn.exists_reachable
      (Example.permitted_delivers Example.calm 0 1 100 6) (w := Example.created fun _ => none)
      (p := fun c => (c.world.db.execution? Example.taskExecutionId).any
        (fun row => row.status = .running ∧ row.completedAt.isSome)) (by rfl)
    obtain ⟨row, hrow, hfacts⟩ := (Option.any_eq_true _ _).mp hp
    exact ⟨c, row, hc, hrow, of_decide_eq_true hfacts⟩
  · obtain ⟨c, hc, hp⟩ := Turn.exists_reachable
      (Example.permitted_delivers Example.calm 0 1 100 100)
      (w := Example.created Example.raisesOnce)
      (p := fun c => (c.world.db.execution? Example.taskExecutionId).any
        (fun row => row.status = .completed ∧ row.errorDetail.isSome)) (by rfl)
    obtain ⟨row, hrow, hfacts⟩ := (Option.any_eq_true _ _).mp hp
    exact ⟨c, row, hc, hrow, of_decide_eq_true hfacts⟩

end WorkerTemplate
