import WorkerTemplate.Concurrent.Marks
import WorkerTemplate.Concurrent.Schedule
import WorkerTemplate.Concurrent.Sustains

/-!
# What a thread knows of the marks of a row

A row is started before it is running, retrying or completed, and a terminal status sets a time of
completion.  The protocol says which of these marks a thread knows, and which updates it may send.
-/

namespace WorkerTemplate

/-- Messages may be delivered at any time, again, and to any worker. -/
inductive Delivers (w : Cluster) : Program Op.Answer PUnit → Cluster → Prop where
  | deliver (settings : Settings) (message : TaskiqMessage) (result : TaskiqResult) :
      Delivers w ((Hook.deliver settings message).thread { result }) w

/-- A body of the execution `i` has raised. -/
def Op.raises (i : UUID) : (o : Op) → o.Answer → Bool
  | .body message, r => message.extractTaskExecutionId = some i && Option.isSome r
  | _, _ => false

/-- Whether an operation was a body of the execution that has raised. -/
def Entry.raises (i : UUID) (e : Entry) : Bool := e.op.raises i e.answer

/-- Whether an operation committed a terminal status of the execution. -/
def Entry.terminates (i : UUID) (e : Entry) : Bool := e.effects.any (Effect.terminates i)

namespace Coherence

/-- What a thread knows of the row of an execution. -/
structure State where
  /-- The committed row is started. -/
  started : Bool := false
  /-- The transaction reads a started row. -/
  readsStarted : Bool := false
  /-- The transaction reads a completed row. -/
  readsCompleted : Bool := false
  /-- A body of the execution has raised. -/
  raised : Bool := false

namespace State

variable (c : State)

/-- What a thread knows when its transaction is taken back. -/
def close : State := { c with readsStarted := false, readsCompleted := false }

/-- What a thread knows when its transaction is committed. -/
def commit : State := { c with started := c.started || c.readsStarted }

/-- What a thread knows when it has read the row. -/
def read (row : TaskExecution) : State :=
  { c with
    readsStarted := c.readsStarted || row.startedAt.isSome
    readsCompleted := c.readsCompleted || row.completedAt.isSome }

/-- What a thread knows when it has updated the row. -/
def update (changes : ExecutionChanges) : State :=
  { c with
    readsStarted := c.readsStarted || changes.startedAt.isSome
    readsCompleted := c.readsCompleted || changes.completedAt.isSome }

/-- The row that the transaction reads is started. -/
def Started : Prop := c.started = true ∨ c.readsStarted = true

/-- A thread knows the marks of an instance. -/
structure Knows (task : TaskExecution) : Prop where
  started : task.startedAt.isSome → c.Started
  completed : task.completedAt.isSome ∨ task.status.IsTerminal → c.readsCompleted = true

/-- What does not depend on a session is not forgotten. -/
structure Lasts (c c' : State) : Prop where
  started : c.started = true → c'.started = true
  raised : c.raised = true → c'.raised = true

/-- A session that goes on forgets nothing. -/
structure Gains (c c' : State) : Prop extends Lasts c c' where
  reads : c.Started → c'.Started
  completed : c.readsCompleted = true → c'.readsCompleted = true

end State

/-- The protocol of the marks of the execution `i`. -/
def protocol (i : UUID) : Protocol Op.Answer State where
  allows c o :=
    match o with
    | .statement (.updateExecution j changes) =>
        j = i → changes.Permitted c.Started (c.readsCompleted = true) (c.raised = true)
    | _ => True
  moves c o r c' :=
    match o, r with
    | .openSession, _ => c' = c.close
    | .closeSession, _ => c' = c.close
    | .commit, .ok _ => c' = c.commit
    | .commit, .error _ => c' = c.close
    | .statement _, .error _ => c' = c.close
    | .statement (.selectExecution j tenantId), .ok answer =>
        match (answer : Option TaskExecution) with
        | none => c' = c ∧ ¬ (j = i ∧ tenantId = none)
        | some row =>
            row.id = j ∧ c' = (if j = i then c.read row else c) ∧
              (j = i → row.status.IsTerminal → row.completedAt.isSome)
    | .statement (.updateExecution j changes), .ok _ =>
        c' = if j = i then c.update changes else c
    | .body message, r =>
        c' = if message.extractTaskExecutionId = some i ∧ r.isSome then { c with raised := true }
          else c
    | _, _ => c' = c

namespace State

variable {i : UUID} {c c' c'' : State}

theorem Lasts.refl (c : State) : c.Lasts c := ⟨fun h => h, fun h => h⟩

theorem Lasts.trans (h : c.Lasts c') (h' : c'.Lasts c'') : c.Lasts c'' :=
  ⟨h'.started ∘ h.started, h'.raised ∘ h.raised⟩

theorem Gains.refl (c : State) : c.Gains c := ⟨.refl c, fun h => h, fun h => h⟩

theorem Gains.trans (h : c.Gains c') (h' : c'.Gains c'') : c.Gains c'' :=
  ⟨h.toLasts.trans h'.toLasts, h'.reads ∘ h.reads, h'.completed ∘ h.completed⟩

theorem lasts_close (c : State) : c.Lasts c.close := ⟨fun h => h, fun h => h⟩

theorem gains_commit (c : State) : c.Gains c.commit := by
  refine ⟨⟨?_, fun h => h⟩, ?_, fun h => h⟩
  · intro h
    simp [commit, h]
  · rintro (h | h)
    · exact .inl (by simp [commit, h])
    · exact .inr h

theorem gains_read (c : State) (row : TaskExecution) : c.Gains (c.read row) := by
  refine ⟨⟨fun h => h, fun h => h⟩, ?_, ?_⟩
  · rintro (h | h)
    · exact .inl h
    · exact .inr (by simp [read, h])
  · intro h
    simp [read, h]

theorem gains_update (c : State) (changes : ExecutionChanges) : c.Gains (c.update changes) := by
  refine ⟨⟨fun h => h, fun h => h⟩, ?_, ?_⟩
  · rintro (h | h)
    · exact .inl h
    · exact .inr (by simp [update, h])
  · intro h
    simp [update, h]

/-- A thread that has read a coherent row knows its marks. -/
theorem knows_read (c : State) {row : TaskExecution}
    (hrow : row.status.IsTerminal → row.completedAt.isSome) :
  (c.read row).Knows row
  := by
  constructor
  · intro h
    exact .inr (by simp [read, h])
  · intro h
    have hcompleted : row.completedAt.isSome = true := h.elim (fun h => h) hrow
    simp [read, hcompleted]

theorem Knows.mono {task : TaskExecution} (h : c.Knows task) (hgains : c.Gains c') :
  c'.Knows task
  := ⟨hgains.reads ∘ h.started, hgains.completed ∘ h.completed⟩

/-- No operation takes back what does not depend on a session. -/
theorem lasts_of_moves {o : Op} {r : o.Answer} (h : (protocol i).moves c o r c') : c.Lasts c' := by
  cases o with
  | openSession =>
      obtain rfl : c' = c.close := h
      apply c.lasts_close
  | closeSession =>
      obtain rfl : c' = c.close := h
      apply c.lasts_close
  | now =>
      obtain rfl : c' = c := h
      exact .refl _
  | kiq message =>
      obtain rfl : c' = c := h
      exact .refl _
  | emit room event =>
      obtain rfl : c' = c := h
      exact .refl _
  | commit =>
      cases r with
      | ok _ =>
          obtain rfl : c' = c.commit := h
          apply c.gains_commit.toLasts
      | error e =>
          obtain rfl : c' = c.close := h
          apply c.lasts_close
  | body message =>
      simp only [protocol] at h
      rw [h]
      split
      · exact ⟨fun h => h, fun _ => rfl⟩
      · exact .refl c
  | statement st =>
      cases r with
      | error e =>
          obtain rfl : c' = c.close := by cases st <;> exact h
          apply c.lasts_close
      | ok a =>
          cases st with
          | selectExecution j tenantId =>
              cases a with
              | none =>
                  obtain ⟨rfl, -⟩ := h
                  exact .refl _
              | some row =>
                  obtain ⟨-, rfl, -⟩ := h
                  split
                  · apply (c.gains_read row).toLasts
                  · exact .refl c
          | updateExecution j changes =>
              simp only [protocol] at h
              rw [h]
              split
              · apply (c.gains_update changes).toLasts
              · exact .refl c
          | selectAttempt filter =>
              obtain rfl : c' = c := h
              exact .refl _
          | insertAttempt row =>
              obtain rfl : c' = c := h
              exact .refl _
          | updateAttempt id d =>
              obtain rfl : c' = c := h
              exact .refl _

end State

/-- The instances of a session are kept under their primary keys, and the thread knows their
marks. -/
def Instances (i : UUID) (s : Invocation) (c : State) : Prop :=
  ∀ j task, s.identityMap j = some task → task.id = j ∧ (j = i → c.Knows task)

variable {i : UUID} {s : Invocation} {c c' : State}

theorem Instances.keep (hs : Instances i s c) {row : TaskExecution}
    (hrow : row.id = i → c.Knows row) :
  Instances i (s.keep row) c
  := by
  intro j task htask
  simp only [Invocation.keep, Function.update_apply] at htask
  split at htask
  case isTrue hj =>
    obtain ⟨rfl⟩ := htask
    exact ⟨hj.symm, fun hi => hrow (hj ▸ hi)⟩
  case isFalse => exact hs j task htask

theorem Instances.mono (hs : Instances i s c) (hgains : c.Gains c') :
  Instances i s c'
  := by
  intro j task htask
  obtain ⟨hid, hknows⟩ := hs j task htask
  exact ⟨hid, fun hj => (hknows hj).mono hgains⟩

theorem instances_nil (i : UUID) (s : Invocation) (c : State) :
  Instances i { s with identityMap := fun _ => none } c
  := by
  rintro j task ⟨⟩

/-! ### Columns -/

theorem mem_changed {α : Type} [DecidableEq α] {old new a : α} :
  a ∈ changed old new ↔ a = new ∧ new ≠ old
  := by
  unfold changed
  split
  case isTrue h => simp [h]
  case isFalse h => simp [h, eq_comm]

theorem isSome_changed {α : Type} [DecidableEq α] {old new : α} :
  (changed old new).isSome ↔ new ≠ old
  := by
  unfold changed
  split
  case isTrue h => simp [h]
  case isFalse h => simp [h]

/-- A column is not unset when it keeps its value or has a new one. -/
theorem changed_ne_some_none {α : Type} [DecidableEq α] {old new : Option α}
    (h : new = none → old = none) :
  changed old new ≠ some none
  := by
  intro hchanged
  obtain ⟨hnone, hne⟩ := mem_changed.mp hchanged
  apply hne (hnone.symm.trans (h hnone.symm).symm)

/-- What assigning a status needs: the execution was started, when the status is one that it has
only then, and a body has raised, when there is an error. -/
structure Needs (status : TaskStatus) (fields : StatusUpdate) (c : State) : Prop where
  begun : status.IsBegun → status ≠ .running → c.Started
  error : fields.errorDetail.isSome → c.raised = true

/-- Assigning a status to an instance whose marks are known is permitted. -/
theorem permitted_changes_assign {task : TaskExecution} (hknows : c.Knows task)
    {status : TaskStatus} {fields : StatusUpdate} (hneeds : Needs status fields c) (now : Time) :
  (task.changes (task.assign status fields now)).Permitted c.Started (c.readsCompleted = true)
    (c.raised = true)
  := by
  have hstarted : (task.assign status fields now).startedAt = none → task.startedAt = none := by
    simp only [TaskExecution.assign]
    split
    · rintro ⟨⟩
    · exact fun h => h
  have hcompleted : (task.assign status fields now).completedAt = none →
      task.completedAt = none := by
    simp only [TaskExecution.assign]
    split
    · rintro ⟨⟩
    · exact fun h => h
  have hterminal : status.IsTerminal →
      (changed task.completedAt (task.assign status fields now).completedAt).isSome ∨
        c.readsCompleted = true := by
    intro hterminal
    by_cases hsame : task.completedAt = some now
    · exact .inr (hknows.completed (.inl (by rw [hsame]; rfl)))
    · left
      rw [isSome_changed, TaskExecution.assign, if_pos hterminal]
      apply Ne.symm hsame
  constructor
  case startedAt => exact changed_ne_some_none hstarted
  case completedAt => exact changed_ne_some_none hcompleted
  case begun =>
    intro s hs hbegun
    have hassigned : s = status := (mem_changed.mp hs).1
    rw [hassigned] at hbegun
    by_cases hrunning : status = .running
    · cases htask : task.startedAt with
      | none =>
          left
          simp [TaskExecution.changes, isSome_changed, TaskExecution.assign, hrunning, htask]
      | some t => exact .inr (hknows.started (by rw [htask]; rfl))
    · exact .inr (hneeds.begun hbegun hrunning)
  case terminal =>
    intro s hs hs'
    have hassigned : s = status := (mem_changed.mp hs).1
    apply hterminal (hassigned ▸ hs')
  case ended =>
    intro hended
    have hstatus : status.IsTerminal := by
      by_contra hnot
      rw [TaskExecution.changes, isSome_changed, TaskExecution.assign, if_neg hnot] at hended
      apply hended rfl
    by_cases hsame : status = task.status
    · exact .inr (hknows.completed (.inr (hsame ▸ hstatus)))
    · exact .inl ⟨status, mem_changed.mpr ⟨rfl, hsame⟩, hstatus⟩
  case error =>
    intro herror
    apply hneeds.error
    by_contra hnone
    rw [TaskExecution.changes, isSome_changed, TaskExecution.assign] at herror
    apply herror
    simp only [Option.not_isSome_iff_eq_none] at hnone
    rw [hnone, Option.none_or]

/-- Assigning the running status to an instance starts it. -/
theorem started_update_assign {task : TaskExecution} (hknows : c.Knows task)
    (fields : StatusUpdate) (now : Time) :
  (c.update (task.changes (task.assign .running fields now))).Started
  := by
  cases hstarted : task.startedAt with
  | none =>
      right
      simp [State.update, TaskExecution.changes, TaskExecution.assign, changed, hstarted]
  | some t => apply (c.gains_update _).reads (hknows.started (by rw [hstarted]; rfl))

end Coherence

end WorkerTemplate
