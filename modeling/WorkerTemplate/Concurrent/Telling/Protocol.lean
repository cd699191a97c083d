import WorkerTemplate.Concurrent.Conduct
import WorkerTemplate.Concurrent.Work
import WorkerTemplate.Concurrent.Schedule
import WorkerTemplate.Concurrent.Statuses
import WorkerTemplate.Concurrent.Sustains
import WorkerTemplate.Middleware.Decision

/-!
# What a thread may tell

A hook emits the event of a status after the session that committed it, or that read it from the
row.  The protocol says which statuses a thread knows to be committed, and the hooks before and
after the body keep to it.
-/

namespace WorkerTemplate

open Statuses

namespace Telling

variable {i j : UUID} {es es' : List Effect} {first : TaskStatus} {h : List Entry} {e : Entry}

/-! ### The protocol -/

/-- What a thread knows of the statuses of the execution. -/
structure Knowledge where
  /-- The status that its open transaction gives the execution. -/
  own : Option TaskStatus := none
  /-- Statuses that the execution has had. -/
  held : List TaskStatus := []

namespace Knowledge

/-- A new thread knows nothing. -/
def initial : Knowledge := {}

/-- The execution has had a status, or has it when the transaction is committed. -/
def Knows (c : Knowledge) (status : TaskStatus) : Prop := c.own = some status ∨ status ∈ c.held

/-- The transaction of a thread is over. -/
def close (c : Knowledge) : Knowledge := { c with own := none }

/-- The transaction of a thread is committed. -/
def settle (c : Knowledge) : Knowledge := { held := c.own.toList ++ c.held }

/-- A thread has sent some effects. -/
def write (i : UUID) (c : Knowledge) (es : List Effect) : Knowledge :=
  { c with own := (wrote i es).or c.own }

/-- A thread has read a row. -/
def read (i : UUID) (c : Knowledge) (row : TaskExecution) : Knowledge :=
  if row.id = i ∧ c.own = none then { c with held := row.status :: c.held } else c

end Knowledge

/-- The protocol of the events of an execution: an event announces a status that the execution is
known to have had. -/
def protocol (i : UUID) : Protocol Op.Answer Knowledge where
  allows c o :=
    match o with
    | .emit _ event => event.taskId = i → ∃ status ∈ c.held, status.value = event.status
    | _ => True
  moves c o r c' :=
    match o, r with
    | .openSession, _ => c' = c.close
    | .closeSession, _ => c' = c.close
    | .commit, .ok _ => c' = c.settle
    | .commit, .error _ => c' = c.close
    | .statement (.selectExecution j tenantId), .ok none => (tenantId = none → j ≠ i) ∧ c' = c
    | .statement (.selectExecution j _), .ok (some row) =>
        row.id = j ∧ c' = c.read i row ∧ (j = i → ∀ status ∈ c.own, row.status = status)
    | .statement s, .ok _ => c' = c.write i s.effects
    | .statement _, .error _ => c' = c.close
    | _, _ => c' = c

variable {c c' : Knowledge} {status : TaskStatus}

theorem Knowledge.knows_settle (h : c.Knows status) : status ∈ c.settle.held := by
  rcases h with h | h
  · simp [settle, h]
  · apply List.mem_append_right _ h

theorem Knowledge.held_read (row : TaskExecution) (h : status ∈ c.held) :
  status ∈ (c.read i row).held
  := by
  unfold read
  split
  · apply List.mem_cons_of_mem _ h
  · apply h

theorem Knowledge.own_read (row : TaskExecution) : (c.read i row).own = c.own := by
  unfold read
  split
  · rfl
  · rfl

theorem Knowledge.Knows.read (row : TaskExecution) (h : c.Knows status) :
  (c.read i row).Knows status
  := h.imp (fun h => (c.own_read row).trans h) (c.held_read row)

/-- The status of a row that was read is known. -/
theorem Knowledge.knows_read {row : TaskExecution} (hid : row.id = i)
    (hown : ∀ status ∈ c.own, row.status = status) :
  (c.read i row).Knows row.status
  := by
  cases hc : c.own with
  | none =>
      right
      rw [Knowledge.read, if_pos ⟨hid, hc⟩]
      apply List.mem_cons_self
  | some status =>
      left
      rw [c.own_read, hc, hown status hc]

end Telling

namespace Hook

open Telling

variable {α β : Type} {i j : UUID} {s : Invocation} {c : Knowledge}

/-- The instances of a session are kept under their keys, and that of the execution has a status
that is known. -/
structure Announced (i : UUID) (s : Invocation) (c : Knowledge) : Prop where
  keyed : ∀ k task, s.identityMap k = some task → task.id = k
  known : ∀ task, s.identityMap i = some task → c.Knows task.status

theorem Announced.mono {c' : Knowledge} (h : Announced i s c)
    (hc : ∀ status, c.Knows status → c'.Knows status) :
  Announced i s c'
  where
  keyed := h.keyed
  known task htask := hc _ (h.known task htask)

/-- A session keeps an instance whose status is known. -/
theorem Announced.keep {c' : Knowledge} {row : TaskExecution} (h : Announced i s c)
    (hrow : row.id = i → c'.Knows row.status)
    (hc : row.id ≠ i → ∀ status, c.Knows status → c'.Knows status) :
  Announced i (s.keep row) c'
  where
  keyed k task htask := by
    by_cases hk : k = row.id
    · subst hk
      rw [Invocation.identityMap_keep] at htask
      cases htask
      rfl
    · rw [Invocation.keep] at htask
      simp only [Function.update_of_ne hk] at htask
      apply h.keyed k task htask
  known task htask := by
    by_cases hi : row.id = i
    · rw [s.identityMap_keep_of_id row hi] at htask
      cases htask
      apply hrow hi
    · rw [Invocation.keep] at htask
      simp only [Function.update_of_ne (Ne.symm hi)] at htask
      apply hc hi _ (h.known task htask)

/-- A hook that returns leaves `Q`. -/
def Brings (i : UUID) (h : Hook α) (Q : α → Invocation → Knowledge → Prop) (s : Invocation)
    (c : Knowledge) : Prop :=
  Obeys (Telling.protocol i) h (fun r s' c' => ∀ a, r = .ok a → Q a s' c') s c

theorem Brings.mono {h : Hook α} {Q Q' : α → Invocation → Knowledge → Prop}
    (hh : Brings i h Q s c) (hQ : ∀ a s' c', Q a s' c' → Q' a s' c') :
  Brings i h Q' s c
  := Obeys.mono hh (fun _ _ _ hr a ha => hQ _ _ _ (hr a ha))

theorem Brings.bind {h : Hook α} {f : α → Hook β} {Q : α → Invocation → Knowledge → Prop}
    {Q' : β → Invocation → Knowledge → Prop} (hh : Brings i h Q s c)
    (hf : ∀ a s' c', Q a s' c' → Brings i (f a) Q' s' c') :
  Brings i (h >>= f) Q' s c
  := by
  rw [Brings, obeys_bind]
  apply Obeys.mono hh
  rintro (e | a) s' c' hr
  · rintro b ⟨⟩
  · apply hf a s' c' (hr a rfl)

/-! ### The services -/

/-- Loading an execution reads its status. -/
theorem brings_getTaskExecution (hs : Announced i s c) (j : UUID) :
  Brings i (getTaskExecution j none)
    (fun task s' c' => Announced i s' c' ∧ (∀ status ∈ c.held, status ∈ c'.held) ∧
      (task = none → j ≠ i) ∧ ∀ row, task = some row → s'.identityMap j = some row) s c
  := by
  apply obeys_getTaskExecution trivial
  · rintro e _ rfl a ⟨⟩
  · rintro _ ⟨hj, rfl⟩ a ⟨⟩
    exact ⟨hs, fun _ h => h, fun _ => hj rfl, by rintro row ⟨⟩⟩
  · rintro row _ ⟨rfl, rfl, hown⟩
    constructor
    · rintro task htask a ⟨⟩
      refine ⟨hs.mono (fun _ h => h.read row), fun _ h => c.held_read row h, by rintro ⟨⟩, ?_⟩
      rintro _ ⟨⟩
      apply htask
    · rintro _ a ⟨⟩
      refine ⟨hs.keep (fun hi => c.knows_read hi (hown hi)) (fun _ _ h => h.read row),
        fun _ h => c.held_read row h, by rintro ⟨⟩, ?_⟩
      rintro _ ⟨⟩
      apply Invocation.identityMap_keep

/-- A thread that sends a status knows it, whether or not the instance had it before. -/
theorem knows_write_assign {task : TaskExecution} (hid : task.id = i) (hknows : c.Knows task.status)
    (status : TaskStatus) (fields : StatusUpdate) (now : Time) :
  (c.write i [.updateExecution task.id (task.changes (task.assign status fields now))]).Knows status
  := by
  have hwrote : wrote i [.updateExecution task.id (task.changes (task.assign status fields now))] =
      if status = task.status then none else some status := by
    rw [wrote_cons, wrote_nil, Option.none_or, sets, if_pos hid]
    rfl
  rw [Knowledge.write, hwrote]
  by_cases hstatus : status = task.status
  · rw [if_pos hstatus, hstatus]
    apply hknows
  · left
    rw [if_neg hstatus]
    rfl

/-- A thread that changes another execution knows what it knew. -/
theorem write_of_ne (hj : j ≠ i) (changes : ExecutionChanges) :
  c.write i [.updateExecution j changes] = c
  := by
  rw [Knowledge.write, wrote_cons, wrote_nil, Option.none_or, sets, if_neg hj]
  rfl

/-- A status that was set is known. -/
theorem brings_updateTaskStatus (hs : Announced i s c) (j : UUID) (status : TaskStatus)
    (fields : StatusUpdate) :
  Brings i (updateTaskStatus j status fields)
    (fun _ s' c' => Announced i s' c' ∧ (∀ st ∈ c.held, st ∈ c'.held) ∧ (j = i → c'.Knows status))
    s c
  := by
  apply obeys_updateTaskStatus (brings_getTaskExecution hs j)
  · rintro e s' c' - a ⟨⟩
  · rintro s' c' hloaded a ⟨⟩
    obtain ⟨hs', hheld, hj, -⟩ := hloaded none rfl
    exact ⟨hs', hheld, fun hi => absurd hi (hj rfl)⟩
  · rintro task s' c' hloaded
    obtain ⟨hs', hheld, -, htask⟩ := hloaded (some task) rfl
    obtain rfl := hs'.keyed j task (htask task rfl)
    use trivial
    rintro now _ rfl
    refine ⟨trivial, ?_, ?_⟩
    · rintro e _ - a ⟨⟩
    · rintro _ rfl
      apply obeys_refresh trivial
      · rintro e _ - a ⟨⟩
      · rintro _ ⟨hne, rfl⟩ a ⟨⟩
        rw [Statement.effects, write_of_ne (hne rfl)]
        exact ⟨hs', hheld, fun hi => absurd hi (hne rfl)⟩
      · rintro row _ ⟨hrow, rfl, hown⟩ a ⟨⟩
        refine ⟨?_, fun _ h => Knowledge.held_read row (hheld _ h), ?_⟩
        · apply hs'.keep (fun hi => Knowledge.knows_read hi (hown (hrow ▸ hi)))
          intro hne status hstatus
          rw [hrow] at hne
          rw [Statement.effects, write_of_ne hne]
          apply hstatus.read row
        · intro hi
          apply (knows_write_assign hi _ status fields now).read row
          apply hs'.known task (hi ▸ htask task rfl)

/-- What a session knows has happened when it has committed. -/
theorem brings_commit (s : Invocation) (c : Knowledge) :
  Brings i commit (fun _ s' c' => s' = s ∧ ∀ status, c.Knows status → status ∈ c'.held) s c
  := by
  rw [Brings, obeys_commit]
  use trivial
  rintro (e | _) _ rfl a ⟨⟩
  exact ⟨rfl, fun _ h => Knowledge.knows_settle h⟩

/-- Events about an execution may be emitted when its status has been what they announce. -/
theorem brings_emitStatusEvent (settings : Settings) {message : TaskiqMessage}
    {status : TaskStatus} (statusMessage errorDetail : Option String)
    (hstatus : message.extractTaskExecutionId = some i → status ∈ c.held) :
  Brings i (emitStatusEvent settings message status statusMessage errorDetail)
    (fun _ _ _ => True) s c
  := by
  have hevent (tenantId : UUID) {event : TaskEvent}
      (hid : message.extractTaskExecutionId = some event.taskId)
      (hvalue : status.value = event.status) :
      Brings i (emitTaskEvent settings tenantId event) (fun _ _ _ => True) s c := by
    rw [emitTaskEvent, Brings]
    split
    · rw [obeys_bind, obeys_perform]
      constructor
      · rintro rfl
        exact ⟨status, hstatus hid, hvalue⟩
      · intro r c' _ a _
        trivial
    · intro a _
      trivial
  rw [emitStatusEvent]
  split
  case h_1 taskId tenantId hid _ =>
    split
    · apply hevent
      · apply hid
      · rfl
    · apply hevent
      · apply hid
      · rfl
    · apply hevent
      · apply hid
      · rfl
  case h_2 =>
    intro a _
    trivial

/-- A session brings what its body brings. -/
theorem brings_withSession {body : Hook α} {p : α → List TaskStatus → Prop}
    (hbody : Brings i body (fun a _ c' => p a c'.held) { s with identityMap := fun _ => none }
      c.close) :
  Brings i (withSession body) (fun a _ c' => p a c'.held) s c
  := by
  apply obeys_withSession trivial
  rintro _ rfl
  apply Obeys.mono hbody
  intro r s' c' hr
  use trivial
  rintro _ rfl
  apply hr

/-- A session begins without instances. -/
theorem announced_new (s : Invocation) (c : Knowledge) :
  Announced i { s with identityMap := fun _ => none } c
  where
  keyed := by rintro k task ⟨⟩
  known := by rintro task ⟨⟩

/-- The execution has had a status that was set. -/
theorem brings_setStatus (j : UUID) (status : TaskStatus) (fields : StatusUpdate) :
  Brings i (setStatus j status fields) (fun _ _ c' => j = i → status ∈ c'.held) s c
  := by
  apply brings_withSession (p := fun _ held => j = i → status ∈ held)
  apply (brings_updateTaskStatus (announced_new s _) j status fields).bind
  rintro _ s' c' ⟨-, -, hstatus⟩
  apply (brings_commit s' c').mono
  rintro _ s'' c'' ⟨-, hsettled⟩ hj
  apply hsettled _ (hstatus hj)

/-! ### Before and after the body -/

/-- A hook that is repeated brings what each of its calls brings. -/
theorem brings_createDbRetry {call : Hook α} {Q : α → Invocation → Knowledge → Prop}
    (hcall : ∀ s c, Brings i call Q s c) (n : ℕ) :
  Brings i (createDbRetry n call) Q s c
  := obeys_createDbRetry (fun _ _ => True) (fun s c _ => hcall s c) (fun _ _ _ _ => trivial) n
    trivial

/-- A status is announced after it was set. -/
theorem brings_announce (settings : Settings) {message : TaskiqMessage} (status : TaskStatus)
    (fields : StatusUpdate) (statusMessage errorDetail : Option String)
    (hid : message.extractTaskExecutionId = some j) :
  Brings i (do
    setStatus j status fields
    emitStatusEvent settings message status statusMessage errorDetail) (fun _ _ _ => True) s c
  := by
  apply (brings_setStatus j status fields).bind
  intro _ s' c' hstatus
  apply brings_emitStatusEvent
  intro hi
  rw [hid] at hi
  apply hstatus (Option.some_injective _ hi)

theorem brings_preExecute (settings : Settings) (message : TaskiqMessage) :
  Brings i (preExecute settings message) (fun _ _ _ => True) s c
  := by
  rw [preExecute]
  apply brings_createDbRetry
  intro s c
  split
  case h_1 =>
    intro a _
    trivial
  case h_2 j hid => apply brings_announce settings .running _ _ _ hid

theorem brings_postExecute (settings : Settings) (message : TaskiqMessage) :
  Brings i (postExecute settings message) (fun _ _ _ => True) s c
  := by
  have hquiet {s : Invocation} {c : Knowledge} :
      Brings i (pure ()) (fun _ _ _ => True) s c := fun _ _ => trivial
  rw [postExecute]
  apply brings_createDbRetry
  intro s c
  split
  case h_1 => apply hquiet
  case h_2 j hid =>
    rw [Brings, obeys_bind, obeys_get, next_ok]
    simp only []
    split
    · apply hquiet
    · split
      · apply hquiet
      · split
        · apply brings_announce settings .failed _ _ _ hid
        · apply brings_announce settings .completed _ _ _ hid

end Hook

end WorkerTemplate
