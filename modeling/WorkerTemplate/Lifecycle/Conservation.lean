import Mathlib.Logic.Relation
import Mathlib.Tactic.Ring
import WorkerTemplate.Middleware.Metrics
import WorkerTemplate.Receiver

/-!
# The balance of the metrics

A worker runs any number of executions at the same time.  The receiver calls the hook
before the body, the hook after a body that raised, and then, after every body, the hook
after the body.  An execution whose body raised leaves the gauge twice and is counted and
observed twice: the metrics balance as long as no body has raised.
-/

namespace WorkerTemplate

/-- How far the receiver has got with an execution. -/
inductive Phase where
  | running
  /-- The body has raised, and the hooks for this have not been called. -/
  | raised (exception : PyException)
  /-- The last hook has not been called. -/
  | resulted (result : TaskiqResult)
  | finished (result : TaskiqResult)

/-- How far an execution has got when its body has ended. -/
def Phase.ofOutcome : Option PyException → Phase
  | none => .resulted Hook.succeeded
  | some exception => .raised exception

/-- An execution, with the message the hooks before its body have handed on. -/
structure Execution where
  message : TaskiqMessage
  phase : Phase

namespace Execution

variable (e : Execution)

/-- The execution has finished. -/
def isFinished : Bool :=
  match e.phase with
  | .finished _ => true
  | _ => false

/-- The hook after a body that raised has been called. -/
def hasErred : Bool :=
  match e.phase with
  | .running => false
  | .raised _ => false
  | .resulted result => result.isErr
  | .finished result => result.isErr

/-- The execution is one of a task. -/
def isOf (name : Text) : Bool := e.message.taskName = name

end Execution

/-- A worker process, with the executions it has started. -/
structure Worker (F : Seconds) where
  metrics : Metrics F := {}
  executions : List Execution := []

namespace Worker

variable {F : Seconds}

open MetricsMiddleware

/-- One step of a worker: a message is taken from the queue, a body ends, or a hook is
called.  When the hooks after a body that raised have been called, the result of the
execution is an error, whatever they have marked it with. -/
inductive Step (environment : String) : Worker F → Worker F → Prop where
  | start {s : Worker F} (message : TaskiqMessage) (now : F.Number) {message' : TaskiqMessage}
      {m : Metrics F}
      (hook : exec (preExecute environment now message) s.metrics = (some message', m)) :
      Step environment s
        { metrics := m, executions := s.executions ++ [{ message := message', phase := .running }] }
  | body {s : Worker F} {i : ℕ} {message : TaskiqMessage} (outcome : Option PyException)
      (execution : s.executions[i]? = some { message, phase := .running }) :
      Step environment s
        { s with
          executions := s.executions.set i { message, phase := .ofOutcome outcome } }
  | onError {s : Worker F} {i : ℕ} {message : TaskiqMessage} {exception : PyException}
      (execution : s.executions[i]? = some { message, phase := .raised exception })
      (now : F.Number) (result : TaskiqResult) (isErr : result.isErr = true) :
      Step environment s
        { metrics := (exec (MetricsMiddleware.onError environment now message) s.metrics).2
          executions := s.executions.set i { message, phase := .resulted result } }
  | postExecute {s : Worker F} {i : ℕ} {message : TaskiqMessage} {result : TaskiqResult}
      (execution : s.executions[i]? = some { message, phase := .resulted result })
      (now : F.Number) :
      Step environment s
        { metrics :=
            (exec (MetricsMiddleware.postExecute environment now message result) s.metrics).2
          executions := s.executions.set i { message, phase := .finished result } }

/-- The states of a worker between its hooks. -/
def Reachable (environment : String) : Worker F → Prop :=
  Relation.ReflTransGen (Step environment) {}

/-- The number of executions of a task with a property. -/
def count (s : Worker F) (name : Text) (p : Execution → Bool) : ℕ :=
  s.executions.countP (fun e => e.isOf name && p e)

/-- The number of executions of a task that have started and not finished. -/
def inProgress (s : Worker F) (name : Text) : ℕ := s.count name (fun e => !e.isFinished)

/-- The metrics of a task are conserved: the gauge is the number of executions in progress,
and when there is none, every execution has been counted and observed once. -/
structure Conserves (environment : String) (name : Text) (s : Worker F) : Prop where
  gauge : s.metrics.tasksInProgress name = s.inProgress name
  nonnegative : 0 ≤ s.metrics.tasksInProgress name
  totals : s.inProgress name = 0 →
    s.metrics.tasksStartedTotal (environment, name)
      = s.metrics.tasksCompletedTotal (environment, name)
        + s.metrics.tasksFailedTotal (environment, name)
  durations : s.inProgress name = 0 →
    (s.metrics.taskDurationSeconds name).length = s.count name (fun _ => true)

/-! ### The balance -/

/-- Replacing an element of a list moves a count by what the two elements count for. -/
theorem countP_set {α : Type} {l : List α} {i : ℕ} {a : α} (h : l[i]? = some a) (p : α → Bool)
    (b : α) :
  (l.set i b).countP p + (p a).toNat = l.countP p + (p b).toNat
  := by
  induction l generalizing i with
  | nil => simp at h
  | cons c l ih =>
      cases i with
      | zero =>
          simp only [List.getElem?_cons_zero, Option.some.injEq] at h
          subst h
          simp only [List.set_cons_zero, List.countP_cons, Bool.toNat]
          cases p c <;> cases p b <;> simp
      | succ i =>
          simp only [List.getElem?_cons_succ] at h
          have hrest := ih h
          simp only [List.set_cons_succ, List.countP_cons]
          omega

variable {environment : String} {name : Text} {s s' : Worker F}

/-- An execution that goes on moves a count of its task by what its phases count for, and no
count of another task. -/
theorem count_set (name : Text) (m : Metrics F) {i : ℕ} {message : TaskiqMessage} {phase : Phase}
    (h : s.executions[i]? = some { message, phase }) (phase' : Phase) (p : Execution → Bool) :
  let e : Execution := { message, phase }
  let e' : Execution := { message, phase := phase' }
  (Worker.mk m (s.executions.set i e')).count name p + (e.isOf name && p e).toNat
    = s.count name p + (e.isOf name && p e').toNat
  := countP_set h (fun e => e.isOf name && p e) { message, phase := phase' }

/-- A new execution counts for its own task. -/
theorem count_append {m : Metrics F} (e : Execution) (p : Execution → Bool) :
  (Worker.mk m (s.executions ++ [e])).count name p
    = s.count name p + (e.isOf name && p e).toNat
  := by
  simp only [count, List.countP_append, List.countP_singleton]
  cases e.isOf name && p e <;> simp

/-- The metrics of a task, with the executions whose body raised counted on both sides: they
have left the gauge and have been counted and observed once more. -/
structure Balances (environment : String) (name : Text) (s : Worker F) : Prop where
  gauge : s.metrics.tasksInProgress name + s.count name Execution.hasErred = s.inProgress name
  started : s.metrics.tasksStartedTotal (environment, name) = s.count name (fun _ => true)
  ended : s.metrics.tasksCompletedTotal (environment, name)
      + s.metrics.tasksFailedTotal (environment, name)
    = s.count name Execution.isFinished + s.count name Execution.hasErred
  observed : (s.metrics.taskDurationSeconds name).length
    = s.count name Execution.isFinished + s.count name Execution.hasErred
  timed : ∀ e ∈ s.executions, e.isFinished = false → Timed F e.message

/-- Every execution that goes on knows its start, and goes on knowing it. -/
theorem timed_set (h : ∀ e ∈ s.executions, e.isFinished = false → Timed F e.message) {i : ℕ}
    {message : TaskiqMessage} {phase : Phase} (he : s.executions[i]? = some { message, phase })
    (hphase : Execution.isFinished { message, phase } = false) (phase' : Phase) :
  Timed F message ∧ ∀ e ∈ s.executions.set i { message, phase := phase' },
    e.isFinished = false → Timed F e.message
  := by
  have hmessage : Timed F message := h _ (List.mem_of_getElem? he) hphase
  use hmessage
  intro e hmem hfinished
  rcases List.mem_or_eq_of_mem_set hmem with hold | rfl
  · apply h e hold hfinished
  · apply hmessage

/-- A step that concerns another task keeps the balance of a task. -/
theorem Balances.of_other (h : s.Balances environment name)
    (hgauge : s'.metrics.tasksInProgress name = s.metrics.tasksInProgress name)
    (hstarted : s'.metrics.tasksStartedTotal (environment, name)
      = s.metrics.tasksStartedTotal (environment, name))
    (hcompleted : s'.metrics.tasksCompletedTotal (environment, name)
      = s.metrics.tasksCompletedTotal (environment, name))
    (hfailed : s'.metrics.tasksFailedTotal (environment, name)
      = s.metrics.tasksFailedTotal (environment, name))
    (hobserved : s'.metrics.taskDurationSeconds name = s.metrics.taskDurationSeconds name)
    (hcount : ∀ p, s'.count name p = s.count name p)
    (htimed : ∀ e ∈ s'.executions, e.isFinished = false → Timed F e.message) :
  s'.Balances environment name
  where
  gauge := by
    rw [hgauge, inProgress, hcount, hcount]
    apply h.gauge
  started := by
    rw [hstarted, hcount]
    apply h.started
  ended := by
    rw [hcompleted, hfailed, hcount, hcount]
    apply h.ended
  observed := by
    rw [hobserved, hcount, hcount]
    apply h.observed
  timed := htimed

/-- An execution that is started enters the balance. -/
theorem Balances.start (h : s.Balances environment name) {message message' : TaskiqMessage}
    {now : F.Number} {m : Metrics F}
    (hook : exec (preExecute environment now message) s.metrics = (some message', m)) :
  Balances environment name
    { metrics := m, executions := s.executions ++ [{ message := message', phase := .running }] }
  := by
  obtain ⟨message₁, hrun, hname, htimed⟩ := exec_preExecute environment now message s.metrics
  obtain ⟨hmessage, rfl⟩ := Prod.ext_iff.mp (hrun.symm.trans hook)
  obtain rfl := Option.some_injective _ hmessage
  have hof : Execution.isOf { message := message₁, phase := .running } name
      = decide (message.taskName = name) := by
    rw [Execution.isOf, hname]
  have hknown : ∀ e ∈ s.executions ++ [{ message := message₁, phase := .running }],
      e.isFinished = false → Timed F e.message := by
    intro e he hfinished
    rcases List.mem_append.mp he with he | he
    · apply h.timed e he hfinished
    · obtain rfl := List.mem_singleton.mp he
      apply htimed
  by_cases htask : message.taskName = name
  · subst htask
    obtain ⟨hgauge, hstarted, hended, hobserved, -⟩ := h
    constructor
    · simp [inProgress, count_append, hof, Execution.hasErred, Execution.isFinished] at hgauge ⊢
      omega
    · simp [count_append, hof, inc, hstarted]
    · simp [count_append, hof, Execution.hasErred, Execution.isFinished, hended]
    · simp [count_append, hof, Execution.hasErred, Execution.isFinished, hobserved]
    · apply hknown
  · have hne : name ≠ message.taskName := fun hname => htask hname.symm
    apply h.of_other
    · simp [hne]
    · simp [inc, hne]
    · rfl
    · rfl
    · rfl
    · intro p
      simp [count_append, hof, htask]
    · apply hknown

/-- A body that ends, whatever its outcome, leaves the balance alone. -/
theorem Balances.body (h : s.Balances environment name) {i : ℕ} {message : TaskiqMessage}
    (he : s.executions[i]? = some { message, phase := .running }) (outcome : Option PyException) :
  Balances environment name
    { s with executions := s.executions.set i { message, phase := .ofOutcome outcome } }
  := by
  obtain ⟨-, hknown⟩ := timed_set h.timed he rfl (.ofOutcome outcome)
  have hcount (p : Execution → Bool)
      (hp : p { message, phase := .ofOutcome outcome } = p { message, phase := .running }) :
      (Worker.mk s.metrics (s.executions.set i { message, phase := .ofOutcome outcome })).count
        name p = s.count name p := by
    have hset := count_set name s.metrics he (.ofOutcome outcome) p
    simp only [hp, Execution.isOf] at hset
    omega
  have herred := hcount Execution.hasErred (by cases outcome <;> rfl)
  have hfinished := hcount Execution.isFinished (by cases outcome <;> rfl)
  have hprogress := hcount (fun e => !e.isFinished) (by cases outcome <;> rfl)
  constructor
  · rw [inProgress, herred, hprogress]
    apply h.gauge
  · rw [hcount _ rfl]
    apply h.started
  · rw [herred, hfinished]
    apply h.ended
  · rw [herred, hfinished]
    apply h.observed
  · apply hknown

/-- A hook that lets an execution leave the gauge keeps the balance when the execution comes to
have erred or to have finished. -/
theorem Balances.leave (h : s.Balances environment name) {i : ℕ} {message : TaskiqMessage}
    {phase phase' : Phase} (he : s.executions[i]? = some { message, phase })
    (hphase : Execution.isFinished { message, phase } = false)
    (hphase' : (Execution.hasErred { message, phase := phase' }).toNat
        + (Execution.isFinished { message, phase := phase' }).toNat
      = (Execution.hasErred { message, phase }).toNat + 1)
    {now start : F.Number} {m : Metrics F}
    (hm : m = failed environment message.taskName (left now start message.taskName s.metrics) ∨
      m = completed environment message.taskName (left now start message.taskName s.metrics)) :
  Balances environment name
    { metrics := m, executions := s.executions.set i { message, phase := phase' } }
  := by
  obtain ⟨-, hknown⟩ := timed_set h.timed he hphase phase'
  have hcount := count_set name m he phase'
  have htotal := hcount (fun _ => true)
  have herred := hcount Execution.hasErred
  have hfinished := hcount Execution.isFinished
  have hprogress := hcount (fun e => !e.isFinished)
  by_cases htask : message.taskName = name
  · subst htask
    obtain ⟨hgauge, hstarted, hended, hobserved, -⟩ := h
    simp only [Execution.isOf, decide_true, Bool.true_and, hphase, Bool.toNat_false,
      Bool.toNat_true, Bool.not_false] at htotal herred hfinished hprogress
    have hopen : (!Execution.isFinished { message, phase := phase' }).toNat
        + (Execution.isFinished { message, phase := phase' }).toNat = 1 := by
      cases Execution.isFinished { message, phase := phase' } <;> rfl
    have hmetrics : m.tasksInProgress message.taskName
          = s.metrics.tasksInProgress message.taskName - 1 ∧
        m.tasksStartedTotal = s.metrics.tasksStartedTotal ∧
        m.tasksCompletedTotal (environment, message.taskName)
            + m.tasksFailedTotal (environment, message.taskName)
          = s.metrics.tasksCompletedTotal (environment, message.taskName)
            + s.metrics.tasksFailedTotal (environment, message.taskName) + 1 ∧
        (m.taskDurationSeconds message.taskName).length
          = (s.metrics.taskDurationSeconds message.taskName).length + 1 := by
      rcases hm with rfl | rfl
      · simp [failed, left, inc]
        omega
      · simp [completed, left, inc]
        omega
    obtain ⟨hinProgress, hstart, hend, hlength⟩ := hmetrics
    rw [inProgress] at hgauge
    constructor
    · rw [inProgress]
      simp only [hinProgress]
      omega
    · simp only [hstart]
      omega
    · simp only [hend]
      omega
    · simp only [hlength]
      omega
    · apply hknown
  · have hne : name ≠ message.taskName := fun hname => htask hname.symm
    have hmetrics : m.tasksInProgress name = s.metrics.tasksInProgress name ∧
        m.tasksStartedTotal = s.metrics.tasksStartedTotal ∧
        m.tasksCompletedTotal (environment, name)
          = s.metrics.tasksCompletedTotal (environment, name) ∧
        m.tasksFailedTotal (environment, name) = s.metrics.tasksFailedTotal (environment, name) ∧
        m.taskDurationSeconds name = s.metrics.taskDurationSeconds name := by
      rcases hm with rfl | rfl
      · simp [failed, left, inc, hne]
      · simp [completed, left, inc, hne]
    obtain ⟨hinProgress, hstart, hcompleted, hfailed, hdurations⟩ := hmetrics
    apply h.of_other hinProgress _ hcompleted hfailed hdurations _ hknown
    · simp only [hstart]
    · intro p
      have hset := hcount p
      simp only [Execution.isOf, htask, decide_false, Bool.false_and, Bool.toNat_false] at hset
      omega

/-- A step of a worker keeps the balance of every task. -/
theorem Balances.step (h : s.Balances environment name) (hstep : Step environment s s') :
  s'.Balances environment name
  := by
  cases hstep with
  | start message now hook => apply h.start hook
  | body outcome execution => apply h.body execution outcome
  | onError execution now result isErr =>
      obtain ⟨hmessage, -⟩ := timed_set h.timed execution rfl (.resulted result)
      obtain ⟨start, hrun⟩ := exec_onError hmessage environment now s.metrics
      apply h.leave execution rfl
      · simp [Execution.hasErred, Execution.isFinished, isErr]
      · rw [hrun]
        exact Or.inl rfl
  | @postExecute i message result execution now =>
      obtain ⟨hmessage, -⟩ := timed_set h.timed execution rfl (.finished result)
      obtain ⟨start, hrun⟩ := exec_postExecute hmessage environment now result s.metrics
      apply h.leave execution rfl
      · simp [Execution.hasErred, Execution.isFinished]
      · rw [hrun]
        cases result.isErr with
        | true => exact Or.inl rfl
        | false => exact Or.inr rfl

/-- The balance of every task holds between the hooks of every run. -/
theorem balances_of_reachable (h : s.Reachable environment) (name : Text) :
  s.Balances environment name
  := by
  induction h with
  | refl =>
      constructor
      · rfl
      · rfl
      · rfl
      · rfl
      · simp
  | tail _ hstep ih => apply ih.step hstep

/-- Every execution of a task is in progress or has finished. -/
theorem count_eq_inProgress (s : Worker F) (name : Text) :
  s.count name (fun _ => true) = s.inProgress name + s.count name Execution.isFinished
  := by
  unfold inProgress count
  induction s.executions with
  | nil => rfl
  | cons e es ih =>
      simp only [List.countP_cons]
      cases e.isOf name with
      | false => simpa using ih
      | true =>
          cases e.isFinished with
          | true =>
              simp at ih ⊢
              omega
          | false =>
              simp at ih ⊢
              omega

end Worker

/-! ### An execution in numbers -/

/-- At every point between the hooks of every run, the metrics of a task are conserved exactly
when no body of the task has raised and had its hook called. -/
theorem metrics_conserved_iff {F : Seconds} {environment : String} {s : Worker F}
    (h : s.Reachable environment) (name : Text) :
  s.Conserves environment name ↔ ∀ e ∈ s.executions, e.isOf name = true → e.hasErred = false
  := by
  obtain ⟨hgauge, hstarted, hended, hobserved, -⟩ := Worker.balances_of_reachable h name
  have herred : s.count name Execution.hasErred = 0
      ↔ ∀ e ∈ s.executions, e.isOf name = true → e.hasErred = false := by
    simp [Worker.count, List.countP_eq_zero]
  rw [← herred]
  constructor
  · intro hconserves
    have hequal := hconserves.gauge
    omega
  · intro hzero
    have htotal := s.count_eq_inProgress name
    constructor
    · omega
    · omega
    · intro _
      omega
    · intro _
      omega

/-- The metrics of a task whose only body has returned are conserved. -/
theorem metrics_conserved_of_success :
  ∃ s : Worker Example.seconds, s.Reachable "production" ∧ s.executions.length = 1 ∧
    s.Conserves "production" Example.message.taskName
  := by
  have hstart : Worker.Reachable "production" _ :=
    .single (.start Example.message (Example.reading 1000) rfl)
  have hreturned := hstart.tail (.body (i := 0) none rfl)
  have hfinished := hreturned.tail (.postExecute (i := 0) rfl (Example.reading 1002))
  refine ⟨_, hfinished, rfl, (metrics_conserved_iff hfinished _).mpr ?_⟩
  intro e he _
  obtain rfl := List.mem_singleton.mp he
  rfl

/-- After one execution whose body has raised, the gauge is negative and the execution has been
counted and observed twice. -/
theorem metrics_not_conserved :
  ∃ s : Worker Example.seconds, s.Reachable "production" ∧
    ¬ s.Conserves "production" Example.message.taskName ∧
    s.inProgress Example.message.taskName = 0 ∧
    s.metrics.tasksInProgress Example.message.taskName = -1 ∧
    s.metrics.tasksStartedTotal ("production", Example.message.taskName) = 1 ∧
    s.metrics.tasksFailedTotal ("production", Example.message.taskName) = 2 ∧
    (s.metrics.taskDurationSeconds Example.message.taskName).length = 2
  := by
  have hstart : Worker.Reachable "production" _ :=
    .single (.start Example.message (Example.reading 1000) rfl)
  have hraised := hstart.tail (.body (i := 0) (some Example.exception) rfl)
  have herred := hraised.tail
    (.onError (i := 0) rfl (Example.reading 1001) (Hook.raised Example.exception) rfl)
  have hfinished := herred.tail (.postExecute (i := 0) rfl (Example.reading 1002))
  refine ⟨_, hfinished, ?_, rfl, rfl, rfl, rfl, rfl⟩
  intro hconserves
  have hgauge := hconserves.nonnegative
  exact absurd hgauge (by decide)

end WorkerTemplate
