import Mathlib.Data.Nat.Digits.Defs
import Mathlib.Logic.Function.Basic
import WorkerTemplate.Hook

/-!
# The metrics middleware

The hooks that count the executions of tasks: a counter each for executions that were
started, completed and failed, a gauge for those in progress, and a histogram of their
durations.  The time of the start travels in a label of the message.
-/

namespace WorkerTemplate

/-- The floating-point numbers in which seconds are measured, with their texts. -/
structure Seconds where
  Number : Type
  sub : Number → Number → Number
  ofInt : ℤ → Number
  /-- `str(x)`. -/
  str : Number → Text
  /-- `float(t)`, or `none` when it raises `ValueError`. -/
  ofText : Text → Option Number
  /-- The text of a number reads back as the number. -/
  ofText_str : ∀ x, ofText (str x) = some x

/-- `float(value)`, or `none` when it raises. -/
def Seconds.float (F : Seconds) : Value → Option F.Number
  | .str t => F.ofText t
  | .object t => F.ofText t
  | .int n => some (F.ofInt n)
  | .none => none
  | .uuid _ => none
  | .dict _ => none

namespace Example

/-- The text of a number of seconds. -/
def secondsText (n : ℕ) : Text := Nat.toDigits 10 n ++ ".0".toList

/-- The number of seconds with a text. -/
def secondsOfText (t : Text) : Option ℕ :=
  if t.drop (t.length - 2) = ".0".toList then
    some (Nat.ofDigitChars 10 (t.take (t.length - 2)) 0)
  else none

/-- Whole numbers of seconds. -/
def seconds : Seconds where
  Number := ℕ
  sub a b := a - b
  ofInt n := n.toNat
  str := secondsText
  ofText := secondsOfText
  ofText_str := by
    intro n
    have hlength : (secondsText n).length - 2 = (Nat.toDigits 10 n).length := by
      simp [secondsText]
    rw [secondsOfText, hlength, secondsText, List.drop_left, List.take_left, if_pos rfl,
      Nat.ofDigitChars_toDigits (by omega) (by omega)]

/-- A reading of the clock. -/
def reading (n : ℕ) : seconds.Number := n

end Example

/-- The metrics of a worker process.  The counters have the environment and the name of the
task as labels, the gauge and the histogram the name only. -/
structure Metrics (F : Seconds) where
  tasksStartedTotal : String × Text → ℕ := fun _ => 0
  tasksCompletedTotal : String × Text → ℕ := fun _ => 0
  tasksFailedTotal : String × Text → ℕ := fun _ => 0
  tasksInProgress : Text → ℤ := fun _ => 0
  /-- The observations of the histogram. -/
  taskDurationSeconds : Text → List F.Number := fun _ => []

/-- A hook of the middleware; `none` is a hook that raises. -/
abbrev MetricsHook (F : Seconds) (α : Type) : Type :=
  OptionT (StateM (Metrics F)) α

namespace MetricsMiddleware

variable {F : Seconds}

def taskStartTimeKey : String := "_metrics_start_time"

/-- `counter.labels(...).inc()`. -/
def inc {κ : Type} [DecidableEq κ] (counter : κ → ℕ) (labels : κ) : κ → ℕ :=
  Function.update counter labels (counter labels + 1)

/-- Record task start and increment in-progress gauge. -/
def preExecute (environment : String) (now : F.Number) (message : TaskiqMessage) :
    MetricsHook F TaskiqMessage := do
  let name := message.taskName
  modify fun m => { m with
    tasksStartedTotal := inc m.tasksStartedTotal (environment, name)
    tasksInProgress := Function.update m.tasksInProgress name (m.tasksInProgress name + 1) }
  pure { message with labels := message.labels.set taskStartTimeKey (.str (F.str now)) }

/-- The duration since the start is observed, if the message knows its start. -/
def observeDuration (now : F.Number) (message : TaskiqMessage) : MetricsHook F Unit := do
  match message.label? taskStartTimeKey with
  | none => pure ()
  | some value =>
      let start ← OptionT.mk (pure (F.float value))
      modify fun m => { m with
        taskDurationSeconds :=
          Function.update m.taskDurationSeconds message.taskName
            (m.taskDurationSeconds message.taskName ++ [F.sub now start]) }

/-- `tasks_in_progress.labels(...).dec()`. -/
def leave (message : TaskiqMessage) : MetricsHook F Unit :=
  modify fun m => { m with
    tasksInProgress :=
      Function.update m.tasksInProgress message.taskName
        (m.tasksInProgress message.taskName - 1) }

/-- `tasks_failed_total.labels(...).inc()`. -/
def countFailed (environment : String) (message : TaskiqMessage) : MetricsHook F Unit :=
  modify fun m => { m with
    tasksFailedTotal := inc m.tasksFailedTotal (environment, message.taskName) }

/-- Record task completion metrics. -/
def postExecute (environment : String) (now : F.Number) (message : TaskiqMessage)
    (result : TaskiqResult) : MetricsHook F Unit := do
  leave message
  observeDuration now message
  if result.isErr then countFailed environment message
  else
    modify fun m => { m with
      tasksCompletedTotal := inc m.tasksCompletedTotal (environment, message.taskName) }

/-- Record task failure metrics. -/
def onError (environment : String) (now : F.Number) (message : TaskiqMessage) :
    MetricsHook F Unit := do
  leave message
  countFailed environment message
  observeDuration now message

/-! ### What the hooks do -/

/-- What a hook returns, and the metrics it leaves. -/
def exec {α : Type} (h : MetricsHook F α) (m : Metrics F) : Option α × Metrics F :=
  (h.run).run m

/-- A message knows the time at which its execution was started. -/
def Timed (F : Seconds) (message : TaskiqMessage) : Prop :=
  ∃ start, message.labels.get? taskStartTimeKey = some (.str (F.str start))

/-- The hook before the body hands on a message that knows its start. -/
theorem exec_preExecute (environment : String) (now : F.Number) (message : TaskiqMessage)
    (m : Metrics F) :
  ∃ message', exec (preExecute environment now message) m
      = (some message',
        { m with
          tasksStartedTotal := inc m.tasksStartedTotal (environment, message.taskName)
          tasksInProgress :=
            Function.update m.tasksInProgress message.taskName
              (m.tasksInProgress message.taskName + 1) }) ∧
    message'.taskName = message.taskName ∧ Timed F message'
  := by
  refine ⟨_, rfl, rfl, now, ?_⟩
  rw [Dict.get?_set, if_pos rfl]

/-- A message that knows its start has the label of the start. -/
theorem Timed.label? {message : TaskiqMessage} (h : Timed F message) :
  ∃ start, message.label? taskStartTimeKey = some (.str (F.str start))
  := by
  obtain ⟨start, hstart⟩ := h
  use start
  rw [TaskiqMessage.label?, hstart]

/-- The metrics after an execution has left, with one more observation of its duration. -/
def left (now start : F.Number) (name : Text) (m : Metrics F) : Metrics F :=
  { m with
    tasksInProgress := Function.update m.tasksInProgress name (m.tasksInProgress name - 1)
    taskDurationSeconds :=
      Function.update m.taskDurationSeconds name
        (m.taskDurationSeconds name ++ [F.sub now start]) }

/-- The metrics after a failure has been counted. -/
def failed (environment : String) (name : Text) (m : Metrics F) : Metrics F :=
  { m with tasksFailedTotal := inc m.tasksFailedTotal (environment, name) }

/-- The metrics after a success has been counted. -/
def completed (environment : String) (name : Text) (m : Metrics F) : Metrics F :=
  { m with tasksCompletedTotal := inc m.tasksCompletedTotal (environment, name) }

/-- The hook after the body lets an execution leave and counts its outcome. -/
theorem exec_postExecute {message : TaskiqMessage} (h : Timed F message) (environment : String)
    (now : F.Number) (result : TaskiqResult) (m : Metrics F) :
  ∃ start, exec (postExecute environment now message result) m
    = (some (),
        if result.isErr then failed environment message.taskName (left now start message.taskName m)
        else completed environment message.taskName (left now start message.taskName m))
  := by
  obtain ⟨start, hstart⟩ := h.label?
  use start
  simp only [exec, postExecute, observeDuration, hstart, Seconds.float, F.ofText_str]
  cases result.isErr with
  | true => rfl
  | false => rfl

/-- The hook after a body that raised lets the execution leave and counts a failure. -/
theorem exec_onError {message : TaskiqMessage} (h : Timed F message) (environment : String)
    (now : F.Number) (m : Metrics F) :
  ∃ start, exec (onError environment now message) m
    = (some (), failed environment message.taskName (left now start message.taskName m))
  := by
  obtain ⟨start, hstart⟩ := h.label?
  use start
  simp only [exec, onError, observeDuration, hstart, Seconds.float, F.ofText_str]
  rfl

end MetricsMiddleware

end WorkerTemplate
