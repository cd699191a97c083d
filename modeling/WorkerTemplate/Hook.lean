import WorkerTemplate.Database
import WorkerTemplate.Program.Basic

/-!
# Hooks

A hook is a program over the operations by which a worker touches the world outside of
it: database sessions, the clock, the broker, the realtime emitter and the task body.
While it runs it may raise `OperationalError`, and it changes a few Python objects that
survive the exception: the identity map of the open session, the record an error hook
keeps of its own writes, and the result of the task.
-/

namespace WorkerTemplate

/-- An exception a task body may raise, as far as the hooks look at it. -/
inductive PyException where
  | noResultError
  /-- Any other exception, by the name of its type and its text. -/
  | other (typeName text : String)
  deriving DecidableEq, Repr

/-- `type(exception).__name__`. -/
def PyException.typeName : PyException → String
  | .noResultError => "NoResultError"
  | .other n _ => n

/-- An `OperationalError`: raised by the driver, or by a hook that misses an audit row. -/
inductive OperationalError where
  | driver
  | missingRetryAudit (message : String)
  deriving DecidableEq, Repr

/-! ### Events -/

structure TaskStatusEvent where
  taskId : UUID
  taskName : Text
  status : String
  totalSteps : Option ℕ := none
  completedSteps : ℕ := 0
  statusMessage : Option String := none
  errorDetail : Option String := none
  tenantId : UUID
  deriving DecidableEq, Repr

structure TaskCompletedEvent where
  taskId : UUID
  taskName : Text
  resultUrl : Option String := none
  tenantId : UUID
  deriving DecidableEq, Repr

structure TaskFailedEvent where
  taskId : UUID
  taskName : Text
  errorDetail : Option String := none
  tenantId : UUID
  deriving DecidableEq, Repr

/-- The payload of an event. -/
inductive TaskEvent where
  | statusChanged (e : TaskStatusEvent)
  | completed (e : TaskCompletedEvent)
  | failed (e : TaskFailedEvent)
  deriving DecidableEq, Repr

/-- The name under which an event is emitted. -/
def TaskEvent.name : TaskEvent → String
  | .statusChanged _ => "task_status_changed"
  | .completed _ => "task_completed"
  | .failed _ => "task_failed"

/-- The status an event is about. -/
def TaskEvent.status : TaskEvent → String
  | .statusChanged e => e.status
  | .completed _ => TaskStatus.completed.value
  | .failed _ => TaskStatus.failed.value

/-! ### Operations -/

/-- An operation on the world outside of the worker. -/
inductive Op where
  /-- A session is opened. -/
  | openSession
  /-- The open session is closed, which rolls its transaction back. -/
  | closeSession
  | statement (s : Statement)
  | commit
  /-- `datetime.now(UTC)`. -/
  | now
  /-- The message is sent to the broker. -/
  | kiq (message : TaskiqMessage)
  /-- The event is published in a room. -/
  | emit (room : Text) (event : TaskEvent)
  /-- The body of the task of a message is run. -/
  | body (message : TaskiqMessage)

/-- The answer to an operation.  A message is accepted or its sending raises, an event is
published or its publishing raises, and a body returns or raises. -/
@[reducible] def Op.Answer : Op → Type
  | .openSession => Unit
  | .closeSession => Unit
  | .statement s => Except OperationalError s.Answer
  | .commit => Except OperationalError Unit
  | .now => Time
  | .kiq _ => Bool
  | .emit _ _ => Bool
  | .body _ => Option PyException

/-! ### Python objects of a hook -/

/-- What one call of `on_error` remembers of the status it wrote. -/
structure OnErrorAttempt where
  recordedStatus : Option TaskStatus := none
  recordedRetryCount : Option ℕ := none
  statusMessage : Option String := none
  attemptNumber : Option ℕ := none
  deriving DecidableEq, Repr

/-- The result of a task; `shadowRetry` is the marker in its `__dict__`. -/
structure TaskiqResult where
  isErr : Bool
  error : Option PyException
  shadowRetry : Bool := false
  deriving DecidableEq, Repr

/-- The objects a hook changes: the identity map of the open session, the record of an
error hook and the result of the task. -/
structure Invocation where
  identityMap : UUID → Option TaskExecution := fun _ => none
  attempt : OnErrorAttempt := {}
  result : TaskiqResult

/-- A hook. -/
abbrev Hook (α : Type) : Type :=
  ExceptT OperationalError (StateT Invocation (Program Op.Answer)) α

namespace Hook

variable {α β : Type}

/-- The program of a hook that starts with the objects `s`. -/
def program (h : Hook α) (s : Invocation) :
    Program Op.Answer (Except OperationalError α × Invocation) :=
  (ExceptT.run h).run s

/-- A bound hook goes on where the first one returned, with the objects it leaves. -/
theorem program_bind (h : Hook α) (f : α → Hook β) (s : Invocation) :
  (h >>= f).program s
    = h.program s >>= fun p : Except OperationalError α × Invocation =>
        match p with
        | (.ok a, s') => (f a).program s'
        | (.error e, s') => pure (.error e, s')
  := by
  simp only [program]
  rw [ExceptT.run_bind, StateT.run_bind]
  congr 1
  funext p
  obtain ⟨r, s'⟩ := p
  cases r with
  | ok a => rfl
  | error e => rfl

/-- What is raised is handled with the objects as they were when it was raised. -/
theorem program_tryCatch (h : Hook α) (f : OperationalError → Hook α) (s : Invocation) :
  (tryCatch h f : Hook α).program s
    = h.program s >>= fun p : Except OperationalError α × Invocation =>
        match p with
        | (.ok a, s') => pure (.ok a, s')
        | (.error e, s') => (f e).program s'
  := by
  simp only [program]
  rw [ExceptT.run_tryCatch, StateT.run_bind]
  congr 1
  funext p
  obtain ⟨r, s'⟩ := p
  cases r with
  | ok a => rfl
  | error e => rfl

/-- The hook that performs one operation. -/
def perform (o : Op) : Hook o.Answer :=
  ExceptT.mk (fun s => (Program.call o).bind (fun r => .pure (.ok r, s)))

/-- The hook that returns what `r` holds or raises it. -/
def ofExcept (r : Except OperationalError α) : Hook α :=
  ExceptT.mk (fun s => .pure (r, s))

/-- The hook that sends a statement. -/
def execute (s : Statement) : Hook s.Answer := do
  ofExcept (← perform (.statement s))

/-- `await session.commit()`. -/
def commit : Hook Unit := do
  ofExcept (← perform .commit)

/-- `async with async_session_maker() as session`: the session is closed however `body`
ends. -/
def withSession (body : Hook α) : Hook α := do
  perform .openSession
  modify (fun s => { s with identityMap := fun _ => none })
  tryCatch
    (do
      let a ← body
      perform .closeSession
      pure a)
    (fun e => do
      perform .closeSession
      throw e)

/-- `create_db_retry`: the call is repeated on `OperationalError`, and the error of the
last of `maxAttempts` calls is raised. -/
def createDbRetry (maxAttempts : ℕ) (call : Hook α) : Hook α :=
  match maxAttempts with
  | 0 => call
  | 1 => call
  | n + 2 => tryCatch call (fun _ => createDbRetry (n + 1) call)

/-- `DEFAULT_MAX_ATTEMPTS`. -/
def defaultMaxAttempts : ℕ := 3

/-- `@db_retry`. -/
def dbRetry (call : Hook α) : Hook α :=
  createDbRetry defaultMaxAttempts call

end Hook

end WorkerTemplate
