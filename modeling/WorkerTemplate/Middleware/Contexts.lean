import WorkerTemplate.Middleware.Metrics
import WorkerTemplate.Receiver
import WorkerTemplate.Tasks.Contracts

/-!
# Context variables

The variables in which a process keeps the tenant and the logging context of the message it works
on, and the hooks that set and clear them.  A hook is modelled as far as it has to do with the
variables and with what is logged from them.
-/

namespace WorkerTemplate

namespace TenantMiddleware

/-- Extract the tenant from task kwargs: the keyword argument, or else the entry of the raw
input. -/
def extractTenantId (kwargs : Dict) : Option UUID :=
  match kwargs.get? TaskiqMessage.tenantKey with
  | some value => parseUuid value
  | none =>
      match kwargs.get? TaskiqMessage.rawInputKey with
      | some (.dict entries) =>
          match Dict.get? entries TaskiqMessage.tenantKey with
          | some value => parseUuid value
          | none => none
      | _ => none

end TenantMiddleware

/-- The variables of `core.logging`. -/
structure LoggingContext where
  taskId : Option Text := none
  tenantId : Option Text := none
  taskName : Option Text := none
  deriving DecidableEq, Repr

namespace LoggingContext

/-- Set task context: what is `None` is left as it is. -/
def setTaskContext (c : LoggingContext) (taskId tenantId taskName : Option Text) :
    LoggingContext where
  taskId := taskId.or c.taskId
  tenantId := tenantId.or c.tenantId
  taskName := taskName.or c.taskName

/-- Clear all task context vars. -/
def clearTaskContext : LoggingContext := {}

/-- The context with the identifier and the name of a message in it. -/
def forMessage (c : LoggingContext) (message : TaskiqMessage) : LoggingContext :=
  { c with taskId := some message.taskId, taskName := some message.taskName }

end LoggingContext

/-- A record that is logged, with the attributes it has of a logging context. -/
structure LogRecord where
  message : String
  extra : LoggingContext
  deriving DecidableEq, Repr

/-- A process with its context variables, what it has logged, and the tenants that the bodies of
messages have read. -/
structure Process where
  /-- The variable of `core.tenants`. -/
  tenantId : Option UUID := none
  logging : LoggingContext := {}
  records : List LogRecord := []
  readings : List (TaskiqMessage × Option UUID) := []

namespace Process

/-- A record is logged. -/
def log (p : Process) (message : String) (extra : LoggingContext) : Process :=
  { p with records := p.records ++ [{ message, extra }] }

/-- Set tenant ID in context for current async task. -/
def setTenantId (p : Process) (tenantId : UUID) : Process := { p with tenantId := some tenantId }

/-- Clear tenant ID from context. -/
def clearTenantId (p : Process) : Process := { p with tenantId := none }

/-- The body of a task reads its tenant, and logs messages with its context. -/
def body (p : Process) (message : TaskiqMessage) (logs : List String) : Process :=
  { p with
    readings := p.readings ++ [(message, p.tenantId)]
    records := p.records ++ logs.map (fun log => { message := log, extra := p.logging }) }

end Process

/-- A message after all `pre_execute` hooks: the metrics middleware writes the time of the
start into its labels, and the others hand it on as it is. -/
def TaskiqMessage.preExecuted (F : Seconds) (now : F.Number) (message : TaskiqMessage) :
    TaskiqMessage :=
  { message with
    labels := message.labels.set MetricsMiddleware.taskStartTimeKey (.str (F.str now)) }

/-- The hooks of a middleware. -/
structure Middleware where
  preExecute : TaskiqMessage → Process → TaskiqMessage × Process := fun message p => (message, p)
  postExecute : TaskiqMessage → TaskiqResult → Process → Process := fun _ _ p => p
  onError : TaskiqMessage → Process → Process := fun _ p => p

/-- Set logging context and log task lifecycle events. -/
def loggingMiddleware : Middleware where
  preExecute message p :=
    let p := { p with
      logging := p.logging.setTaskContext (some message.taskId) none (some message.taskName) }
    (message, p.log "task_started" (p.logging.forMessage message))
  postExecute message result p :=
    if result.isErr then p.log "task_error" (p.logging.forMessage message)
    else p.log "task_completed" (p.logging.forMessage message)
  onError message p :=
    { p.log "task_exception" (p.logging.forMessage message) with
      logging := .clearTaskContext }

/-- Extract the tenant from task kwargs and set the variable. -/
def tenantMiddleware : Middleware where
  preExecute message p :=
    match TenantMiddleware.extractTenantId message.kwargs with
    | none => (message, p)
    | some tenantId =>
        let p := p.setTenantId tenantId
        let p := { p with logging := p.logging.setTaskContext none (some tenantId.text) none }
        (message, p.log "tenant_context_set"
          { taskId := some message.taskId, tenantId := some tenantId.text })
  postExecute _ _ p := p.clearTenantId
  onError _ p := p.clearTenantId

/-- The metrics middleware writes the time of the start into the labels of the message. -/
def metricsMiddleware {F : Seconds} (start : F.Number) : Middleware where
  preExecute message p := (message.preExecuted F start, p)

/-- The state tracking middleware may send the message again, and a broker that executes messages
in place then does so before the hook returns. -/
def stateTrackingMiddleware (resend : Process → Process) : Middleware where
  onError _ p := resend p

/-- Register all middleware on the broker in correct order. -/
def registerMiddleware {F : Seconds} (start : F.Number) (resend : Process → Process) :
    List Middleware :=
  [loggingMiddleware, tenantMiddleware, metricsMiddleware start, stateTrackingMiddleware resend]

namespace Middleware

/-- The hooks before the body run top-to-bottom. -/
def preExecuteAll (middlewares : List Middleware) (message : TaskiqMessage) (p : Process) :
    TaskiqMessage × Process :=
  middlewares.foldl (fun mp middleware => middleware.preExecute mp.1 mp.2) (message, p)

/-- The hooks after the body run bottom-to-top. -/
def postExecuteAll (middlewares : List Middleware) (message : TaskiqMessage)
    (result : TaskiqResult) (p : Process) : Process :=
  middlewares.reverse.foldl (fun p middleware => middleware.postExecute message result p) p

/-- The hooks after a body that has raised run bottom-to-top. -/
def onErrorAll (middlewares : List Middleware) (message : TaskiqMessage) (p : Process) : Process :=
  middlewares.reverse.foldl (fun p middleware => middleware.onError message p) p

end Middleware

/-! ### Deliveries -/

/-- A delivery of a message: the time of its start, what its body logs and how it ends, and the
deliveries in place of the message that has been sent again. -/
inductive Delivery (F : Seconds) where
  | mk (message : TaskiqMessage) (start : F.Number) (logs : List String)
      (outcome : Option PyException) (again : List (Delivery F))

namespace Delivery

variable {F : Seconds}

def message : Delivery F → TaskiqMessage
  | .mk message _ _ _ _ => message

/-- The exception the body raises, if it does. -/
def outcome : Delivery F → Option PyException
  | .mk _ _ _ outcome _ => outcome

mutual

/-- What a delivery does to a process. -/
def process : Delivery F → Process → Process
  | .mk message start logs outcome again => fun p =>
      let middlewares := registerMiddleware start (processAll again)
      let started := Middleware.preExecuteAll middlewares message p
      let p := started.2.body started.1 logs
      match outcome with
      | none => Middleware.postExecuteAll middlewares started.1 Hook.succeeded p
      | some exception =>
          Middleware.postExecuteAll middlewares started.1 (Hook.raised exception)
            (Middleware.onErrorAll middlewares started.1 p)

/-- What deliveries one after the other do to a process. -/
def processAll : List (Delivery F) → Process → Process
  | [] => fun p => p
  | d :: ds => fun p => processAll ds (d.process p)

end

mutual

/-- What is delivered in place is the message that has failed, after its transport. -/
def Resends : Delivery F → Prop
  | .mk message start _ _ again => ResendsAll (message.preExecuted F start).transport again

/-- Deliveries in place are deliveries of one message. -/
def ResendsAll (message : TaskiqMessage) : List (Delivery F) → Prop
  | [] => True
  | d :: ds => d.message = message ∧ d.Resends ∧ ResendsAll message ds

end

end Delivery

end WorkerTemplate
