import WorkerTemplate.Middleware.Contexts
import WorkerTemplate.Services
import WorkerTemplate.Tasks.Contracts

/-!
# The example task

The dispatch of the example task, the message that a worker sends again for a retry, and
what the middlewares read from it after any number of retries.
-/

namespace WorkerTemplate

/-- `example_task.task_name`. -/
def exampleTaskName : Text := "worker_template.tasks.example_task:example_task".toList

/-- The input `dispatch_example_task` sends for the row it has committed. -/
def dispatchedInput (id tenantId : UUID) (documentUrl outputFormat : Text) : ExampleTaskInput where
  tenantId := tenantId
  documentUrl := documentUrl
  outputFormat := outputFormat
  taskExecutionId := some id

/-- Create a tracked row, commit it, then enqueue the example task.  The primary key and the
time of creation are the server's, the identifier of the message is the broker's. -/
def dispatchExampleTask (db : Database) (id : UUID) (createdAt : Time) (maxRetries : ℕ)
    (taskId : Text) (tenantId : UUID) (documentUrl outputFormat : Text) :
    Database × TaskiqMessage :=
  let task := createTaskExecution id createdAt exampleTaskName tenantId maxRetries
  let input := dispatchedInput task.id tenantId documentUrl outputFormat
  ({ db with executions := db.executions ++ [task] },
    { taskId
      taskName := exampleTaskName
      labels := []
      args := []
      kwargs := [(TaskiqMessage.rawInputKey, .dict input.modelDump)] })

/-- A message after its first transport and `n` retries, each of which sends the message that
left the `pre_execute` hooks. -/
def TaskiqMessage.resent (F : Seconds) (times : ℕ → F.Number) (message : TaskiqMessage) :
    ℕ → TaskiqMessage
  | 0 => message.transport
  | n + 1 => ((message.resent F times n).preExecuted F (times n)).transport

namespace TaskiqMessage

variable {F : Seconds} {times : ℕ → F.Number} {message : TaskiqMessage}

/-- A retry sends the keyword arguments that came with the first transport. -/
theorem kwargs_resent (n : ℕ) :
  (message.resent F times n).kwargs = Dict.transport message.kwargs
  := by
  induction n with
  | zero => rfl
  | succ n ih =>
      calc
        (message.resent F times (n + 1)).kwargs
          = Dict.transport (message.resent F times n).kwargs := rfl
        _ = Dict.transport (Dict.transport message.kwargs) := by rw [ih]
        _ = Dict.transport message.kwargs := Dict.transport_transport _

/-- The only label a retry may add is the time of the start. -/
theorem label?_resent {key : String} (hkey : key ≠ MetricsMiddleware.taskStartTimeKey)
    (hlabels : message.labels.get? key = none) (n : ℕ) :
  (message.resent F times n).label? key = none
  := by
  suffices h : (message.resent F times n).labels.get? key = none by
    rw [label?, h]
  induction n with
  | zero =>
      rw [resent, transport, Dict.get?_transport, hlabels, Option.map_none]
  | succ n ih =>
      rw [resent, transport, preExecuted, Dict.get?_transport, Dict.get?_set, if_neg hkey, ih,
        Option.map_none]

end TaskiqMessage

/-! ### What the middlewares read -/

namespace ExampleTaskInput

/-- A transported UUID reads as the UUID. -/
theorem optionalUuid_transport (P : Pydantic) (u : Option UUID) :
  P.optionalUuid (Value.ofUuid? u).transport = some u
  := by
  cases u with
  | none => rfl
  | some u =>
      change (P.uuid (.str u.text)).map some = some (some u)
      rw [P.uuid_text, Option.map_some]

/-- A priority within its bounds is valid. -/
theorem validatePriority_val (priority : Priority) :
  validatePriority priority.val = some priority
  := by
  unfold validatePriority
  rw [dif_pos priority.property]

/-- Validating the dump of an input after its transport gives back the input. -/
theorem modelValidate_modelDump (P : Pydantic) (input : ExampleTaskInput) :
  modelValidate P (Value.dict input.modelDump).transport = some input
  := by
  have tenantId : field (Dict.transport input.modelDump) "tenant_id" P.uuid none
      = some input.tenantId := P.uuid_text _
  have priority (default) : field (Dict.transport input.modelDump) "priority"
      (fun value => (P.int value).bind validatePriority) default = some input.priority := by
    change (P.int (.int input.priority.val)).bind validatePriority = _
    rw [P.int_int, Option.bind_some, validatePriority_val]
  have parentTaskId (default) : field (Dict.transport input.modelDump) "parent_task_id"
      P.optionalUuid default = some input.parentTaskId := optionalUuid_transport P _
  have taskExecutionId (default) : field (Dict.transport input.modelDump) "task_execution_id"
      P.optionalUuid default = some input.taskExecutionId := optionalUuid_transport P _
  have documentUrl : field (Dict.transport input.modelDump) "document_url" P.str none
      = some input.documentUrl := P.str_str _
  have outputFormat (default) : field (Dict.transport input.modelDump) "output_format" P.str
      default = some input.outputFormat := P.str_str _
  rw [Value.transport, modelValidate, tenantId, priority, parentTaskId, taskExecutionId,
    documentUrl, outputFormat]
  rfl

end ExampleTaskInput

/-- The row of a dispatched task is committed, and after any number of retries the message
still names it and its tenant, and still carries the input that was dispatched. -/
theorem identity_of_resent (P : Pydantic) (F : Seconds) (times : ℕ → F.Number) (db : Database)
    (id : UUID) (createdAt : Time) (maxRetries : ℕ) (taskId : Text) (tenantId : UUID)
    (documentUrl outputFormat : Text) (n : ℕ) :
  let dispatched :=
    dispatchExampleTask db id createdAt maxRetries taskId tenantId documentUrl outputFormat
  let message := dispatched.2.resent F times n
  (∃ row ∈ dispatched.1.executions, message.extractTaskExecutionId = some row.id ∧
      row.id = id ∧ row.tenantId = tenantId) ∧
    message.extractTenantId = some tenantId ∧
    TenantMiddleware.extractTenantId message.kwargs = some tenantId ∧
    (message.kwargs.get? TaskiqMessage.rawInputKey).bind (ExampleTaskInput.modelValidate P)
      = some (dispatchedInput id tenantId documentUrl outputFormat)
  := by
  intro dispatched message
  have hkwargs : message.kwargs = [(TaskiqMessage.rawInputKey,
      (Value.dict (dispatchedInput id tenantId documentUrl outputFormat).modelDump).transport)] :=
    TaskiqMessage.kwargs_resent n
  have hexecution : message.label? TaskiqMessage.taskExecutionIdKey = none :=
    TaskiqMessage.label?_resent (by decide) rfl n
  constructor
  · use createTaskExecution id createdAt exampleTaskName tenantId maxRetries
    constructor
    · apply List.mem_append_right
      apply List.mem_singleton_self
    · constructor
      · rw [TaskiqMessage.extractTaskExecutionId, hexecution, TaskiqMessage.rawInput?, hkwargs]
        change [(.str id.text : Value)].findSome? parseUuid = some id
        rw [List.findSome?_cons, parseUuid_text]
      · constructor
        · rfl
        · rfl
  · constructor
    · rw [TaskiqMessage.extractTenantId, TaskiqMessage.rawInput?, hkwargs]
      change parseUuid (.str tenantId.text) = some tenantId
      rw [parseUuid_text]
    · constructor
      · rw [TenantMiddleware.extractTenantId, hkwargs]
        change parseUuid (.str tenantId.text) = some tenantId
        rw [parseUuid_text]
      · rw [hkwargs]
        apply ExampleTaskInput.modelValidate_modelDump P _

/-- A row of tenant 7 is dispatched and its message is sent again twice. -/
theorem identity_of_resent_twice :
  let dispatched := dispatchExampleTask ⟨[], []⟩ 1 0 3 "1".toList 7 "s3://a".toList "pdf".toList
  let message := dispatched.2.resent Example.seconds Example.reading 2
  message.label? MetricsMiddleware.taskStartTimeKey = some (.str "1.0".toList) ∧
    (∃ row ∈ dispatched.1.executions, message.extractTaskExecutionId = some row.id ∧
      row.id = 1 ∧ row.tenantId = 7) ∧
    message.extractTenantId = some 7 ∧
    TenantMiddleware.extractTenantId message.kwargs = some 7 ∧
    (message.kwargs.get? TaskiqMessage.rawInputKey).bind (ExampleTaskInput.modelValidate default)
      = some (dispatchedInput 1 7 "s3://a".toList "pdf".toList)
  := by
  constructor
  · rfl
  · apply identity_of_resent default Example.seconds Example.reading ⟨[], []⟩ 1 0 3 "1".toList
      7 "s3://a".toList "pdf".toList 2

end WorkerTemplate
