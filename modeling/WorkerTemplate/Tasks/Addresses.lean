import WorkerTemplate.Lifecycle.Isolation
import WorkerTemplate.Tasks.Example

/-!
# Where messages go

A message is addressed to an execution, its tenant and its task.  Transport keeps the address,
and so does a worker that hands the message on for a retry.
-/

namespace WorkerTemplate

/-- The execution that a message is addressed to. -/
structure Address where
  taskExecutionId : UUID
  tenantId : UUID
  taskName : Text

namespace TaskiqMessage

variable {message : TaskiqMessage} {a : Address}

/-- A message names its execution and its task, and its tenant both to the hooks and to the
context in which its body runs. -/
structure AddressedTo (message : TaskiqMessage) (a : Address) : Prop where
  taskExecutionId : message.extractTaskExecutionId = some a.taskExecutionId
  tenantId : message.extractTenantId = some a.tenantId
  context : TenantMiddleware.extractTenantId message.kwargs = some a.tenantId
  taskName : message.taskName = a.taskName

/-! ### Transport -/

theorem rawInput?_transport (key : String) :
  message.transport.rawInput? key = (message.rawInput? key).map Value.transport
  := by
  rw [rawInput?, rawInput?, transport, Dict.get?_transport]
  cases message.kwargs.get? rawInputKey with
  | none => rfl
  | some rawInput =>
      cases rawInput with
      | dict entries => apply Dict.get?_transport
      | none => rfl
      | int n => rfl
      | str t => rfl
      | uuid u => rfl
      | object t => rfl

theorem label?_transport (key : String) :
  message.transport.label? key = (message.label? key).map Value.transport
  := by
  rw [label?, label?, transport, Dict.get?_transport]
  cases message.labels.get? key with
  | none => rfl
  | some value =>
      cases value with
      | dict entries => rfl
      | none => rfl
      | int n => rfl
      | str t => rfl
      | uuid u => rfl
      | object t => rfl

/-- A transported UUID parses as before. -/
theorem bind_parseUuid_transport (value : Option Value) :
  (value.map Value.transport).bind parseUuid = value.bind parseUuid
  := by
  cases value with
  | none => rfl
  | some value => apply parseUuid_transport value

/-- The execution of a message is the first UUID among three values. -/
theorem extractTaskExecutionId_eq :
  message.extractTaskExecutionId =
    ((message.label? taskExecutionIdKey).bind parseUuid).or
      (((message.kwargs.get? taskExecutionIdKey).bind parseUuid).or
        ((message.rawInput? taskExecutionIdKey).bind parseUuid))
  := by
  have hvalue (value : Option Value) :
      value.toList.findSome? parseUuid = value.bind parseUuid := by
    cases value with
    | none => rfl
    | some value =>
        rw [Option.toList_some, List.findSome?_singleton]
        rfl
  simp only [extractTaskExecutionId, List.findSome?_append, hvalue, Option.or_assoc]

/-- Transport keeps the execution of a message. -/
theorem extractTaskExecutionId_transport :
  message.transport.extractTaskExecutionId = message.extractTaskExecutionId
  := by
  have hkwargs : message.transport.kwargs = Dict.transport message.kwargs := rfl
  rw [extractTaskExecutionId_eq, extractTaskExecutionId_eq, label?_transport, hkwargs,
    Dict.get?_transport, rawInput?_transport, bind_parseUuid_transport,
    bind_parseUuid_transport, bind_parseUuid_transport]

/-- Transport keeps the tenant of a message. -/
theorem messageTenantId_transport :
  message.transport.extractTenantId = message.extractTenantId
  := by
  have hkwargs : message.transport.kwargs = Dict.transport message.kwargs := rfl
  rw [extractTenantId, extractTenantId, hkwargs, Dict.get?_transport, rawInput?_transport,
    label?_transport]
  cases message.kwargs.get? tenantKey with
  | some value => apply parseUuid_transport value
  | none =>
      cases message.rawInput? tenantKey with
      | some value => apply parseUuid_transport value
      | none =>
          cases message.label? tenantKey with
          | some value => apply parseUuid_transport value
          | none => rfl

theorem AddressedTo.transport (h : message.AddressedTo a) : message.transport.AddressedTo a where
  taskExecutionId := extractTaskExecutionId_transport.trans h.taskExecutionId
  tenantId := messageTenantId_transport.trans h.tenantId
  context := (extractTenantId_transport message.kwargs).trans h.context
  taskName := h.taskName

/-! ### Handing on -/

/-- A message that has left the `pre_execute` hooks has its old labels, and the time of its
start. -/
theorem label?_preExecuted (F : Seconds) (now : F.Number) {key : String}
    (hkey : key ≠ MetricsMiddleware.taskStartTimeKey) :
  (message.preExecuted F now).label? key = message.label? key
  := by rw [label?, label?, preExecuted, Dict.get?_set, if_neg hkey]

theorem AddressedTo.preExecuted (F : Seconds) (now : F.Number) (h : message.AddressedTo a) :
  (message.preExecuted F now).AddressedTo a
  where
  taskExecutionId := by
    rw [← h.taskExecutionId, extractTaskExecutionId, extractTaskExecutionId,
      label?_preExecuted F now (by decide)]
    rfl
  tenantId := by
    rw [← h.tenantId, extractTenantId, extractTenantId, label?_preExecuted F now (by decide)]
    rfl
  context := h.context
  taskName := h.taskName

/-! ### Dispatch -/

/-- A dispatched message is addressed to the row that was committed for it. -/
theorem addressedTo_dispatchExampleTask (db : Database) (id : UUID) (createdAt : Time)
    (maxRetries : ℕ) (taskId : Text) (tenantId : UUID) (documentUrl outputFormat : Text) :
  (dispatchExampleTask db id createdAt maxRetries taskId tenantId documentUrl
    outputFormat).2.AddressedTo ⟨id, tenantId, exampleTaskName⟩
  where
  taskExecutionId := rfl
  tenantId := rfl
  context := rfl
  taskName := rfl

end TaskiqMessage

/-! ### Rows -/

/-- A database has the execution of an address. -/
def Database.Has (db : Database) (a : Address) : Prop :=
  ∃ row, db.execution? a.taskExecutionId = some row ∧ row.tenantId = a.tenantId ∧
    row.taskName = a.taskName

variable {db : Database} {a : Address}

/-- No transaction takes the execution of an address away. -/
theorem Database.Has.view (h : db.Has a) (es : List Effect) : (db.view es).Has a := by
  induction es generalizing db with
  | nil => apply h
  | cons e es ih =>
      obtain ⟨row, hrow, htenant, hname⟩ := h
      suffices hhas : (db.apply e).Has a by apply ih hhas
      cases e with
      | insertAttempt attempt => exact ⟨row, hrow, htenant, hname⟩
      | updateAttempt id d => exact ⟨row, hrow, htenant, hname⟩
      | updateExecution j changes =>
          by_cases hj : a.taskExecutionId = j
          · use row.set changes
            rw [Database.execution?_updateExecution, if_pos hj, hrow]
            exact ⟨rfl, htenant, hname⟩
          · use row
            rw [Database.execution?_updateExecution, if_neg hj]
            exact ⟨hrow, htenant, hname⟩

/-- A row that is created takes no other away. -/
theorem Database.Has.dispatch (h : db.Has a) (id : UUID) (createdAt : Time) (maxRetries : ℕ)
    (taskId : Text) (tenantId : UUID) (documentUrl outputFormat : Text) :
  (dispatchExampleTask db id createdAt maxRetries taskId tenantId documentUrl
    outputFormat).1.Has a
  := by
  obtain ⟨row, hrow, htenant, hname⟩ := h
  refine ⟨row, ?_, htenant, hname⟩
  rw [dispatchExampleTask, Database.execution?, List.find?_append]
  rw [Database.execution?] at hrow
  rw [hrow]
  rfl

/-- The row of a dispatch is there. -/
theorem Database.has_dispatch (id : UUID) (hid : db.execution? id = none) (createdAt : Time)
    (maxRetries : ℕ) (taskId : Text) (tenantId : UUID) (documentUrl outputFormat : Text) :
  (dispatchExampleTask db id createdAt maxRetries taskId tenantId documentUrl outputFormat).1.Has
    ⟨id, tenantId, exampleTaskName⟩
  := by
  refine ⟨createTaskExecution id createdAt exampleTaskName tenantId maxRetries, ?_, rfl, rfl⟩
  rw [dispatchExampleTask, Database.execution?, List.find?_append]
  rw [Database.execution?] at hid
  rw [hid]
  simp [createTaskExecution]

end WorkerTemplate
