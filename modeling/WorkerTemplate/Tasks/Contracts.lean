import WorkerTemplate.UuidText
import WorkerTemplate.Message

/-!
# Task contracts

The input of the example task, the dictionary it is dumped into, and how a dictionary is
validated.  Validation converts values as pydantic does; what the worker relies on of the
conversions is that a value of the type of a field, and the text of a UUID, are taken as
they are.
-/

namespace WorkerTemplate

/-- The text of a UUID parses as the UUID. -/
theorem parseUuid_text (u : UUID) :
  parseUuid (.str u.text) = some u
  := UUID.ofText_text u

/-- The conversions of pydantic, each `none` when it is a validation error. -/
structure Pydantic where
  uuid : Value → Option UUID
  int : Value → Option ℤ
  str : Value → Option Text
  uuid_uuid : ∀ u, uuid (.uuid u) = some u
  uuid_text : ∀ u : UUID, uuid (.str u.text) = some u
  int_int : ∀ n, int (.int n) = some n
  str_str : ∀ t, str (.str t) = some t

/-- Conversions that take a value of the type of the field, and the text of a UUID, but
nothing else. -/
instance : Inhabited Pydantic where
  default :=
    { uuid := parseUuid
      int := fun value => match value with
        | .int n => some n
        | _ => none
      str := fun value => match value with
        | .str t => some t
        | _ => none
      uuid_uuid := fun _ => rfl
      uuid_text := parseUuid_text
      int_int := fun _ => rfl
      str_str := fun _ => rfl }

/-- The conversion of a field that may be `None`. -/
def Pydantic.optionalUuid (P : Pydantic) : Value → Option (Option UUID)
  | .none => some none
  | value => (P.uuid value).map some

namespace TaskInput

def minPriority : ℤ := 0

def maxPriority : ℤ := 10

def defaultPriority : ℤ := 5

theorem defaultPriority_bounds :
  minPriority ≤ defaultPriority ∧ defaultPriority ≤ maxPriority
  := by decide

end TaskInput

/-- A priority within its bounds. -/
abbrev Priority : Type := { n : ℤ // TaskInput.minPriority ≤ n ∧ n ≤ TaskInput.maxPriority }

/-- The input of the example task. -/
structure ExampleTaskInput where
  tenantId : UUID
  priority : Priority := ⟨TaskInput.defaultPriority, TaskInput.defaultPriority_bounds⟩
  parentTaskId : Option UUID := none
  taskExecutionId : Option UUID := none
  documentUrl : Text
  outputFormat : Text := "pdf".toList

/-- A UUID or `None`. -/
def Value.ofUuid? : Option UUID → Value
  | .some u => .uuid u
  | Option.none => .none

namespace ExampleTaskInput

/-- `task_input.model_dump()`. -/
def modelDump (input : ExampleTaskInput) : Dict :=
  [("tenant_id", .uuid input.tenantId),
    ("priority", .int input.priority.val),
    ("parent_task_id", .ofUuid? input.parentTaskId),
    ("task_execution_id", .ofUuid? input.taskExecutionId),
    ("document_url", .str input.documentUrl),
    ("output_format", .str input.outputFormat)]

/-- The value of a field, or its default when it is absent. -/
def field {α : Type} (entries : Dict) (key : String) (convert : Value → Option α)
    (default : Option α) : Option α :=
  match entries.get? key with
  | some value => convert value
  | none => default

/-- A priority, when it is within its bounds. -/
def validatePriority (n : ℤ) : Option Priority :=
  if h : TaskInput.minPriority ≤ n ∧ n ≤ TaskInput.maxPriority then some ⟨n, h⟩ else none

/-- `ExampleTaskInput.model_validate(raw_input)`; keys that are no fields are ignored. -/
def modelValidate (P : Pydantic) (rawInput : Value) : Option ExampleTaskInput :=
  match rawInput with
  | .dict entries => do
      let tenantId ← field entries "tenant_id" P.uuid none
      let priority ← field entries "priority" (fun value => (P.int value).bind validatePriority)
        (some ⟨TaskInput.defaultPriority, TaskInput.defaultPriority_bounds⟩)
      let parentTaskId ← field entries "parent_task_id" P.optionalUuid (some none)
      let taskExecutionId ← field entries "task_execution_id" P.optionalUuid (some none)
      let documentUrl ← field entries "document_url" P.str none
      let outputFormat ← field entries "output_format" P.str (some "pdf".toList)
      some { tenantId, priority, parentTaskId, taskExecutionId, documentUrl, outputFormat }
  | _ => none

end ExampleTaskInput

/-! ### Transport -/

mutual

/-- A value after its transport as JSON, which writes a UUID as its text. -/
def Value.transport : Value → Value
  | .none => .none
  | .int n => .int n
  | .str t => .str t
  | .uuid u => .str u.text
  | .dict entries => .dict (Dict.transport entries)
  | .object t => .object t

/-- A dictionary after its transport. -/
def Dict.transport : List (String × Value) → List (String × Value)
  | [] => []
  | (key, value) :: entries => (key, value.transport) :: Dict.transport entries

end

/-- A message after its transport. -/
def TaskiqMessage.transport (message : TaskiqMessage) : TaskiqMessage :=
  { message with
    labels := Dict.transport message.labels
    args := message.args.map Value.transport
    kwargs := Dict.transport message.kwargs }

/-- The values of a dictionary are those before its transport, after theirs. -/
theorem Dict.get?_transport (d : Dict) (key : String) :
  Dict.get? (Dict.transport d) key = (d.get? key).map Value.transport
  := by
  unfold get?
  induction d with
  | nil => rfl
  | cons e d ih =>
      obtain ⟨k, v⟩ := e
      rw [transport, List.lookup_cons, List.lookup_cons]
      cases key == k with
      | true => rfl
      | false => apply ih

mutual

/-- Nothing is left to write after one transport. -/
theorem Value.transport_transport (v : Value) :
  v.transport.transport = v.transport
  := by
  cases v with
  | none => rfl
  | int n => rfl
  | str t => rfl
  | uuid u => rfl
  | object t => rfl
  | dict entries =>
      rw [Value.transport, Value.transport, Dict.transport_transport]

theorem Dict.transport_transport (d : List (String × Value)) :
  Dict.transport (Dict.transport d) = Dict.transport d
  := by
  cases d with
  | nil => rfl
  | cons e d =>
      obtain ⟨k, v⟩ := e
      rw [Dict.transport, Dict.transport, Value.transport_transport, Dict.transport_transport]

end

end WorkerTemplate
