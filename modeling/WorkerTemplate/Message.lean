import WorkerTemplate.Text

/-!
# Messages

A TaskIQ message carries the arguments of a task and its labels as Python objects.  Of
an object the worker asks whether it is `None`, an integer, a string, a UUID or a
dictionary, and otherwise only for its text.  The execution a message belongs to and its
tenant are read from its labels and keyword arguments.
-/

namespace WorkerTemplate

/-- A Python object. -/
inductive Value where
  | none
  | int (n : ℤ)
  | str (t : Text)
  | uuid (u : UUID)
  | dict (entries : List (String × Value))
  /-- An object of any other type, by the text `str` gives for it. -/
  | object (text : Text)

/-- A dictionary with string keys. -/
abbrev Dict : Type := List (String × Value)

/-- `d.get(key)`, where an absent key is told apart from a key with the value `None`. -/
def Dict.get? (d : Dict) (key : String) : Option Value := d.lookup key

/-- `d[key] = value`: a new key comes last. -/
def Dict.set (d : Dict) (key : String) (value : Value) : Dict :=
  if (d.get? key).isSome then d.map (fun e => if e.1 = key then (key, value) else e)
  else d ++ [(key, value)]

/-- Replacing the value of a key in every entry replaces the value the key has. -/
theorem Dict.get?_replace (d : Dict) (key key' : String) (value : Value) :
  Dict.get? (d.map (fun e => if e.1 = key then (key, value) else e)) key'
    = if key' = key then (d.get? key).map (fun _ => value) else d.get? key'
  := by
  unfold get?
  induction d with
  | nil => simp
  | cons e d ih =>
      obtain ⟨k, v⟩ := e
      rw [List.map_cons, List.lookup_cons, List.lookup_cons]
      by_cases hk : k = key
      · subst hk
        by_cases hkey : key' = k
        · simp [hkey]
        · simpa [beq_eq_false_iff_ne.mpr hkey, hkey, List.lookup_cons] using ih
      · by_cases hkey : key' = k
        · simp [hk, hkey]
        · simp only [hk, if_false, beq_eq_false_iff_ne.mpr hkey]
          rw [ih, List.lookup_cons, beq_eq_false_iff_ne.mpr (Ne.symm hk),
            beq_eq_false_iff_ne.mpr hkey]

/-- A dictionary has the value that was set, and its other values are unchanged. -/
theorem Dict.get?_set (d : Dict) (key key' : String) (value : Value) :
  (d.set key value).get? key' = if key' = key then some value else d.get? key'
  := by
  unfold set
  split
  case isTrue hsome =>
    obtain ⟨old, hold⟩ := Option.isSome_iff_exists.mp hsome
    rw [get?_replace, hold, Option.map_some]
  case isFalse hnone =>
    rw [Option.not_isSome_iff_eq_none] at hnone
    unfold get? at hnone ⊢
    rw [List.lookup_append, List.lookup_cons]
    by_cases hkey : key' = key
    · subst hkey
      simp [hnone]
    · simp [hkey, beq_eq_false_iff_ne.mpr hkey]

/-- A message on the queue. -/
structure TaskiqMessage where
  taskId : Text
  taskName : Text
  labels : Dict
  args : List Value
  kwargs : Dict

/-- The text `_parse_uuid` reads: a UUID is taken as it is, and the texts of `None` and of
a dictionary are not the text of any UUID. -/
def parseUuid : Value → Option UUID
  | .uuid u => some u
  | .str t => UUID.ofText t
  | .int n => UUID.ofText (toString n).toList
  | .object t => UUID.ofText t
  | .none => Option.none
  | .dict _ => Option.none

namespace TaskiqMessage

def taskExecutionIdKey : String := "task_execution_id"

def rawInputKey : String := "raw_input"

def tenantKey : String := "tenant_id"

/-- The value under `key` of the dictionary passed as `raw_input`, when there is one. -/
def rawInput? (message : TaskiqMessage) (key : String) : Option Value :=
  match message.kwargs.get? rawInputKey with
  | some (.dict entries) => Dict.get? entries key
  | _ => none

/-- The value of a label that is not `None`. -/
def label? (message : TaskiqMessage) (key : String) : Option Value :=
  match message.labels.get? key with
  | some .none => none
  | value => value

/-- The execution a message belongs to: the first UUID among the label, the keyword
argument and the entry of the raw input. -/
def extractTaskExecutionId (message : TaskiqMessage) : Option UUID :=
  let candidates : List Value :=
    (message.label? taskExecutionIdKey).toList ++
      (message.kwargs.get? taskExecutionIdKey).toList ++
      (message.rawInput? taskExecutionIdKey).toList
  candidates.findSome? parseUuid

/-- The tenant of a message: the keyword argument, or else the entry of the raw input, or
else the label, even when the first of these present is not a UUID. -/
def extractTenantId (message : TaskiqMessage) : Option UUID :=
  match message.kwargs.get? tenantKey with
  | some value => parseUuid value
  | none =>
      match message.rawInput? tenantKey with
      | some value => parseUuid value
      | none =>
          match message.label? tenantKey with
          | some value => parseUuid value
          | none => none

end TaskiqMessage

end WorkerTemplate
