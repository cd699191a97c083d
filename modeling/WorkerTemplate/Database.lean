import Mathlib.Data.List.MinMax
import WorkerTemplate.Models

/-!
# The database

The statements the hooks send, what they read from a database, and the effects they have
on it.  A transaction that has not been committed is the list of its effects: it reads
the committed database with its own effects applied, and committing applies them.
-/

namespace WorkerTemplate

/-- The committed rows of the two tables. -/
structure Database where
  executions : List TaskExecution
  attempts : List TaskAttempt

/-- The `WHERE` clause of a query on `task_attempt`. -/
inductive AttemptFilter where
  /-- The pending rows of an execution. -/
  | pending (taskExecutionId : UUID)
  /-- The pending or dispatched rows of an execution with an attempt number. -/
  | pendingOrDispatched (taskExecutionId : UUID) (attemptNumber : ℕ)

/-- Whether a row satisfies a `WHERE` clause. -/
def AttemptFilter.holds (row : TaskAttempt) : AttemptFilter → Bool
  | .pending i => row.taskExecutionId = i && row.dispatchResult = .pending
  | .pendingOrDispatched i n =>
      row.taskExecutionId = i && row.attemptNumber = n &&
        (row.dispatchResult = .pending || row.dispatchResult = .dispatched)

/-- A statement other than `COMMIT`. -/
inductive Statement where
  /-- `SELECT` of the execution with a primary key, of one tenant if one is given. -/
  | selectExecution (id : UUID) (tenantId : Option UUID)
  /-- `SELECT` of the last created attempt satisfying a `WHERE` clause. -/
  | selectAttempt (filter : AttemptFilter)
  /-- The flush of an execution, an `UPDATE` of the changed columns if there are any. -/
  | updateExecution (id : UUID) (changes : ExecutionChanges)
  | insertAttempt (row : TaskAttempt)
  /-- `UPDATE` of the dispatch result of the attempt with a primary key. -/
  | updateAttempt (id : Option ℕ) (dispatchResult : TaskDispatchResult)

/-- What a statement answers. -/
@[reducible] def Statement.Answer : Statement → Type
  | .selectExecution _ _ => Option TaskExecution
  | .selectAttempt _ => Option TaskAttempt
  | .updateExecution _ _ => Unit
  | .insertAttempt _ => Unit
  | .updateAttempt _ _ => Unit

/-- The attempt with its dispatch result set. -/
def TaskAttempt.resolve (row : TaskAttempt) (d : TaskDispatchResult) : TaskAttempt :=
  { row with dispatchResult := d }

/-- A change of the database. -/
inductive Effect where
  | updateExecution (id : UUID) (changes : ExecutionChanges)
  | insertAttempt (row : TaskAttempt)
  | updateAttempt (id : Option ℕ) (dispatchResult : TaskDispatchResult)

/-- The effects of a statement. -/
def Statement.effects : Statement → List Effect
  | .selectExecution _ _ => []
  | .selectAttempt _ => []
  | .updateExecution i c => [.updateExecution i c]
  | .insertAttempt row => [.insertAttempt row]
  | .updateAttempt i d => [.updateAttempt i d]

namespace Database

/-- The execution with a primary key. -/
def execution? (db : Database) (id : UUID) : Option TaskExecution :=
  db.executions.find? (fun row => row.id = id)

/-- The last created attempt satisfying a `WHERE` clause. -/
def latestAttempt? (db : Database) (filter : AttemptFilter) : Option TaskAttempt :=
  (db.attempts.filter (fun row => filter.holds row)).getLast?

/-- A primary key that no attempt has. -/
def freshAttemptId (db : Database) : ℕ :=
  (db.attempts.map (fun row => row.id.elim 0 (· + 1))).foldr max 0

/-- The database after an effect. -/
def apply (db : Database) : Effect → Database
  | .updateExecution i c =>
      { db with
        executions := db.executions.map (fun row => if row.id = i then row.set c else row) }
  | .insertAttempt row =>
      { db with attempts := db.attempts ++ [{ row with id := some db.freshAttemptId }] }
  | .updateAttempt i d =>
      { db with
        attempts := db.attempts.map (fun row => if row.id = i then row.resolve d else row) }

/-- The database as a transaction with the effects `own` reads it. -/
def view (db : Database) (own : List Effect) : Database :=
  own.foldl apply db

/-- What a statement answers in a database. -/
def answer (db : Database) : (s : Statement) → s.Answer
  | .selectExecution i none => db.execution? i
  | .selectExecution i (some t) => (db.execution? i).filter (fun row => row.tenantId = t)
  | .selectAttempt filter => db.latestAttempt? filter
  | .updateExecution _ _ => ()
  | .insertAttempt _ => ()
  | .updateAttempt _ _ => ()

/-! ### Transactions -/

@[simp]
theorem view_nil (db : Database) :
  db.view [] = db
  := rfl

/-- A transaction reads the effects of its statements in the order in which it sent
them. -/
@[simp]
theorem view_append (db : Database) (own own' : List Effect) :
  db.view (own ++ own') = (db.view own).view own'
  := List.foldl_append

@[simp]
theorem view_singleton (db : Database) (e : Effect) :
  db.view [e] = db.apply e
  := rfl

/-- The last statement of a transaction takes effect after the others. -/
theorem view_concat (db : Database) (own : List Effect) (e : Effect) :
  db.view (own ++ [e]) = (db.view own).apply e
  := by
  rw [view_append, view_singleton]

/-- What no statement of a transaction changes, the transaction does not change. -/
theorem eq_view {α : Type*} {f : Database → α} {own : List Effect}
    (h : ∀ e ∈ own, ∀ db : Database, f (db.apply e) = f db) (db : Database) :
  f (db.view own) = f db
  := by
  induction own generalizing db with
  | nil => rfl
  | cons e own ih =>
      have hrest : ∀ e' ∈ own, ∀ db : Database, f (db.apply e') = f db := by
        intro e' he'
        apply h e' (List.mem_cons_of_mem e he')
      calc f (db.view (e :: own))
          = f ((db.apply e).view own) := rfl
        _ = f (db.apply e) := ih hrest (db.apply e)
        _ = f db := h e (List.mem_cons_self ..) db

/-! ### Executions -/

variable (db : Database)

/-- Updating an execution updates what its primary key finds and nothing else. -/
theorem execution?_updateExecution (i j : UUID) (c : ExecutionChanges) :
  (db.apply (.updateExecution i c)).execution? j
    = if j = i then (db.execution? j).map (fun row => row.set c) else db.execution? j
  := by
  obtain ⟨rows, -⟩ := db
  simp only [execution?, apply]
  induction rows with
  | nil => simp
  | cons row rows ih =>
      rw [List.map_cons, List.find?_cons, List.find?_cons]
      by_cases hrow : row.id = j
      · by_cases hj : j = i
        · simp [hrow, hj]
        · simp [hrow, hj]
      · have hset : (if row.id = i then row.set c else row).id = row.id := by
          split
          · rfl
          · rfl
        simp only [hset, hrow, decide_false, ih]

@[simp]
theorem execution?_updateExecution_self (i : UUID) (c : ExecutionChanges) :
  (db.apply (.updateExecution i c)).execution? i
    = (db.execution? i).map (fun row => row.set c)
  := by
  rw [execution?_updateExecution, if_pos rfl]

@[simp]
theorem execution?_insertAttempt (i : UUID) (row : TaskAttempt) :
  (db.apply (.insertAttempt row)).execution? i = db.execution? i
  := rfl

/-- The execution a primary key finds has that primary key. -/
theorem id_of_execution? {db : Database} {i : UUID} {row : TaskExecution}
    (h : db.execution? i = some row) :
  row.id = i
  := by
  simpa using List.find?_some h

/-! ### Attempts -/

@[simp]
theorem attempts_updateExecution (i : UUID) (c : ExecutionChanges) :
  (db.apply (.updateExecution i c)).attempts = db.attempts
  := rfl

@[simp]
theorem attempts_insertAttempt (row : TaskAttempt) :
  (db.apply (.insertAttempt row)).attempts
    = db.attempts ++ [{ row with id := some db.freshAttemptId }]
  := rfl

@[simp]
theorem attempts_updateAttempt (i : Option ℕ) (d : TaskDispatchResult) :
  (db.apply (.updateAttempt i d)).attempts
    = db.attempts.map (fun row => if row.id = i then row.resolve d else row)
  := rfl

/-- The primary key generated for a new attempt is not the key of any attempt. -/
theorem ne_freshAttemptId {row : TaskAttempt} (h : row ∈ db.attempts) :
  row.id ≠ some db.freshAttemptId
  := by
  have hle : row.id.elim 0 (· + 1) ≤ db.freshAttemptId := by
    apply List.le_max_of_le' 0 (List.mem_map_of_mem h) le_rfl
  intro hid
  rw [hid] at hle
  simp only [Option.elim_some] at hle
  omega

/-- The attempt a query finds is an attempt of the table satisfying the `WHERE` clause. -/
theorem of_latestAttempt? {db : Database} {filter : AttemptFilter} {row : TaskAttempt}
    (h : db.latestAttempt? filter = some row) :
  row ∈ db.attempts ∧ filter.holds row = true
  := by
  have hmem := List.mem_of_getLast? h
  simpa using hmem

/-- A query finds an attempt when one satisfies the `WHERE` clause. -/
theorem latestAttempt?_isSome {db : Database} {filter : AttemptFilter} {row : TaskAttempt}
    (hrow : row ∈ db.attempts) (h : filter.holds row = true) :
  (db.latestAttempt? filter).isSome
  := by
  rw [latestAttempt?, List.getLast?_isSome]
  apply List.ne_nil_of_mem (a := row)
  simpa using ⟨hrow, h⟩

end Database

end WorkerTemplate
