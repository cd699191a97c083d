import WorkerTemplate.Sequential.Services

/-!
# The history of a row

A client opens sessions one after the other, calls `update_task_status` in each of them any
number of times, and commits.  Each column of a row is a function of the calls so far: it is
overwritten, it is kept when nothing is supplied, it is written once, or it counts.
-/

namespace WorkerTemplate

/-- A call of `update_task_status`, with the time that it reads from the clock. -/
structure StatusCall where
  taskId : UUID
  status : TaskStatus
  fields : StatusUpdate := {}
  now : Time

/-- A client of the services: the objects of its session, and the world. -/
structure Client where
  objects : Invocation
  world : World

namespace Client

/-- A client of a store whose transactions commit. -/
def ofStore (db : Database) : Client where
  objects := { result := { isErr := false, error := none } }
  world := { db, plan := fun _ => { fate := fun _ => .commits, accepts := true } }

/-- The client opens a session. -/
def openSession (c : Client) : Client where
  objects := { c.objects with identityMap := fun _ => none }
  world := c.world.opened

/-- What a call answers, and the client after it. -/
def call (c : Client) (call : StatusCall) :
    Except OperationalError (Option TaskExecution) × Client :=
  let run := Hook.exec (Hook.updateTaskStatus call.taskId call.status call.fields) c.objects
    { c.world with clock := call.now }
  (run.1.1, { objects := run.1.2, world := run.2 })

/-- The client after calls of its open session. -/
def callAll (c : Client) (calls : List StatusCall) : Client :=
  calls.foldl (fun c call => (c.call call).2) c

/-- The client commits and closes its session. -/
def commit (c : Client) : Client :=
  let run := Hook.exec Hook.commit c.objects c.world
  { objects := run.1.2, world := run.2.closed }

/-- The client after a session that has committed its calls. -/
def transact (c : Client) (calls : List StatusCall) : Client :=
  (c.openSession.callAll calls).commit

/-- The client after sessions that have committed their calls. -/
def transactAll (c : Client) (sessions : List (List StatusCall)) : Client :=
  sessions.foldl transact c

end Client

/-! ### The columns of a row -/

/-- What calls for a row have made of it. -/
structure TaskExecution.Replays (row : TaskExecution) (calls : List StatusCall)
    (row' : TaskExecution) : Prop where
  /-- The status is that of the last call. -/
  status : row'.status = (calls.getLast?.map (·.status)).getD row.status
  /-- Every retry counts. -/
  retryCount : row'.retryCount
    = row.retryCount + calls.countP (fun call => call.status = .retrying)
  /-- The start is the first one. -/
  startedAt : row'.startedAt
    = row.startedAt.or ((calls.find? (fun call => call.status = .running)).map (·.now))
  /-- The completion is the last one. -/
  completedAt : row'.completedAt
    = ((calls.filter (fun call => call.status.IsTerminal)).getLast?.map (·.now)).or
        row.completedAt
  /-- The other fields have the last value that was supplied. -/
  statusMessage : row'.statusMessage
    = (calls.filterMap (·.fields.statusMessage)).getLast?.or row.statusMessage
  errorDetail : row'.errorDetail
    = (calls.filterMap (·.fields.errorDetail)).getLast?.or row.errorDetail
  resultUrl : row'.resultUrl
    = (calls.filterMap (·.fields.resultUrl)).getLast?.or row.resultUrl
  completedSteps : row'.completedSteps
    = (calls.filterMap (·.fields.completedSteps)).getLast?.getD row.completedSteps
  id : row'.id = row.id
  createdAt : row'.createdAt = row.createdAt
  taskName : row'.taskName = row.taskName
  tenantId : row'.tenantId = row.tenantId
  parentTaskId : row'.parentTaskId = row.parentTaskId
  maxRetries : row'.maxRetries = row.maxRetries
  totalSteps : row'.totalSteps = row.totalSteps
  configSnapshot : row'.configSnapshot = row.configSnapshot

namespace TaskExecution

variable {row row' : TaskExecution} {calls : List StatusCall}

/-- A row without calls is as it was. -/
theorem replays_nil (row : TaskExecution) :
  row.Replays [] row
  := by
  constructor
  all_goals simp

/-- The last value supplied, after one more call. -/
theorem getLast?_filterMap_concat {α : Type} (f : StatusCall → Option α)
    (calls : List StatusCall) (call : StatusCall) :
  ((calls ++ [call]).filterMap f).getLast? = (f call).or (calls.filterMap f).getLast?
  := by
  rw [List.filterMap_append, List.getLast?_append]
  cases hcall : f call with
  | none => simp [hcall]
  | some a => simp [hcall]

/-- One more call assigns the columns of the row. -/
theorem Replays.concat (h : row.Replays calls row') (call : StatusCall) :
  row.Replays (calls ++ [call]) (row'.assign call.status call.fields call.now)
  where
  status := by simp [assign]
  retryCount := by
    simp only [assign]
    rw [h.retryCount, List.countP_append, List.countP_singleton]
    by_cases hstatus : call.status = .retrying
    · simp [hstatus, Nat.add_assoc]
    · simp [hstatus]
  startedAt := by
    rw [List.find?_append]
    simp only [assign]
    split
    case isTrue hfirst =>
      obtain ⟨hstatus, hnone⟩ := hfirst
      rw [h.startedAt, Option.or_eq_none_iff] at hnone
      obtain ⟨hrow, hcalls⟩ := hnone
      rw [Option.map_eq_none_iff] at hcalls
      simp [hrow, hcalls, hstatus]
    case isFalse hfirst =>
      rw [h.startedAt] at hfirst ⊢
      cases hrow : row.startedAt with
      | some t => rfl
      | none =>
          cases hcalls : calls.find? (fun call => call.status = .running) with
          | some call' => rfl
          | none =>
              have hstatus : call.status ≠ .running := by
                intro hstatus
                apply hfirst ⟨hstatus, by rw [hrow, hcalls]; rfl⟩
              simp [hstatus]
  completedAt := by
    rw [List.filter_append, List.getLast?_append]
    simp only [assign]
    split
    case isTrue hterminal => simp [hterminal]
    case isFalse hterminal =>
      rw [h.completedAt]
      simp [hterminal]
  statusMessage := by
    rw [getLast?_filterMap_concat, Option.or_assoc, ← h.statusMessage]
    rfl
  errorDetail := by
    rw [getLast?_filterMap_concat, Option.or_assoc, ← h.errorDetail]
    rfl
  resultUrl := by
    rw [getLast?_filterMap_concat, Option.or_assoc, ← h.resultUrl]
    rfl
  completedSteps := by
    rw [getLast?_filterMap_concat, Option.getD_or, ← h.completedSteps]
    rfl
  id := h.id
  createdAt := h.createdAt
  taskName := h.taskName
  tenantId := h.tenantId
  parentTaskId := h.parentTaskId
  maxRetries := h.maxRetries
  totalSteps := h.totalSteps
  configSnapshot := h.configSnapshot

end TaskExecution

/-! ### The store -/

/-- What a call makes of a store. -/
def Database.update (db : Database) (call : StatusCall) : Database :=
  match db.execution? call.taskId with
  | none => db
  | some task =>
      db.apply (.updateExecution task.id
        (task.changes (task.assign call.status call.fields call.now)))

namespace Database

variable (db : Database) (call : StatusCall)

theorem update_of_none {db : Database} {call : StatusCall}
    (h : db.execution? call.taskId = none) :
  db.update call = db
  := by
  rw [update, h]

theorem update_of_some {db : Database} {call : StatusCall} {task : TaskExecution}
    (h : db.execution? call.taskId = some task) :
  db.update call = db.apply (.updateExecution task.id
    (task.changes (task.assign call.status call.fields call.now)))
  := by
  rw [update, h]

/-- A call assigns the columns of its row, and changes no other row. -/
theorem execution?_update (i : UUID) :
  (db.update call).execution? i
    = if i = call.taskId then
        (db.execution? i).map (·.assign call.status call.fields call.now)
      else db.execution? i
  := by
  cases hrow : db.execution? call.taskId with
  | none =>
      rw [update_of_none hrow]
      split
      case isTrue hi => rw [hi, hrow, Option.map_none]
      case isFalse => rfl
  | some task =>
      rw [update_of_some hrow, id_of_execution? hrow, execution?_updateExecution]
      split
      case isTrue hi =>
        rw [hi, hrow, Option.map_some, Option.map_some, TaskExecution.set_changes_assign]
      case isFalse => rfl

/-- Calls replay on the row of an execution. -/
theorem replays_foldl {i : UUID} {row : TaskExecution} (h : db.execution? i = some row)
    (calls : List StatusCall) :
  ∃ row', (calls.foldl update db).execution? i = some row' ∧
    row.Replays (calls.filter (fun call => call.taskId = i)) row'
  := by
  induction calls using List.reverseRecOn with
  | nil => exact ⟨row, h, row.replays_nil⟩
  | append_singleton calls call ih =>
      obtain ⟨row', hrow', hreplays⟩ := ih
      rw [List.foldl_append, List.foldl_cons, List.foldl_nil, execution?_update,
        List.filter_append, hrow']
      by_cases hi : call.taskId = i
      · use row'.assign call.status call.fields call.now
        constructor
        · rw [if_pos hi.symm, Option.map_some]
        · rw [List.filter_singleton, decide_eq_true hi]
          apply hreplays.concat call
      · use row'
        constructor
        · rw [if_neg (Ne.symm hi)]
        · rw [List.filter_singleton, decide_eq_false hi]
          simpa using hreplays

end Database

/-! ### Clients -/

namespace Client

/-- A client whose transactions commit reads a store, and its instances are the rows of the
store. -/
structure Reads (c : Client) (db : Database) : Prop where
  view : c.world.view = db
  fate : c.world.fate = .commits
  later : ∀ n, c.world.later n = .commits
  plan : ∀ n k, (c.world.plan n).fate k = .commits
  instances : ∀ i task, c.objects.identityMap i = some task → db.execution? i = some task

/-- A client between two sessions, with the store it has committed. -/
structure Committed (c : Client) (db : Database) : Prop where
  db : c.world.db = db
  plan : ∀ n k, (c.world.plan n).fate k = .commits

variable {c : Client} {db : Database}

theorem committed_ofStore (db : Database) :
  (ofStore db).Committed db
  := ⟨rfl, fun _ _ => rfl⟩

theorem Committed.openSession (h : c.Committed db) :
  c.openSession.Reads db
  where
  view := h.db
  fate := h.plan 0 0
  later n := h.plan 0 (n + 1)
  plan n k := h.plan (n + 1) k
  instances := by
    rintro i task ⟨⟩

/-- A call answers the row that it leaves, and the client goes on reading the store. -/
theorem Reads.call (h : c.Reads db) (call : StatusCall) :
  (c.call call).1 = .ok ((db.update call).execution? call.taskId) ∧
    (c.call call).2.Reads (db.update call)
  := by
  have hup : World.Up { c.world with clock := call.now } := World.up_of_commits h.fate
  have hview : World.view { c.world with clock := call.now } = db := h.view
  rw [Database.execution?_update, if_pos rfl]
  cases hrow : db.execution? call.taskId with
  | none =>
      have hrun := Hook.exec_updateTaskStatus_none (s := c.objects) hup call.status call.fields
        (by rw [hview, hrow])
      rw [Client.call, hrun, Database.update_of_none hrow]
      exact ⟨rfl, h.view, h.fate, h.later, h.plan, h.instances⟩
  | some task =>
      have hid : task.id = call.taskId := Database.id_of_execution? hrow
      have hmap : c.objects.identityMap call.taskId = none ∨
          c.objects.identityMap call.taskId = some task := by
        cases hmap : c.objects.identityMap call.taskId with
        | none => exact Or.inl rfl
        | some task' =>
            have hrow' := h.instances _ _ hmap
            rw [hrow] at hrow'
            exact Or.inr (congrArg some (Option.some_injective _ hrow').symm)
      have hrun := Hook.exec_updateTaskStatus hup call.status call.fields hmap
        (by rw [hview, hrow])
      rw [Client.call, hrun]
      refine ⟨rfl, ?_, h.fate, h.later, h.plan, ?_⟩
      · change World.view (World.push _ _) = _
        rw [World.view_push, World.view_tick, hview, Database.view_singleton,
          Database.update_of_some hrow]
      · intro i task' htask'
        rw [Database.execution?_update]
        simp only [Invocation.keep, Function.update_apply] at htask'
        split at htask'
        case isTrue hi =>
          obtain rfl := Option.some_injective _ htask'
          have hi : i = call.taskId := hi.trans hid
          rw [if_pos hi, hi, hrow, Option.map_some]
        case isFalse hi =>
          have hi : i ≠ call.taskId := fun heq => hi (heq.trans hid.symm)
          rw [if_neg hi]
          apply h.instances i task' htask'

/-- The calls of a session replay on the store. -/
theorem Reads.callAll (h : c.Reads db) (calls : List StatusCall) :
  (c.callAll calls).Reads (calls.foldl Database.update db)
  := by
  induction calls generalizing c db with
  | nil => apply h
  | cons call calls ih => apply ih (h.call call).2

theorem Reads.commit (h : c.Reads db) :
  c.commit.Committed db
  := by
  rw [Client.commit, Hook.exec_commit h.fate]
  exact ⟨h.view, h.plan⟩

/-- The calls of committed sessions replay on the store. -/
theorem Committed.transactAll (h : c.Committed db) (sessions : List (List StatusCall)) :
  (c.transactAll sessions).Committed (sessions.flatten.foldl Database.update db)
  := by
  induction sessions generalizing c db with
  | nil => apply h
  | cons calls sessions ih =>
      rw [List.flatten_cons, List.foldl_append]
      apply ih (h.openSession.callAll calls).commit

end Client

/-- A created row is found by its primary key. -/
theorem Database.execution?_create {db : Database} {row : TaskExecution}
    (h : db.execution? row.id = none) :
  Database.execution? { db with executions := db.executions ++ [row] } row.id = some row
  := by
  rw [execution?, List.find?_append]
  rw [execution?] at h
  simp [h]

/-- Whatever a store holds, and whatever calls have been committed and made since, a created row is
what the calls for it make of it.  One more call changes no other row, and answers the row that
it leaves; without a row it changes nothing and answers none. -/
theorem updateTaskStatus_replays {db : Database} {id : UUID} (hid : db.execution? id = none)
    (createdAt : Time) (taskName : Text) (tenantId : UUID) (maxRetries : ℕ)
    (configSnapshot : Option Dict) (parentTaskId : Option UUID) (totalSteps : Option ℕ)
    (sessions : List (List StatusCall)) (calls : List StatusCall) (call : StatusCall) :
  let row := createTaskExecution id createdAt taskName tenantId maxRetries configSnapshot
    parentTaskId totalSteps
  let committed :=
    (Client.ofStore { db with executions := db.executions ++ [row] }).transactAll sessions
  let c := committed.openSession.callAll calls
  (row.status = .pending ∧ row.retryCount = 0 ∧ row.startedAt = none ∧ row.completedAt = none) ∧
  (∃ row', committed.world.db.execution? id = some row' ∧
    row.Replays (sessions.flatten.filter (fun call => call.taskId = id)) row') ∧
  (∃ row', c.world.view.execution? id = some row' ∧
    row.Replays ((sessions.flatten ++ calls).filter (fun call => call.taskId = id)) row') ∧
  (∀ j, j ≠ call.taskId →
    (c.call call).2.world.view.execution? j = c.world.view.execution? j) ∧
  (c.call call).1 = .ok ((c.call call).2.world.view.execution? call.taskId) ∧
  (c.world.view.execution? call.taskId = none →
    (c.call call).1 = .ok none ∧ (c.call call).2.world.view = c.world.view)
  := by
  intro row committed c
  have hrow : Database.execution? { db with executions := db.executions ++ [row] } id = some row :=
    @Database.execution?_create db row hid
  have hcommitted := (Client.committed_ofStore
    { db with executions := db.executions ++ [row] }).transactAll sessions
  have hreads := hcommitted.openSession.callAll calls
  obtain ⟨hanswer, hcall⟩ := hreads.call call
  refine ⟨⟨rfl, rfl, rfl, rfl⟩, ?_, ?_, ?_, ?_, ?_⟩
  · rw [hcommitted.db]
    apply Database.replays_foldl _ hrow sessions.flatten
  · rw [hreads.view, ← List.foldl_append]
    apply Database.replays_foldl _ hrow (sessions.flatten ++ calls)
  · intro j hj
    rw [hcall.view, hreads.view, Database.execution?_update, if_neg hj]
  · rw [hanswer, hcall.view]
  · intro hnone
    rw [hreads.view] at hnone
    rw [hanswer, hcall.view, hreads.view, Database.execution?_update, if_pos rfl, hnone]
    exact ⟨rfl, Database.update_of_none hnone⟩

namespace Example

/-- A row that is started, fails, and is started again. -/
def statusCalls : List StatusCall :=
  [{ taskId := 1, status := .running, now := 10 },
    { taskId := 1, status := .failed, fields := { errorDetail := some "crash" }, now := 20 },
    { taskId := 1, status := .running, now := 30 }]

end Example

/-- A row that is started again keeps its first start, its error and its completion. -/
theorem updateTaskStatus_replays_restarted :
  let row := createTaskExecution 1 0 "job".toList 7 3
  let committed :=
    (Client.ofStore { executions := [row], attempts := [] }).transactAll [Example.statusCalls]
  (∃ row', committed.world.db.execution? 1 = some row' ∧
      row'.status = .running ∧ row'.startedAt = some 10 ∧ row'.completedAt = some 20 ∧
      row'.errorDetail = some "crash") ∧
    ∃ row', committed.world.db.execution? 1 = some row' ∧
      row.Replays (Example.statusCalls.filter (fun call => call.taskId = 1)) row'
  := by
  refine ⟨⟨_, rfl, rfl, rfl, rfl, rfl⟩, ?_⟩
  obtain ⟨-, hcommitted, -⟩ := @updateTaskStatus_replays ⟨[], []⟩ 1 rfl 0
    "job".toList 7 3 none none none [Example.statusCalls] [] ⟨1, .running, {}, 40⟩
  apply hcommitted

end WorkerTemplate
