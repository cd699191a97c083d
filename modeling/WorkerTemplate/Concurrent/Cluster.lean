import WorkerTemplate.Concurrent.Obeys
import WorkerTemplate.Database
import WorkerTemplate.Program.Machine

/-!
# Workers on one database

The world that the hooks of many workers share: the committed database, the open
transaction of every thread, the locks of the rows their updates hold, and the queue of the
broker.  A transaction reads what is committed when a statement is sent, and its own
effects, which is `READ COMMITTED`.  The world keeps its history: the operations, their
answers, and the effects every commit had.
-/

namespace WorkerTemplate

/-! ### Rows and locks -/

/-- A row of one of the tables. -/
inductive RowKey where
  | execution (id : UUID)
  | attempt (id : Option ℕ)
  deriving DecidableEq

/-- The row a statement locks until its transaction ends; a flush without changed columns locks
none. -/
def Statement.locks : Statement → Option RowKey
  | .updateExecution i c => if c = {} then none else some (.execution i)
  | .updateAttempt i _ => some (.attempt i)
  | .selectExecution _ _ => none
  | .selectAttempt _ => none
  | .insertAttempt _ => none

/-- A flush locks at most its execution. -/
theorem Statement.eq_of_locks_updateExecution {i : UUID} {c : ExecutionChanges} {key : RowKey}
    (h : (Statement.updateExecution i c).locks = some key) :
  key = .execution i
  := by
  rw [Statement.locks] at h
  split at h
  case isTrue => cases h
  case isFalse => exact (Option.some_injective _ h).symm

/-- What a statement may answer in a database.  The time of creation of an attempt is the
beginning of its transaction, so any of the attempts that satisfy a `WHERE` clause may be
the last created one when their transactions overlapped. -/
def Database.Answers (db : Database) : (s : Statement) → s.Answer → Prop
  | .selectAttempt filter, none => ∀ row ∈ db.attempts, filter.holds row = false
  | .selectAttempt filter, some row => row ∈ db.attempts ∧ filter.holds row = true
  | .selectExecution i tenantId, r => r = db.answer (.selectExecution i tenantId)
  | .updateExecution _ _, _ => True
  | .insertAttempt _, _ => True
  | .updateAttempt _ _, _ => True

/-! ### The shared world -/

/-- An operation of the past, with the thread that performed it, its answer, and the effects
that were committed by it. -/
structure Entry where
  thread : ℕ
  op : Op
  answer : op.Answer
  effects : List Effect := []

/-- The world that threads share. -/
structure Cluster where
  db : Database
  /-- The effects of the open transaction of a thread. -/
  txn : ℕ → List Effect := fun _ => []
  /-- The thread whose transaction holds the lock of a row. -/
  locked : RowKey → Option ℕ := fun _ => none
  /-- The messages that wait for their delivery. -/
  queue : List TaskiqMessage := []
  /-- What the body does when it is run for the `n`-th time. -/
  outcomes : ℕ → Option PyException := fun _ => none
  /-- The operations performed so far, the last one first. -/
  history : List Entry := []

/-- Whether an operation was the run of a body. -/
def Entry.isRun (e : Entry) : Bool :=
  match e.op with
  | .body _ => true
  | _ => false

/-- An effect changes columns of an execution. -/
def Effect.updates (i : UUID) : Effect → Bool
  | .updateExecution j c => j = i && c ≠ {}
  | _ => false

/-- Whether an operation committed an update of an execution. -/
def Entry.updates (i : UUID) (e : Entry) : Bool := e.effects.any (Effect.updates i)

namespace Cluster

variable (w : Cluster) (t : ℕ)

/-- The database as the open transaction of a thread reads it. -/
def view : Database := w.db.view (w.txn t)

/-- The world in which the transaction of a thread is over. -/
def release : Cluster :=
  { w with
    txn := Function.update w.txn t []
    locked := fun row => if w.locked row = some t then none else w.locked row }

/-- The world in which the transaction of a thread is committed. -/
def commit : Cluster := { w.release t with db := w.view t }

/-- The world after a statement of a thread. -/
def push (s : Statement) : Cluster :=
  { w with
    txn := Function.update w.txn t (w.txn t ++ s.effects)
    locked := fun row => if s.locks = some row then some t else w.locked row }

/-- The world in which a message waits for its delivery. -/
def enqueue (message : TaskiqMessage) : Cluster := { w with queue := w.queue ++ [message] }

/-- The world that remembers an operation. -/
def record (o : Op) (r : o.Answer) (effects : List Effect) : Cluster :=
  { w with history := { thread := t, op := o, answer := r, effects } :: w.history }

/-- A statement waits for the transaction of another thread. -/
def Blocked (s : Statement) : Prop :=
  ∃ row t', s.locks = some row ∧ w.locked row = some t' ∧ t' ≠ t

instance (s : Statement) : Decidable (w.Blocked t s) :=
  match hs : s.locks with
  | none => isFalse (by rintro ⟨row, t', hrow, -⟩; simp [hs] at hrow)
  | some row =>
      match ht : w.locked row with
      | none => isFalse (by rintro ⟨row', t', hrow, ht', -⟩; simp_all)
      | some t' =>
          if heq : t' = t then isFalse (by rintro ⟨row', t'', hrow, ht', hne⟩; simp_all)
          else isTrue ⟨row, t', hs, ht, heq⟩

/-- The number of bodies that have been run. -/
def runs : ℕ := w.history.countP Entry.isRun

/-- What may fail in a cluster. -/
structure Faults where
  /-- A statement or a commit may raise. -/
  failures : Prop := True
  /-- The broker may reject a message. -/
  rejections : Prop := True
  /-- A worker may crash. -/
  crashes : Prop := True

/-- Everything may fail. -/
def Faults.any : Faults := {}

/-- What an operation of a thread does to the world, and its answer. -/
inductive Performs (faults : Faults) (t : ℕ) :
    (o : Op) → Cluster → o.Answer → Cluster → Prop where
  | opens {w : Cluster} :
      Performs faults t .openSession w () ((w.release t).record t .openSession () [])
  | closes {w : Cluster} :
      Performs faults t .closeSession w () ((w.release t).record t .closeSession () [])
  | answers {w : Cluster} {s : Statement} {r : s.Answer} (free : ¬ w.Blocked t s)
      (answers : (w.view t).Answers s r) :
      Performs faults t (.statement s) w (.ok r) ((w.push t s).record t (.statement s) (.ok r) [])
  | fails {w : Cluster} {s : Statement} (failures : faults.failures) :
      Performs faults t (.statement s) w (.error .driver)
        ((w.release t).record t (.statement s) (.error .driver) [])
  | commits {w : Cluster} :
      Performs faults t .commit w (.ok ()) ((w.commit t).record t .commit (.ok ()) (w.txn t))
  | lost {w : Cluster} (failures : faults.failures) :
      Performs faults t .commit w (.error .driver)
        ((w.release t).record t .commit (.error .driver) [])
  | applied {w : Cluster} (failures : faults.failures) :
      Performs faults t .commit w (.error .driver)
        ((w.commit t).record t .commit (.error .driver) (w.txn t))
  | now {w : Cluster} (time : Time) :
      Performs faults t .now w time (w.record t .now time [])
  | accepts {w : Cluster} {message : TaskiqMessage} :
      Performs faults t (.kiq message) w true
        ((w.enqueue message).record t (.kiq message) true [])
  | rejects {w : Cluster} {message : TaskiqMessage} (rejections : faults.rejections) :
      Performs faults t (.kiq message) w false (w.record t (.kiq message) false [])
  | emits {w : Cluster} {room : Text} {event : TaskEvent} (r : Bool) :
      Performs faults t (.emit room event) w r (w.record t (.emit room event) r [])
  | runs {w : Cluster} {message : TaskiqMessage} :
      Performs faults t (.body message) w (w.outcomes w.runs)
        (w.record t (.body message) (w.outcomes w.runs) [])

end Cluster

/-- The program of a thread that runs a hook and forgets how it ends. -/
def Hook.thread (h : Hook Unit) (s : Invocation) : Program Op.Answer PUnit := do
  let _ ← h.program s
  pure ⟨⟩

/-- Workers that share a cluster, and spawn programs as `spawns` says. -/
def workers (faults : Cluster.Faults)
    (spawns : Cluster → Program Op.Answer PUnit → Cluster → Prop) :
    Machine Op.Answer Cluster where
  exec t o w r w' := Cluster.Performs faults t o w r w'
  spawn := spawns
  crash t w w' := faults.crashes ∧ w' = w.release t

/-- A thread follows a protocol when its hook obeys it, however the hook ends. -/
theorem Hook.follows_thread {σ : Type} {P : Protocol Op.Answer σ} {final : σ → Prop}
    {h : Hook Unit} {s : Invocation} {c : σ} (hobeys : h.Obeys P (fun _ _ c' => final c') s c) :
  (h.thread s).Follows P (fun _ => final) c
  := by
  rw [Hook.thread, Program.follows_bind]
  apply hobeys

/-! ### Frames -/

namespace Cluster

variable (w : Cluster) (t t' : ℕ)

@[simp]
theorem db_record (o : Op) (r : o.Answer) (es : List Effect) :
  (w.record t o r es).db = w.db
  := rfl

@[simp]
theorem txn_record (o : Op) (r : o.Answer) (es : List Effect) :
  (w.record t o r es).txn = w.txn
  := rfl

@[simp]
theorem history_record (o : Op) (r : o.Answer) (es : List Effect) :
  (w.record t o r es).history = { thread := t, op := o, answer := r, effects := es } :: w.history
  := rfl

@[simp]
theorem db_release : (w.release t).db = w.db := rfl

@[simp]
theorem db_commit : (w.commit t).db = w.view t := rfl

@[simp]
theorem db_push (s : Statement) : (w.push t s).db = w.db := rfl

@[simp]
theorem txn_release : (w.release t).txn = Function.update w.txn t [] := rfl

@[simp]
theorem txn_commit : (w.commit t).txn = Function.update w.txn t [] := rfl

@[simp]
theorem txn_push (s : Statement) :
  (w.push t s).txn = Function.update w.txn t (w.txn t ++ s.effects)
  := rfl

@[simp]
theorem history_release : (w.release t).history = w.history := rfl

@[simp]
theorem history_commit : (w.commit t).history = w.history := rfl

@[simp]
theorem history_push (s : Statement) : (w.push t s).history = w.history := rfl

/-! ### What an operation leaves alone -/

variable {w : Cluster} {t t' : ℕ} {faults : Faults} {o : Op} {r : o.Answer} {w' : Cluster}

/-- An operation of a thread leaves the transactions of the other threads alone. -/
theorem Performs.txn_of_ne (h : w.Performs faults t o r w') (hne : t' ≠ t) :
  w'.txn t' = w.txn t'
  := by
  cases h with
  | opens => simp [hne]
  | closes => simp [hne]
  | answers => simp [hne]
  | fails => simp [hne]
  | commits => simp [hne]
  | lost => simp [hne]
  | applied => simp [hne]
  | now => rfl
  | accepts => rfl
  | rejects => rfl
  | emits => rfl
  | runs => rfl

/-- The effects of an open transaction come from its statements. -/
theorem Performs.of_mem_txn (h : w.Performs faults t o r w') {e : Effect} (he : e ∈ w'.txn t) :
  e ∈ w.txn t ∨ ∃ s, o = .statement s ∧ e ∈ s.effects
  := by
  cases h with
  | opens => simp at he
  | closes => simp at he
  | @answers w s r free answers =>
      simp only [txn_record, txn_push, Function.update_self, List.mem_append] at he
      apply he.imp_right (fun he => ⟨s, rfl, he⟩)
  | fails => simp at he
  | commits => simp at he
  | lost => simp at he
  | applied => simp at he
  | now => exact Or.inl he
  | accepts => exact Or.inl he
  | rejects => exact Or.inl he
  | emits => exact Or.inl he
  | runs => exact Or.inl he

/-- An operation is remembered.  It leaves the committed database alone, or it commits the
transaction of its thread. -/
theorem Performs.remembered (h : w.Performs faults t o r w') :
  ∃ es, w'.history = { thread := t, op := o, answer := r, effects := es } :: w.history ∧
    (es = [] ∧ w'.db = w.db ∨ o = .commit ∧ es = w.txn t ∧ w'.db = w.view t)
  := by
  cases h with
  | opens => exact ⟨_, rfl, Or.inl ⟨rfl, rfl⟩⟩
  | closes => exact ⟨_, rfl, Or.inl ⟨rfl, rfl⟩⟩
  | answers => exact ⟨_, rfl, Or.inl ⟨rfl, rfl⟩⟩
  | fails => exact ⟨_, rfl, Or.inl ⟨rfl, rfl⟩⟩
  | commits => exact ⟨_, rfl, Or.inr ⟨rfl, rfl, rfl⟩⟩
  | lost => exact ⟨_, rfl, Or.inl ⟨rfl, rfl⟩⟩
  | applied => exact ⟨_, rfl, Or.inr ⟨rfl, rfl, rfl⟩⟩
  | now => exact ⟨_, rfl, Or.inl ⟨rfl, rfl⟩⟩
  | accepts => exact ⟨_, rfl, Or.inl ⟨rfl, rfl⟩⟩
  | rejects => exact ⟨_, rfl, Or.inl ⟨rfl, rfl⟩⟩
  | emits => exact ⟨_, rfl, Or.inl ⟨rfl, rfl⟩⟩
  | runs => exact ⟨_, rfl, Or.inl ⟨rfl, rfl⟩⟩

/-- An operation leaves the committed database alone or commits the transaction of its
thread. -/
theorem Performs.db (h : w.Performs faults t o r w') :
  w'.db = w.db ∨ w'.db = w.view t
  := by
  obtain ⟨es, -, ⟨-, hdb⟩ | ⟨-, -, hdb⟩⟩ := h.remembered
  · exact Or.inl hdb
  · exact Or.inr hdb

end Cluster

/-! ### Runs -/

variable {faults : Cluster.Faults} {spawns : Cluster → Program Op.Answer PUnit → Cluster → Prop}
  {c c' : Machine.Config Op.Answer Cluster}

/-- A step of workers whose spawns leave the world alone is an operation of a thread, or leaves
the committed database and the history alone. -/
theorem performs_or_eq_of_step (hspawns : ∀ w p w', spawns w p w' → w' = w)
    (hstep : (workers faults spawns).Step c c') :
  (∃ (t : ℕ) (o : Op) (r : o.Answer), t < c.threads.length ∧
      c.world.Performs faults t o r c'.world) ∨
    c'.world.db = c.world.db ∧ c'.world.history = c.world.history
  := by
  cases hstep with
  | exec thread exec =>
      exact Or.inl ⟨_, _, _, (List.getElem?_eq_some_iff.mp thread).1, exec⟩
  | spawn spawn =>
      cases hspawns _ _ _ spawn
      exact Or.inr ⟨rfl, rfl⟩
  | crash thread crash =>
      obtain ⟨-, rfl⟩ := crash
      exact Or.inr ⟨rfl, rfl⟩

/-- A run only adds to the history. -/
theorem history_of_reaches (hspawns : ∀ w p w', spawns w p w' → w' = w)
    (hc : Relation.ReflTransGen (workers faults spawns).Step c c') :
  ∃ es, c'.world.history = es ++ c.world.history
  := by
  induction hc with
  | refl => exact ⟨[], rfl⟩
  | tail _ hstep ih =>
      obtain ⟨es, hes⟩ := ih
      rcases performs_or_eq_of_step hspawns hstep with ⟨t, o, r, -, hperforms⟩ | ⟨-, hhistory⟩
      · obtain ⟨effects, hhistory, -⟩ := hperforms.remembered
        exact ⟨_ :: es, hhistory.trans (congrArg _ hes)⟩
      · exact ⟨es, hhistory.trans hes⟩

end WorkerTemplate
