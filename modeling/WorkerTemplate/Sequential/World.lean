import WorkerTemplate.Hook

/-!
# One worker at a time

A world in which a single hook runs, under a plan of what fails.  Every transaction of a
session has a fate: it commits, its connection is lost, or its `COMMIT` takes effect and
raises all the same.  A transaction is lost by the statement that raises, or else by its
`COMMIT`, and leaves no effect.  As `OperationalError` ends a session, the fates of the
transactions of every session are all the patterns of errors a hook can meet.
-/

namespace WorkerTemplate

/-- What becomes of a transaction. -/
inductive Fate where
  | commits
  /-- The statement after the first `after` statements raises; when there is none, the
  commit raises, and is rolled back. -/
  | lost (after : ℕ)
  /-- The commit takes effect and raises. -/
  | applied
  deriving DecidableEq, Repr

/-- The fate of a transaction after one more statement, unless the statement raises. -/
def Fate.tick : Fate → Option Fate
  | .commits => some .commits
  | .lost 0 => none
  | .lost (k + 1) => some (.lost k)
  | .applied => some .applied

/-- What happens to one session: the fates of its transactions in turn, and whether the
broker accepts a message sent in the session. -/
structure SessionPlan where
  fate : ℕ → Fate
  accepts : Bool

/-- A world in which one hook runs. -/
structure World where
  db : Database
  /-- The effects of the open transaction. -/
  own : List Effect := []
  /-- The fate of the open transaction. -/
  fate : Fate := .commits
  /-- The fates of the later transactions of the open session. -/
  later : ℕ → Fate := fun _ => .commits
  /-- Whether the broker accepts a message in the open session. -/
  accepts : Bool := true
  /-- The plans of the sessions still to be opened. -/
  plan : ℕ → SessionPlan
  /-- The outcomes of the bodies still to be run. -/
  bodies : ℕ → Option PyException := fun _ => none
  /-- Whether publishing an event succeeds. -/
  emits : Bool := true
  /-- The messages the broker has accepted. -/
  sent : List TaskiqMessage := []
  /-- The events that were published, with their rooms. -/
  events : List (Text × TaskEvent) := []
  clock : Time := 0

namespace World

/-- The database as the open transaction reads it. -/
def view (w : World) : Database := w.db.view w.own

/-- The world after effects of the open transaction. -/
def push (w : World) (es : List Effect) : World := { w with own := w.own ++ es }

/-- The world in which the next session has been opened. -/
def opened (w : World) : World :=
  { w with
    own := []
    fate := (w.plan 0).fate 0
    later := fun n => (w.plan 0).fate (n + 1)
    accepts := (w.plan 0).accepts
    plan := fun n => w.plan (n + 1) }

/-- The world in which the open transaction has been rolled back. -/
def closed (w : World) : World := { w with own := [] }

/-- The world in which the open transaction has been committed. -/
def committed (w : World) : World :=
  { w with
    db := w.view
    own := []
    fate := w.later 0
    later := fun n => w.later (n + 1) }

/-- The world in which the connection is gone, with the committed database `db`. -/
def disconnected (w : World) (db : Database) : World :=
  { w with db := db, own := [], fate := .lost 0 }

/-- What an operation does to a world, and its answer. -/
def handle : (o : Op) → World → o.Answer × World
  | .openSession, w => ((), w.opened)
  | .closeSession, w => ((), w.closed)
  | .statement s, w =>
      match w.fate.tick with
      | none => (.error .driver, w)
      | some f => (.ok (w.view.answer s), { w.push s.effects with fate := f })
  | .commit, w =>
      match w.fate with
      | .commits => (.ok (), w.committed)
      | .lost _ => (.error .driver, w.disconnected w.db)
      | .applied => (.error .driver, w.disconnected w.view)
  | .now, w => (w.clock, { w with clock := w.clock + 1 })
  | .kiq message, w =>
      (w.accepts, if w.accepts then { w with sent := w.sent ++ [message] } else w)
  | .emit room event, w =>
      (w.emits, if w.emits then { w with events := w.events ++ [(room, event)] } else w)
  | .body _, w => (w.bodies 0, { w with bodies := fun n => w.bodies (n + 1) })

end World

namespace Hook

variable {α β : Type}

/-- The run of a hook: what it returns or raises, the objects it leaves, and the world. -/
def exec (h : Hook α) (s : Invocation) (w : World) :
    (Except OperationalError α × Invocation) × World :=
  (h.program s).run World.handle w

variable (s : Invocation) (w : World)

@[simp]
theorem exec_pure (a : α) :
  exec (pure a) s w = ((.ok a, s), w)
  := rfl

@[simp]
theorem exec_throw (e : OperationalError) :
  exec (throw e : Hook α) s w = ((.error e, s), w)
  := rfl

@[simp]
theorem exec_ofExcept (r : Except OperationalError α) :
  exec (ofExcept r) s w = ((r, s), w)
  := rfl

@[simp]
theorem exec_get :
  exec (get : Hook Invocation) s w = ((.ok s, s), w)
  := rfl

@[simp]
theorem exec_modify (f : Invocation → Invocation) :
  exec (modify f : Hook PUnit) s w = ((.ok ⟨⟩, f s), w)
  := rfl

@[simp]
theorem exec_perform (o : Op) :
  exec (perform o) s w = ((.ok (w.handle o).1, s), (w.handle o).2)
  := rfl

/-- A hook bound to another raises what it raises, or the other goes on from where it
returned. -/
theorem exec_bind (h : Hook α) (f : α → Hook β) :
  exec (h >>= f) s w
    = match exec h s w with
      | ((.ok a, s'), w') => exec (f a) s' w'
      | ((.error e, s'), w') => ((.error e, s'), w')
  := by
  unfold exec
  rw [program_bind, Program.run_bind]
  obtain ⟨⟨r, s'⟩, w'⟩ := (h.program s).run World.handle w
  cases r with
  | ok a => rfl
  | error e => rfl

/-- A hook goes on from where it returned. -/
theorem exec_bind_ok {h : Hook α} {f : α → Hook β} {s s' : Invocation} {w w' : World} {a : α}
    (hrun : exec h s w = ((.ok a, s'), w')) :
  exec (h >>= f) s w = exec (f a) s' w'
  := by
  rw [exec_bind, hrun]

/-- A hook raises what its first part raises. -/
theorem exec_bind_error {h : Hook α} {f : α → Hook β} {s s' : Invocation} {w w' : World}
    {e : OperationalError} (hrun : exec h s w = ((.error e, s'), w')) :
  exec (h >>= f) s w = ((.error e, s'), w')
  := by
  rw [exec_bind, hrun]

/-- What is raised is handled with the objects as they were when it was raised. -/
theorem exec_tryCatch (h : Hook α) (f : OperationalError → Hook α) :
  exec (tryCatch h f) s w
    = match exec h s w with
      | ((.ok a, s'), w') => ((.ok a, s'), w')
      | ((.error e, s'), w') => exec (f e) s' w'
  := by
  unfold exec
  rw [program_tryCatch, Program.run_bind]
  obtain ⟨⟨r, s'⟩, w'⟩ := (h.program s).run World.handle w
  cases r with
  | ok a => rfl
  | error e => rfl

end Hook

end WorkerTemplate
