import WorkerTemplate.Concurrent.Cluster
import WorkerTemplate.Receiver

/-!
# Schedules

A schedule is a list of turns: a program is spawned, a thread performs a number of operations,
or its worker stops.  Running a schedule computes a configuration that the workers reach.
-/

namespace WorkerTemplate

/-- What fails while a thread has its turn. -/
structure Chance where
  /-- Statements and commits raise. -/
  fails : Bool := false
  /-- A commit that raises takes effect. -/
  applied : Bool := false
  /-- The broker accepts messages. -/
  accepts : Bool := true

/-- A turn of a schedule. -/
inductive Turn where
  | spawn (p : Program Op.Answer PUnit)
  /-- The worker of a thread stops. -/
  | crash (t : ℕ)
  /-- A thread performs at most `n` operations. -/
  | run (t n : ℕ) (chance : Chance)

namespace Chance

/-- What fails may fail. -/
def Permitted (faults : Cluster.Faults) (chance : Chance) : Prop :=
  (chance.fails = true → faults.failures) ∧ (chance.accepts = false → faults.rejections)

end Chance

/-- The answer of a database may be given to a statement. -/
theorem Database.answers_answer (db : Database) (s : Statement) :
  db.Answers s (db.answer s)
  := by
  cases s with
  | selectExecution i tenantId => rfl
  | updateExecution i c => trivial
  | insertAttempt row => trivial
  | updateAttempt i d => trivial
  | selectAttempt filter =>
      change db.Answers (.selectAttempt filter) (db.latestAttempt? filter)
      cases hlatest : db.latestAttempt? filter with
      | some row => apply Database.of_latestAttempt? hlatest
      | none =>
          intro row hrow
          by_contra hholds
          have hsome := Database.latestAttempt?_isSome hrow (Bool.of_not_eq_false hholds)
          simp [hlatest] at hsome

namespace Cluster

/-- What an operation of a thread does in a turn, unless it waits for another thread. -/
def perform? (chance : Chance) (t : ℕ) : (o : Op) → Cluster → Option (o.Answer × Cluster)
  | .openSession, w => some ((), (w.release t).record t .openSession () [])
  | .closeSession, w => some ((), (w.release t).record t .closeSession () [])
  | .statement s, w =>
      if chance.fails then
        some (.error .driver, (w.release t).record t (.statement s) (.error .driver) [])
      else if w.Blocked t s then none
      else
        let r := (w.view t).answer s
        some (.ok r, (w.push t s).record t (.statement s) (.ok r) [])
  | .commit, w =>
      if chance.fails then
        if chance.applied then
          some (.error .driver, (w.commit t).record t .commit (.error .driver) (w.txn t))
        else some (.error .driver, (w.release t).record t .commit (.error .driver) [])
      else some (.ok (), (w.commit t).record t .commit (.ok ()) (w.txn t))
  | .now, w => some (0, w.record t .now 0 [])
  | .kiq message, w =>
      if chance.accepts then some (true, (w.enqueue message).record t (.kiq message) true [])
      else some (false, w.record t (.kiq message) false [])
  | .emit room event, w => some (true, w.record t (.emit room event) true [])
  | .body message, w => some (w.outcomes w.runs, w.record t (.body message) (w.outcomes w.runs) [])

/-- What a turn does is what an operation may do. -/
theorem performs_of_perform? {faults : Faults} {chance : Chance} (h : chance.Permitted faults)
    {t : ℕ} {o : Op} {w w' : Cluster} {r : o.Answer}
    (hstep : w.perform? chance t o = some (r, w')) :
  w.Performs faults t o r w'
  := by
  obtain ⟨hfails, haccepts⟩ := h
  cases o with
  | openSession =>
      obtain ⟨⟩ := hstep
      exact .opens
  | closeSession =>
      obtain ⟨⟩ := hstep
      exact .closes
  | now =>
      obtain ⟨⟩ := hstep
      exact .now 0
  | emit room event =>
      obtain ⟨⟩ := hstep
      exact .emits true
  | body message =>
      obtain ⟨⟩ := hstep
      exact .runs
  | statement s =>
      simp only [perform?] at hstep
      split at hstep
      case isTrue hf =>
        obtain ⟨⟩ := hstep
        exact .fails (hfails hf)
      case isFalse =>
        split at hstep
        case isTrue => cases hstep
        case isFalse hfree =>
          obtain ⟨⟩ := hstep
          exact .answers hfree ((w.view t).answers_answer s)
  | commit =>
      simp only [perform?] at hstep
      split at hstep
      case isTrue hf =>
        split at hstep
        · obtain ⟨⟩ := hstep
          exact .applied (hfails hf)
        · obtain ⟨⟩ := hstep
          exact .lost (hfails hf)
      case isFalse =>
        obtain ⟨⟩ := hstep
        exact .commits
  | kiq message =>
      simp only [perform?] at hstep
      split at hstep
      case isTrue =>
        obtain ⟨⟩ := hstep
        exact .accepts
      case isFalse hrejected =>
        obtain ⟨⟩ := hstep
        exact .rejects (haccepts (by simpa using hrejected))

end Cluster

namespace Turn

/-- One operation of a thread; a thread that has finished does nothing. -/
def advance (chance : Chance) (t : ℕ) (c : Machine.Config Op.Answer Cluster) :
    Option (Machine.Config Op.Answer Cluster) :=
  match c.threads[t]? with
  | some (.perform o k) =>
      match c.world.perform? chance t o with
      | some (r, w) => some ⟨c.threads.set t (k r), w⟩
      | none => none
  | _ => some c

/-- At most `n` operations of a thread. -/
def advances (chance : Chance) (t : ℕ) : ℕ → Machine.Config Op.Answer Cluster →
    Option (Machine.Config Op.Answer Cluster)
  | 0, c => some c
  | n + 1, c => (advance chance t c).bind (advances chance t n)

/-- The configuration after a turn. -/
def take : Turn → Machine.Config Op.Answer Cluster → Option (Machine.Config Op.Answer Cluster)
  | .spawn p, c => some ⟨c.threads ++ [p], c.world⟩
  | .crash t, c =>
      match c.threads[t]? with
      | some _ => some ⟨c.threads.set t (.pure ⟨⟩), c.world.release t⟩
      | none => some c
  | .run t n chance, c => advances chance t n c

/-- The configuration after the turns of a schedule. -/
def takeAll : List Turn → Machine.Config Op.Answer Cluster →
    Option (Machine.Config Op.Answer Cluster)
  | [], c => some c
  | turn :: turns, c => (turn.take c).bind (takeAll turns)

variable {faults : Cluster.Faults}
  {spawns : Cluster → Program Op.Answer PUnit → Cluster → Prop}
  {c c' : Machine.Config Op.Answer Cluster}

/-- A turn may be taken. -/
def Permitted (faults : Cluster.Faults)
    (spawns : Cluster → Program Op.Answer PUnit → Cluster → Prop) : Turn → Prop
  | .spawn p => ∀ w, spawns w p w
  | .crash _ => faults.crashes
  | .run _ _ chance => chance.Permitted faults

theorem reaches_of_advance {chance : Chance} (h : chance.Permitted faults) {t : ℕ}
    (hstep : advance chance t c = some c') :
  Relation.ReflTransGen (workers faults spawns).Step c c'
  := by
  obtain ⟨ps, w⟩ := c
  simp only [advance] at hstep
  split at hstep
  case h_1 o k hthread =>
    split at hstep
    case h_1 r w' hperform =>
      obtain ⟨rfl⟩ := hstep
      apply Relation.ReflTransGen.single
      exact .exec hthread (Cluster.performs_of_perform? h hperform)
    case h_2 => cases hstep
  case h_2 =>
    obtain ⟨rfl⟩ := hstep
    rfl

theorem reaches_of_advances {chance : Chance} (h : chance.Permitted faults) {t n : ℕ}
    (hstep : advances chance t n c = some c') :
  Relation.ReflTransGen (workers faults spawns).Step c c'
  := by
  induction n generalizing c with
  | zero =>
      obtain ⟨rfl⟩ := hstep
      rfl
  | succ n ih =>
      obtain ⟨c₁, hfirst, hrest⟩ := Option.bind_eq_some_iff.mp hstep
      exact (reaches_of_advance h hfirst).trans (ih hrest)

/-- A schedule of permitted turns leads to a configuration that the workers reach. -/
theorem reaches_of_takeAll {turns : List Turn} (h : ∀ turn ∈ turns, turn.Permitted faults spawns)
    (hturns : takeAll turns c = some c') :
  Relation.ReflTransGen (workers faults spawns).Step c c'
  := by
  induction turns generalizing c with
  | nil =>
      obtain ⟨rfl⟩ := hturns
      rfl
  | cons turn turns ih =>
      obtain ⟨c₁, hfirst, hrest⟩ := Option.bind_eq_some_iff.mp hturns
      have hpermitted := h turn (List.mem_cons_self ..)
      have hreach : Relation.ReflTransGen (workers faults spawns).Step c c₁ := by
        cases turn with
        | spawn p =>
            obtain ⟨rfl⟩ := hfirst
            apply Relation.ReflTransGen.single
            exact .spawn (hpermitted c.world)
        | crash t =>
            obtain ⟨ps, w⟩ := c
            simp only [take] at hfirst
            split at hfirst
            case h_1 p hthread =>
              obtain ⟨rfl⟩ := hfirst
              apply Relation.ReflTransGen.single
              exact .crash hthread ⟨hpermitted, rfl⟩
            case h_2 =>
              obtain ⟨rfl⟩ := hfirst
              rfl
        | run t n chance => apply reaches_of_advances hpermitted hfirst
      apply hreach.trans (ih (fun turn hturn => h turn (List.mem_cons_of_mem _ hturn)) hrest)

/-- A schedule reaches a configuration with a property that the configuration it computes
has. -/
theorem exists_reachable {turns : List Turn} {w : Cluster}
    (h : ∀ turn ∈ turns, turn.Permitted faults spawns)
    {p : Machine.Config Op.Answer Cluster → Bool}
    (hp : (takeAll turns ⟨[], w⟩).any p = true) :
  ∃ c, (workers faults spawns).Reachable w c ∧ p c = true
  := by
  obtain ⟨c, hc, hpc⟩ := (Option.any_eq_true _ _).mp hp
  exact ⟨c, reaches_of_takeAll h hc, hpc⟩

/-- A schedule and another one after it reach two configurations with a property that the
configurations they compute have. -/
theorem exists_reachable_reaches {turns turns' : List Turn} {w : Cluster}
    (h : ∀ turn ∈ turns, turn.Permitted faults spawns)
    (h' : ∀ turn ∈ turns', turn.Permitted faults spawns)
    {p : Machine.Config Op.Answer Cluster → Machine.Config Op.Answer Cluster → Bool}
    (hp : (takeAll turns ⟨[], w⟩).any (fun c => (takeAll turns' c).any (p c)) = true) :
  ∃ c c', (workers faults spawns).Reachable w c ∧
    Relation.ReflTransGen (workers faults spawns).Step c c' ∧ p c c' = true
  := by
  obtain ⟨c, hc, hpc⟩ := exists_reachable h hp
  obtain ⟨c', hc', hpc'⟩ := (Option.any_eq_true _ _).mp hpc
  exact ⟨c, c', hc, reaches_of_takeAll h' hc', hpc'⟩

end Turn

namespace Example

/-- The cluster of a running execution. -/
def cluster (retryCount maxRetries : ℕ) : Cluster where
  db := { executions := [row retryCount maxRetries], attempts := [] }

/-- Nothing fails. -/
def calm : Cluster.Faults where
  failures := False
  rejections := False
  crashes := False

/-- A call of `on_error` for the message of the execution. -/
def errorThread : Program Op.Answer PUnit :=
  (Hook.onError settings message exception).thread failed

/-- The delivery of the message. -/
def delivery : Program Op.Answer PUnit := (Hook.deliver settings message).thread failed

/-- Two calls of `on_error` one after the other. -/
def consecutive : List Turn :=
  [.spawn errorThread, .run 0 100 {}, .spawn errorThread, .run 1 100 {}]

/-- Two calls of `on_error`, of which the first has read the execution before the second
begins. -/
def overlapping : List Turn :=
  [.spawn errorThread, .run 0 2 {}, .spawn errorThread, .run 1 100 {}, .run 0 100 {}]

end Example

end WorkerTemplate
