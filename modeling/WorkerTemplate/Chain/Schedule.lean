import WorkerTemplate.Chain.World

/-!
# Schedules of a chain

A schedule of a chain also says when a worker takes the message that waits.  Making its moves
computes a configuration that the workers of the chain reach.
-/

namespace WorkerTemplate

/-- A move in a chain: a worker takes the first message, or a thread performs at most `n`
operations. -/
inductive Move where
  | take (settings : Settings)
  | run (t n : ℕ)

namespace Move

/-- The configuration after a move. -/
def make : Move → Machine.Config Op.Answer Cluster → Option (Machine.Config Op.Answer Cluster)
  | .take settings, c =>
      match c.world.queue with
      | [] => none
      | message :: rest =>
          let p := (Hook.deliver settings message).thread { result := Hook.succeeded }
          some ⟨c.threads ++ [p], { c.world with queue := rest }⟩
  | .run t n, c => Turn.advances {} t n c

/-- The configuration after the moves of a schedule. -/
def makeAll : List Move → Machine.Config Op.Answer Cluster →
    Option (Machine.Config Op.Answer Cluster)
  | [], c => some c
  | move :: moves, c => (move.make c).bind (makeAll moves)

/-- A worker that takes a message is one of the chain. -/
def Permitted (chain : Chain) : Move → Prop
  | .take settings => chain.employs settings
  | .run _ _ => True

variable {chain : Chain} {c c' : Machine.Config Op.Answer Cluster}

theorem reaches_of_make {move : Move} (h : move.Permitted chain) (hmove : move.make c = some c') :
  Relation.ReflTransGen chain.machine.Step c c'
  := by
  cases move with
  | take settings =>
      obtain ⟨ps, w⟩ := c
      simp only [make] at hmove
      split at hmove
      · cases hmove
      case h_2 message rest hqueue =>
        cases hmove
        apply Relation.ReflTransGen.single
        exact .spawn ⟨settings, message, _, [], rest, h, hqueue, rfl, rfl⟩
  | run t n =>
      apply Turn.reaches_of_advances _ hmove
      exact ⟨by rintro ⟨⟩, by rintro ⟨⟩⟩

/-- A schedule of permitted moves leads to a configuration that the workers reach. -/
theorem reaches_of_makeAll {moves : List Move} (h : ∀ move ∈ moves, move.Permitted chain)
    (hmoves : makeAll moves c = some c') :
  Relation.ReflTransGen chain.machine.Step c c'
  := by
  induction moves generalizing c with
  | nil =>
      cases hmoves
      rfl
  | cons move moves ih =>
      obtain ⟨c₁, hfirst, hrest⟩ := Option.bind_eq_some_iff.mp hmoves
      have hreach := reaches_of_make (h move (List.mem_cons_self ..)) hfirst
      apply hreach.trans (ih (fun move hmove => h move (List.mem_cons_of_mem _ hmove)) hrest)

/-- A schedule reaches a configuration with a property that the configuration it computes
has. -/
theorem exists_reachable {moves : List Move} {w : Cluster}
    (h : ∀ move ∈ moves, move.Permitted chain) {p : Machine.Config Op.Answer Cluster → Bool}
    (hp : (makeAll moves ⟨[], w⟩).any p = true) :
  ∃ c, chain.machine.Reachable w c ∧ p c = true
  := by
  obtain ⟨c, hc, hpc⟩ := (Option.any_eq_true _ _).mp hp
  exact ⟨c, reaches_of_makeAll h hc, hpc⟩

end Move

namespace Example

/-- A chain of the execution of the message. -/
def chain (maxRetries : ℕ) (outcomes : ℕ → Option PyException) : Chain where
  execution := taskExecutionId
  message := message
  tenantId := tenantId
  maxRetries := maxRetries
  employs s := s = settings
  outcomes := outcomes

/-- The first run of the body raises, and the others succeed. -/
def flaky : ℕ → Option PyException
  | 0 => some exception
  | _ => none

/-- The world in which the message of a new execution waits. -/
def waiting (maxRetries : ℕ) (outcomes : ℕ → Option PyException) : Cluster where
  db := { executions := [{ row 0 maxRetries with status := .pending }], attempts := [] }
  queue := [message]
  outcomes := outcomes

theorem sound_flaky (maxRetries : ℕ) :
  (chain maxRetries flaky).Sound
  where
  message := show Example.message.extractTaskExecutionId = some taskExecutionId by decide
  gate := by
    rintro _ rfl
    change settings.retryGateAllows Example.message.taskName Example.tenantId = true
    decide
  outcomes n := by
    cases n with
    | zero => simp [chain, flaky, exception]
    | succ n => simp [chain, flaky]
  employed := ⟨settings, rfl⟩

theorem starts_waiting (maxRetries : ℕ) (outcomes : ℕ → Option PyException) :
  (chain maxRetries outcomes).Starts (waiting maxRetries outcomes)
  where
  execution := ⟨{ row 0 maxRetries with status := .pending }, rfl, rfl, rfl, rfl, rfl⟩
  attempts := by rintro row ⟨⟩
  txn _ := rfl
  locked _ := rfl
  queue := rfl
  outcomes := rfl
  history := rfl

/-- The worker that has sent the message announces its retry when the next one has finished. -/
def late : List Move :=
  [.take settings, .run 0 23, .take settings, .run 1 100, .run 0 1]

theorem permitted_late (maxRetries : ℕ) (outcomes : ℕ → Option PyException) :
  ∀ move ∈ late, move.Permitted (chain maxRetries outcomes)
  := by
  simp [late, Move.Permitted, chain]

end Example

end WorkerTemplate
