import WorkerTemplate.Concurrent.Obeys
import WorkerTemplate.Middleware.StateTracking

/-!
# The parts in a chain of retries

In a chain of retries without failures one worker leads: it has taken the last message from the
queue, and nobody else writes the row of the execution or adds audit rows.  When it has recorded
a retry and sent its message on, it trails: it still marks its audit row and tells what it has
done, while the message may lead another worker to the end of the chain.
-/

namespace WorkerTemplate

/-- A chain of retries: an execution, its message and its row, the settings that workers have,
and what the body does when it is run for the `n`-th time. -/
structure Chain where
  execution : UUID
  message : TaskiqMessage
  tenantId : UUID
  maxRetries : ℕ
  employs : Settings → Prop
  outcomes : ℕ → Option PyException

/-- Whether a worker has announced the last status it has committed. -/
inductive Telling where
  /-- The worker has not committed a status. -/
  | nothing
  | due
  | told

/-- What the leading worker knows. -/
structure Lead where
  /-- The committed row, -/
  row : TaskExecution
  /-- and the row as the open transaction reads it. -/
  view : TaskExecution
  /-- What the body did, once it has been run. -/
  outcome : Option (Option PyException) := none
  /-- A pending audit row that has been read. -/
  seen : Option TaskAttempt := none
  /-- The open transaction reads no pending audit row. -/
  settled : Bool := false
  /-- The open transaction has written. -/
  dirty : Bool := false
  /-- The open transaction has added an audit row. -/
  noted : Bool := false
  /-- A retry has been committed, whose message is still to be sent. -/
  due : Bool := false
  telling : Telling := .nothing

/-- How far a trailing worker has marked its audit row. -/
inductive Mark where
  | wanted
  /-- The row has been read, and is pending. -/
  | found (row : TaskAttempt)
  /-- The open transaction has marked the row with a primary key. -/
  | marking (id : Option ℕ)
  | marked

/-- The part of a worker in the chain. -/
inductive Part where
  | leads (lead : Lead)
  /-- The worker has sent the message of a retry. -/
  | trails (n : ℕ) (mark : Mark) (telling : Telling)

namespace Lead

/-- The transaction is over, and another one begins. -/
def reset (lead : Lead) : Lead :=
  { lead with
    view := lead.row
    seen := none
    settled := false
    dirty := false
    noted := false }

/-- The open transaction reads no pending audit row. -/
def settle (lead : Lead) : Lead := { lead with seen := none, settled := true }

/-- The transaction is committed. -/
def commit (lead : Lead) : Lead :=
  { lead with
    row := lead.view
    seen := none
    settled := false
    dirty := false
    noted := false
    due := lead.noted
    telling := .due }

/-- The statements of a leading worker. -/
def Allows (i : UUID) (lead : Lead) : Statement → Prop
  | .selectExecution j none => j = i
  | .selectExecution _ (some _) => False
  | .selectAttempt (.pending j) => j = i ∧ lead.noted = false
  | .selectAttempt (.pendingOrDispatched j k) =>
      j = i ∧ k = lead.row.retryCount ∧ 1 ≤ k ∧ lead.noted = false
  | .updateExecution j _ => j = i
  | .insertAttempt row =>
      row.taskExecutionId = i ∧ row.attemptNumber = lead.row.retryCount + 1 ∧
        row.dispatchResult = .pending ∧ lead.settled = true ∧ lead.noted = false
  | .updateAttempt id d => d = .dispatched ∧ ∃ row, lead.seen = some row ∧ row.id = id

/-- What the leading worker knows after a statement has been answered. -/
def Moves (lead : Lead) : (st : Statement) → st.Answer → Lead → Prop
  | .selectExecution _ _, r, lead' => r = some lead.view ∧ lead' = lead
  | .selectAttempt (.pending _), r, lead' =>
      r = none ∧ lead' = lead.settle ∨
        ∃ row, r = some row ∧ row.attemptNumber = lead.row.retryCount ∧
          1 ≤ lead.row.retryCount ∧ lead' = lead
  | .selectAttempt (.pendingOrDispatched _ _), r, lead' =>
      ∃ row, r = some row ∧
        (row.dispatchResult = .pending ∧ lead.settled = false ∧
            lead' = { lead with seen := some row } ∨
          row.dispatchResult ≠ .pending ∧ lead' = lead.settle)
  | .updateExecution _ changes, _, lead' =>
      lead' = { lead with view := lead.view.set changes, dirty := true }
  | .insertAttempt _, _, lead' =>
      lead' = { lead with settled := false, dirty := true, noted := true }
  | .updateAttempt _ _, _, lead' => lead' = { lead.settle with dirty := true }

/-- A transaction may be committed when it has recorded a retry, with its audit row, or neither the
one nor the other.  The first one sets the status running. -/
def Commits (lead : Lead) : Prop :=
  (lead.telling = .nothing → lead.view.status = .running) ∧
    (lead.noted = false ∧ lead.view.retryCount = lead.row.retryCount ∨
      lead.noted = true ∧ lead.view.retryCount = lead.row.retryCount + 1 ∧
        lead.row.retryCount < lead.row.maxRetries ∧ lead.view.status = .retrying ∧
        ∃ exception, lead.outcome = some (some exception))

end Lead

/-- The statements of a trailing worker. -/
def Mark.Allows (i : UUID) (n : ℕ) (mark : Mark) : Statement → Prop
  | .selectAttempt (.pendingOrDispatched j k) => j = i ∧ k = n ∧ mark = .wanted
  | .updateAttempt id d => d = .dispatched ∧ ∃ row, mark = .found row ∧ row.id = id
  | _ => False

/-- How far a trailing worker is after a statement has been answered. -/
def Mark.Moves : (st : Statement) → st.Answer → Mark → Prop
  | .selectAttempt _, r, mark' =>
      ∃ row, r = some row ∧ (row.dispatchResult = .pending ∧ mark' = .found row ∨
        row.dispatchResult ≠ .pending ∧ mark' = .marked)
  | .updateAttempt id _, _, mark' => mark' = .marking id
  | _, _, _ => False

/-- The operations of a worker by its part. -/
def Part.Allows (chain : Chain) : Part → Op → Prop
  | .leads _, .now => True
  | .leads lead, .openSession => lead.due = false
  | .leads lead, .closeSession => lead.due = false
  | .leads lead, .statement st => lead.due = false ∧ lead.Allows chain.execution st
  | .leads lead, .commit => lead.due = false ∧ lead.Commits
  | .leads lead, .kiq message => lead.due = true ∧ message = chain.message
  | .leads lead, .emit _ event => lead.telling = .due ∧ event.status = lead.row.status.value
  | .leads lead, .body _ => lead.due = false ∧ lead.outcome = none
  | .trails n mark _, .statement st => mark.Allows chain.execution n st
  | .trails _ mark _, .commit => mark = .marked ∨ ∃ id, mark = .marking id
  | .trails _ mark _, .closeSession => mark = .marked
  | .trails _ _ telling, .emit _ event =>
      telling = .due ∧ event.status = TaskStatus.retrying.value
  | .trails _ _ _, _ => False

/-- The part of a worker after an operation has been answered, when nothing fails. -/
def Part.Moves (chain : Chain) : Part → (o : Op) → o.Answer → Part → Prop
  | .leads lead, .now, _, part' => part' = .leads lead
  | .leads lead, .openSession, _, part' => part' = .leads lead.reset
  | .leads lead, .closeSession, _, part' => part' = .leads lead.reset
  | .leads lead, .statement st, r, part' =>
      ∃ a lead', r = .ok a ∧ part' = .leads lead' ∧ lead.Moves st a lead'
  | .leads lead, .commit, r, part' => r = .ok () ∧ part' = .leads lead.commit
  | .leads lead, .kiq _, r, part' =>
      r = true ∧ part' = .trails lead.row.retryCount .wanted lead.telling
  | .leads lead, .emit _ _, _, part' => part' = .leads { lead with telling := .told }
  | .leads lead, .body _, r, part' =>
      r = chain.outcomes lead.row.retryCount ∧ part' = .leads { lead with outcome := some r }
  | .trails n _ telling, .statement st, r, part' =>
      ∃ a mark', r = .ok a ∧ part' = .trails n mark' telling ∧ Mark.Moves st a mark'
  | .trails n _ telling, .commit, r, part' => r = .ok () ∧ part' = .trails n .marked telling
  | .trails n mark telling, .closeSession, _, part' => part' = .trails n mark telling
  | .trails n mark _, .emit _ _, _, part' => part' = .trails n mark .told
  | .trails _ _ _, _, _, _ => False

/-- The protocol of the workers in a chain. -/
def chained (chain : Chain) : Protocol Op.Answer Part where
  allows := Part.Allows chain
  moves := Part.Moves chain

/-! ### Parts of a hook -/

namespace Hook

variable {chain : Chain} {α β : Type} {s : Invocation} {part : Part}

/-- A part of a hook in a chain returns, and leaves `Q`. -/
def Yields (chain : Chain) (h : Hook α) (Q : α → Invocation → Part → Prop) (s : Invocation)
    (part : Part) : Prop :=
  Obeys (chained chain) h (fun r s' part' => ∃ a, r = .ok a ∧ Q a s' part') s part

variable {Q Q' : α → Invocation → Part → Prop}

theorem Yields.mono {h : Hook α} (hh : Yields chain h Q s part)
    (hQ : ∀ a s' part', Q a s' part' → Q' a s' part') :
  Yields chain h Q' s part
  := by
  apply Obeys.mono hh
  rintro r s' part' ⟨a, rfl, ha⟩
  exact ⟨a, rfl, hQ a s' part' ha⟩

/-- Parts of a hook compose. -/
theorem Yields.bind {h : Hook α} {f : α → Hook β} {Q' : β → Invocation → Part → Prop}
    (hh : Yields chain h Q s part)
    (hf : ∀ a s' part', Q a s' part' → Yields chain (f a) Q' s' part') :
  Yields chain (h >>= f) Q' s part
  := by
  rw [Yields, obeys_bind]
  apply Obeys.mono hh
  rintro r s' part' ⟨a, rfl, ha⟩
  rw [next_ok]
  apply hf a s' part' ha

theorem yields_pure {a : α} (hQ : Q a s part) :
  Yields chain (pure a) Q s part
  := ⟨a, rfl, hQ⟩

/-- Reading the objects. -/
theorem yields_get_bind {f : Invocation → Hook β} {Q : β → Invocation → Part → Prop}
    (hf : Yields chain (f s) Q s part) :
  Yields chain (get >>= f) Q s part
  := by
  rw [Yields, obeys_bind, obeys_get, next_ok]
  apply hf

/-- Changing the objects. -/
theorem yields_modify_bind {f : Invocation → Invocation} {g : PUnit → Hook β}
    {Q : β → Invocation → Part → Prop} (hg : Yields chain (g ⟨⟩) Q (f s) part) :
  Yields chain (modify f >>= g) Q s part
  := by
  rw [Yields, obeys_bind, obeys_modify, next_ok]
  apply hg

/-- An operation outside of the database. -/
theorem yields_perform_bind {o : Op} {f : o.Answer → Hook β} {Q : β → Invocation → Part → Prop}
    (hallows : part.Allows chain o)
    (hf : ∀ r part', part.Moves chain o r part' → Yields chain (f r) Q s part') :
  Yields chain (perform o >>= f) Q s part
  := by
  rw [Yields, obeys_bind, obeys_perform]
  exact ⟨hallows, hf⟩

/-- A statement is answered. -/
theorem yields_execute {st : Statement} {Q : st.Answer → Invocation → Part → Prop}
    (hallows : part.Allows chain (.statement st))
    (hQ : ∀ r part', part.Moves chain (.statement st) r part' → ∃ a, r = .ok a ∧ Q a s part') :
  Yields chain (execute st) Q s part
  := by
  rw [Yields, obeys_execute]
  exact ⟨hallows, hQ⟩

/-- A statement of the leading worker. -/
theorem yields_leads_execute {lead : Lead} {st : Statement}
    {Q : st.Answer → Invocation → Part → Prop} (hdue : lead.due = false)
    (hallows : lead.Allows chain.execution st)
    (hQ : ∀ a lead', lead.Moves st a lead' → Q a s (.leads lead')) :
  Yields chain (execute st) Q s (.leads lead)
  := by
  apply yields_execute
  · exact ⟨hdue, hallows⟩
  · rintro r part' ⟨a, lead', rfl, rfl, hmoves⟩
    exact ⟨a, rfl, hQ a lead' hmoves⟩

/-- The leading worker goes on from the answer to a statement. -/
theorem yields_leads_execute_bind {lead : Lead} {st : Statement} {f : st.Answer → Hook β}
    {Q : β → Invocation → Part → Prop} (hdue : lead.due = false)
    (hallows : lead.Allows chain.execution st)
    (hf : ∀ a lead', lead.Moves st a lead' → Yields chain (f a) Q s (.leads lead')) :
  Yields chain (execute st >>= f) Q s (.leads lead)
  := by
  have hexecute : Yields chain (execute st) (fun a s' part' => s' = s ∧ ∃ lead',
      part' = .leads lead' ∧ lead.Moves st a lead') s (.leads lead) := by
    apply yields_leads_execute hdue hallows
    intro a lead' hmoves
    exact ⟨rfl, lead', rfl, hmoves⟩
  apply hexecute.bind
  rintro a _ _ ⟨rfl, lead', rfl, hmoves⟩
  apply hf a lead' hmoves

/-- A statement of a trailing worker. -/
theorem yields_trails_execute_bind {n : ℕ} {mark : Mark} {telling : Telling} {st : Statement}
    {f : st.Answer → Hook β} {Q : β → Invocation → Part → Prop}
    (hallows : mark.Allows chain.execution n st)
    (hf : ∀ a mark', Mark.Moves st a mark' → Yields chain (f a) Q s (.trails n mark' telling)) :
  Yields chain (execute st >>= f) Q s (.trails n mark telling)
  := by
  have hexecute : Yields chain (execute st) (fun a s' part' => s' = s ∧ ∃ mark',
      part' = .trails n mark' telling ∧ Mark.Moves st a mark') s (.trails n mark telling) := by
    apply yields_execute
    · apply hallows
    · rintro r part' ⟨a, mark', rfl, rfl, hmoves⟩
      exact ⟨a, rfl, rfl, mark', rfl, hmoves⟩
  apply hexecute.bind
  rintro a _ _ ⟨rfl, mark', rfl, hmoves⟩
  apply hf a mark' hmoves

/-- A commit takes effect. -/
theorem yields_commit {Q : Unit → Invocation → Part → Prop} (hallows : part.Allows chain .commit)
    (hQ : ∀ r part', part.Moves chain .commit r part' → ∃ a, r = .ok a ∧ Q a s part') :
  Yields chain commit Q s part
  := by
  rw [Yields, obeys_commit]
  exact ⟨hallows, hQ⟩

/-- A session that returns is closed. -/
theorem yields_withSession {body : Hook α} (hopen : part.Allows chain .openSession)
    (hbody : ∀ part', part.Moves chain .openSession () part' →
      Yields chain body (fun a s' part₁ => part₁.Allows chain .closeSession ∧
        ∀ part₂, part₁.Moves chain .closeSession () part₂ → Q a s' part₂)
        { s with identityMap := fun _ => none } part') :
  Yields chain (withSession body) Q s part
  := by
  apply obeys_withSession hopen
  intro part' hmoves
  apply Obeys.mono (hbody part' hmoves)
  rintro r s' part₁ ⟨a, rfl, hclose, hQ⟩
  exact ⟨hclose, fun part₂ hmoves => ⟨a, rfl, hQ part₂ hmoves⟩⟩

/-- A call that returns is not repeated. -/
theorem Yields.dbRetry {call : Hook α} (hcall : Yields chain call Q s part) :
  Yields chain (dbRetry call) Q s part
  := by
  change Obeys _ (tryCatch call _) _ _ _
  rw [obeys_tryCatch]
  apply Obeys.mono hcall
  rintro r s' part' ⟨a, rfl, ha⟩
  exact ⟨a, rfl, ha⟩

end Hook

end WorkerTemplate
