import WorkerTemplate.Chain.Delivery
import WorkerTemplate.Concurrent.Schedule

/-!
# The world of a chain

Workers take the messages of the queue, each of them once, and nothing fails.  What the workers
know by their parts agrees with the world, the message is in the queue or with the one worker
that leads, and whoever is to mark a pending audit row has not yet done so.
-/

namespace WorkerTemplate

/-- A worker takes a message from the queue. -/
def Chain.Takes (chain : Chain) (w : Cluster) (p : Program Op.Answer PUnit) (w' : Cluster) : Prop :=
  ∃ (settings : Settings) (message : TaskiqMessage) (s : Invocation)
      (before after : List TaskiqMessage),
    chain.employs settings ∧ w.queue = before ++ message :: after ∧
      w' = { w with queue := before ++ after } ∧ p = (Hook.deliver settings message).thread s

/-- The workers of a chain. -/
def Chain.machine (chain : Chain) : Machine Op.Answer Cluster :=
  workers Example.calm chain.Takes

/-- The message of a new execution waits for its first delivery. -/
structure Chain.Starts (chain : Chain) (w : Cluster) : Prop where
  execution : ∃ row, w.db.execution? chain.execution = some row ∧ chain.Row 0 row
  attempts : ∀ row ∈ w.db.attempts, row.taskExecutionId ≠ chain.execution
  txn : ∀ t, w.txn t = []
  locked : ∀ key, w.locked key = none
  queue : w.queue = [chain.message]
  outcomes : w.outcomes = chain.outcomes
  history : w.history = []

/-! ### Parts in the world -/

/-- The rows that the open transaction of a worker may have locked. -/
def Part.Locks (i : UUID) : Part → RowKey → Prop
  | .leads lead, .execution j => j = i ∧ lead.dirty = true
  | .leads lead, .attempt _ => lead.dirty = true ∧ (lead.settled = true ∨ lead.noted = true)
  | .trails _ (.marking id) _, .attempt id' => id' = id
  | .trails _ _ _, _ => False

/-- A leading worker that has locked a row has written. -/
theorem Part.Locks.dirty {i : UUID} {lead : Lead} {key : RowKey}
    (h : (Part.leads lead).Locks i key) :
  lead.dirty = true
  := by
  cases key with
  | execution j => exact h.2
  | attempt id => exact h.1

/-- A trailing worker that has locked a row is marking it. -/
theorem Part.locks_trails {i : UUID} {k : ℕ} {mark : Mark} {telling : Telling} {key : RowKey} :
  (Part.trails k mark telling).Locks i key ↔ ∃ id, mark = .marking id ∧ key = .attempt id
  := by
  constructor
  · intro h
    cases mark with
    | marking id =>
        cases key with
        | execution j => exact absurd h not_false
        | attempt id' => exact ⟨id, rfl, congrArg _ h⟩
    | _ => exact absurd h not_false
  · rintro ⟨id, rfl, rfl⟩
    exact rfl

/-- A worker that is marking a row sends no statement. -/
theorem Mark.Allows.ne_marking {i : UUID} {k : ℕ} {mark : Mark} {st : Statement}
    (h : mark.Allows i k st) (id : Option ℕ) :
  mark ≠ .marking id
  := by
  rintro rfl
  cases st with
  | updateAttempt id' d =>
      obtain ⟨-, attempt, heq, -⟩ := h
      cases heq
  | selectAttempt filter =>
      cases filter with
      | pending j => apply h
      | pendingOrDispatched j k' =>
          obtain ⟨-, -, heq⟩ := h
          cases heq
  | _ => apply h

/-- A statement changes only what the leading worker knows of its transaction. -/
theorem Lead.Moves.same {lead lead' : Lead} {st : Statement} {r : st.Answer}
    (h : lead.Moves st r lead') :
  lead'.row = lead.row ∧ lead'.outcome = lead.outcome ∧ lead'.due = lead.due ∧
    lead'.telling = lead.telling
  := by
  cases st with
  | selectExecution j tenantId =>
      obtain ⟨-, rfl⟩ := h
      exact ⟨rfl, rfl, rfl, rfl⟩
  | updateExecution j changes =>
      obtain rfl := h
      exact ⟨rfl, rfl, rfl, rfl⟩
  | insertAttempt attempt =>
      obtain rfl := h
      exact ⟨rfl, rfl, rfl, rfl⟩
  | updateAttempt id d =>
      obtain rfl := h
      exact ⟨rfl, rfl, rfl, rfl⟩
  | selectAttempt filter =>
      cases filter with
      | pending j =>
          obtain ⟨-, rfl⟩ | ⟨_, -, -, -, rfl⟩ := h
          · exact ⟨rfl, rfl, rfl, rfl⟩
          · exact ⟨rfl, rfl, rfl, rfl⟩
      | pendingOrDispatched j k =>
          obtain ⟨_, -, ⟨-, -, rfl⟩ | ⟨-, rfl⟩⟩ := h
          · exact ⟨rfl, rfl, rfl, rfl⟩
          · exact ⟨rfl, rfl, rfl, rfl⟩

/-- A statement keeps the locks of the leading worker. -/
theorem Lead.Moves.locks {lead lead' : Lead} {st : Statement} {r : st.Answer}
    (h : lead.Moves st r lead') {i : UUID} {key : RowKey} (hlocks : (Part.leads lead).Locks i key) :
  (Part.leads lead').Locks i key
  := by
  cases st with
  | selectExecution j tenantId =>
      obtain ⟨-, rfl⟩ := h
      apply hlocks
  | updateExecution j changes =>
      obtain rfl := h
      cases key with
      | execution j => exact ⟨hlocks.1, rfl⟩
      | attempt id => exact ⟨rfl, hlocks.2⟩
  | insertAttempt attempt =>
      obtain rfl := h
      cases key with
      | execution j => exact ⟨hlocks.1, rfl⟩
      | attempt id => exact ⟨rfl, Or.inr rfl⟩
  | updateAttempt id d =>
      obtain rfl := h
      cases key with
      | execution j => exact ⟨hlocks.1, rfl⟩
      | attempt id => exact ⟨rfl, Or.inl rfl⟩
  | selectAttempt filter =>
      have hsettle : (Part.leads lead.settle).Locks i key := by
        cases key with
        | execution j => apply hlocks
        | attempt id => exact ⟨hlocks.1, Or.inl rfl⟩
      cases filter with
      | pending j =>
          obtain ⟨-, rfl⟩ | ⟨_, -, -, -, rfl⟩ := h
          · apply hsettle
          · apply hlocks
      | pendingOrDispatched j k =>
          obtain ⟨_, -, ⟨-, -, rfl⟩ | ⟨-, rfl⟩⟩ := h
          · cases key with
            | execution j => apply hlocks
            | attempt id => apply hlocks
          · apply hsettle

/-- The lock of a statement is one of the leading worker. -/
theorem Lead.Moves.locks_of_eq {lead lead' : Lead} {st : Statement} {r : st.Answer}
    (h : lead.Moves st r lead') {i : UUID} (hallows : lead.Allows i st) {key : RowKey}
    (hkey : st.locks = some key) :
  (Part.leads lead').Locks i key
  := by
  cases st with
  | selectExecution j tenantId => cases hkey
  | insertAttempt attempt => cases hkey
  | selectAttempt filter => cases hkey
  | updateExecution j changes =>
      obtain rfl := Statement.eq_of_locks_updateExecution hkey
      obtain rfl := h
      exact ⟨hallows, rfl⟩
  | updateAttempt id d =>
      cases hkey
      obtain rfl := h
      exact ⟨rfl, Or.inl rfl⟩

/-- A worker is to mark the audit row of a retry. -/
def Part.Awaits (k : ℕ) : Part → Prop
  | .leads lead => lead.due = true ∧ lead.row.retryCount = k
  | .trails n mark _ => n = k ∧ mark ≠ .marked

/-- What a worker knows agrees with the database and the effects of its transaction. -/
def Part.Agrees (chain : Chain) (n : ℕ) (row : TaskExecution) (db : Database) (es : List Effect) :
    Part → Prop
  | .leads lead => lead.Agrees chain n row db es
  | .trails k mark _ => 1 ≤ k ∧ k ≤ n ∧ mark.Agrees chain.execution k db es

/-- The audit row of a retry is pending. -/
def Database.Pending (db : Database) (i : UUID) (k : ℕ) : Prop :=
  ∃ row ∈ db.attempts, row.taskExecutionId = i ∧ row.dispatchResult = .pending ∧
    row.attemptNumber = k

/-- The message is in the queue, and nobody leads. -/
structure Chain.Queued (chain : Chain) (n : ℕ) (parts : List Part) (w : Cluster) : Prop where
  lone : ∀ (t : ℕ) (lead : Lead), parts[t]? ≠ some (.leads lead)
  queue : w.queue = [chain.message]
  threads : parts.length = n
  runs : w.runs = n

/-- One worker leads, and the queue is empty. -/
structure Chain.Taken (n t : ℕ) (lead : Lead) (parts : List Part) (w : Cluster) : Prop where
  part : parts[t]? = some (.leads lead)
  lone : ∀ (t' : ℕ) (lead' : Lead), parts[t']? = some (.leads lead') → t' = t
  queue : w.queue = []
  threads : parts.length = if lead.due then n else n + 1
  runs : w.runs + (if lead.outcome.isSome then 0 else 1) = parts.length

/-- The state of a chain after `n` retries. -/
structure Chain.Invariant (chain : Chain) (n : ℕ) (row : TaskExecution) (parts : List Part)
    (w : Cluster) : Prop where
  records : chain.Records n row w.db
  le : n ≤ chain.maxRetries
  failed : ∀ k < n, chain.outcomes k ≠ none
  outcomes : w.outcomes = chain.outcomes
  agrees : ∀ (t : ℕ) (part : Part), parts[t]? = some part →
    part.Agrees chain n row w.db (w.txn t)
  idle : ∀ t, parts.length ≤ t → w.txn t = []
  locks : ∀ (key : RowKey) (t : ℕ), w.locked key = some t →
    ∃ part, parts[t]? = some part ∧ part.Locks chain.execution key
  pending : ∀ k, w.db.Pending chain.execution k →
    ∃ (t : ℕ) (part : Part), parts[t]? = some part ∧ part.Awaits k
  baton : chain.Queued n parts w ∨ ∃ t lead, Chain.Taken n t lead parts w

/-- The state at the beginning of a chain. -/
theorem Chain.Starts.invariant {chain : Chain} {w : Cluster} (h : chain.Starts w) :
  ∃ row, chain.Invariant 0 row [] w
  := by
  obtain ⟨row, hexecution, hrow⟩ := h.execution
  use row
  constructor
  case records => exact ⟨hexecution, hrow, Database.tallies_zero h.attempts⟩
  case le => exact Nat.zero_le _
  case failed => rintro k ⟨⟩
  case outcomes => exact h.outcomes
  case agrees =>
    intro t part hpart
    rw [List.getElem?_nil] at hpart
    cases hpart
  case idle =>
    intro t _
    apply h.txn t
  case locks =>
    intro key t hlocked
    rw [h.locked key] at hlocked
    cases hlocked
  case pending =>
    rintro k ⟨attempt, hattempt, hi, -⟩
    exact absurd hi (h.attempts attempt hattempt)
  case baton =>
    apply Or.inl
    constructor
    case lone =>
      intro t lead hpart
      rw [List.getElem?_nil] at hpart
      cases hpart
    case queue => exact h.queue
    case threads => rfl
    case runs =>
      rw [Cluster.runs, h.history]
      rfl

namespace Chain.Invariant

variable {chain : Chain} {n n' t : ℕ} {row row' : TaskExecution} {parts : List Part}
  {part part' : Part} {w w' : Cluster}

/-- What one worker does changes its part and what concerns it. -/
theorem set (h : chain.Invariant n row parts w) (hpart : parts[t]? = some part)
    (hrecords : chain.Records n' row' w'.db) (hle : n' ≤ chain.maxRetries)
    (hfailed : ∀ k < n', chain.outcomes k ≠ none) (houtcomes : w'.outcomes = w.outcomes)
    (hothers : ∀ (t' : ℕ) (part₁ : Part), t' ≠ t → parts[t']? = some part₁ →
      part₁.Agrees chain n row w.db (w.txn t') → part₁.Agrees chain n' row' w'.db (w.txn t'))
    (hagrees : part'.Agrees chain n' row' w'.db (w'.txn t))
    (htxn : ∀ t', t' ≠ t → w'.txn t' = w.txn t')
    (hlocks : ∀ (key : RowKey) (t' : ℕ), w'.locked key = some t' →
      t' = t ∧ part'.Locks chain.execution key ∨ t' ≠ t ∧ w.locked key = some t')
    (hpending : ∀ k, w'.db.Pending chain.execution k →
      part'.Awaits k ∨ ¬ part.Awaits k ∧ w.db.Pending chain.execution k)
    (hbaton : chain.Queued n' (parts.set t part') w' ∨
      ∃ t₁ lead, Chain.Taken n' t₁ lead (parts.set t part') w') :
  chain.Invariant n' row' (parts.set t part') w'
  := by
  have hlt : t < parts.length := (List.getElem?_eq_some_iff.mp hpart).1
  have hself : (parts.set t part')[t]? = some part' := List.getElem?_set_self hlt
  have hother {t' : ℕ} (hne : t' ≠ t) : (parts.set t part')[t']? = parts[t']? :=
    List.getElem?_set_ne hne.symm
  constructor
  case records => exact hrecords
  case le => exact hle
  case failed => exact hfailed
  case outcomes => rw [houtcomes, h.outcomes]
  case agrees =>
    intro t' part₁ hpart₁
    rcases Machine.state_of_set hpart₁ with ⟨rfl, rfl⟩ | ⟨hne, hpart₁⟩
    · apply hagrees
    · rw [htxn t' hne]
      apply hothers t' part₁ hne hpart₁ (h.agrees t' part₁ hpart₁)
  case idle =>
    intro t' ht'
    rw [List.length_set] at ht'
    rw [htxn t' (by omega)]
    apply h.idle t' ht'
  case locks =>
    intro key t' hlocked
    rcases hlocks key t' hlocked with ⟨rfl, hpart'⟩ | ⟨hne, hlocked⟩
    · exact ⟨part', hself, hpart'⟩
    · rw [hother hne]
      apply h.locks key t' hlocked
  case pending =>
    intro k hk
    rcases hpending k hk with hawaits | ⟨hnot, hk⟩
    · exact ⟨t, part', hself, hawaits⟩
    · obtain ⟨t', part₁, hpart₁, hawaits⟩ := h.pending k hk
      have hne : t' ≠ t := by
        rintro rfl
        rw [hpart] at hpart₁
        cases hpart₁
        apply hnot hawaits
      use t', part₁
      rw [hother hne]
      exact ⟨hpart₁, hawaits⟩
  case baton => exact hbaton

/-- The worker that leads has taken the message. -/
theorem taken (h : chain.Invariant n row parts w) {lead : Lead}
    (hpart : parts[t]? = some (.leads lead)) :
  Chain.Taken n t lead parts w
  := by
  rcases h.baton with hqueued | ⟨t', lead', htaken⟩
  · exact absurd hpart (hqueued.lone t lead)
  · obtain rfl := htaken.lone t lead hpart
    have heq := hpart.symm.trans htaken.part
    cases heq
    apply htaken

/-- What one worker does while the committed database stays as it is. -/
theorem keep (h : chain.Invariant n row parts w) (hpart : parts[t]? = some part)
    (hdb : w'.db = w.db) (houtcomes : w'.outcomes = w.outcomes)
    (hagrees : part'.Agrees chain n row w.db (w'.txn t))
    (htxn : ∀ t', t' ≠ t → w'.txn t' = w.txn t')
    (hlocks : ∀ (key : RowKey) (t' : ℕ), w'.locked key = some t' →
      t' = t ∧ part'.Locks chain.execution key ∨ t' ≠ t ∧ w.locked key = some t')
    (hawaits : ∀ k, w.db.Pending chain.execution k → part.Awaits k → part'.Awaits k)
    (hbaton : chain.Queued n (parts.set t part') w' ∨
      ∃ t₁ lead, Chain.Taken n t₁ lead (parts.set t part') w') :
  chain.Invariant n row (parts.set t part') w'
  := by
  apply h.set hpart
  case hrecords =>
    rw [hdb]
    apply h.records
  case hle => exact h.le
  case hfailed => exact h.failed
  case houtcomes => exact houtcomes
  case hothers =>
    intro t' part₁ _ _ hagrees₁
    rw [hdb]
    apply hagrees₁
  case hagrees =>
    rw [hdb]
    apply hagrees
  case htxn => exact htxn
  case hlocks => exact hlocks
  case hpending =>
    intro k hk
    rw [hdb] at hk
    by_cases hpart : part.Awaits k
    · exact Or.inl (hawaits k hk hpart)
    · exact Or.inr ⟨hpart, hk⟩
  case hbaton => exact hbaton

end Chain.Invariant

/-! ### The baton -/

section Baton

variable {chain : Chain} {n t : ℕ} {parts : List Part} {w w' : Cluster}

/-- The worker that leads goes on leading. -/
theorem Chain.Taken.leads {n' : ℕ} {lead lead' : Lead} (h : Taken n t lead parts w)
    (hqueue : w'.queue = w.queue)
    (hthreads : (if lead'.due then n' else n' + 1) = if lead.due then n else n + 1)
    (hruns : w'.runs + (if lead'.outcome.isSome then 0 else 1)
      = w.runs + (if lead.outcome.isSome then 0 else 1)) :
  Taken n' t lead' (parts.set t (.leads lead')) w'
  where
  part := List.getElem?_set_self (List.getElem?_eq_some_iff.mp h.part).1
  lone t' lead₁ hpart := by
    rcases Machine.state_of_set hpart with ⟨heq, -⟩ | ⟨-, hpart⟩
    · apply heq
    · apply h.lone t' lead₁ hpart
  queue := by rw [hqueue, h.queue]
  threads := by rw [List.length_set, h.threads, hthreads]
  runs := by rw [List.length_set, hruns, h.runs]

/-- A worker that trails leaves the baton where it is. -/
theorem Chain.Queued.trails (h : chain.Queued n parts w) (part' : Part)
    (htrails : ∀ lead, part' ≠ .leads lead) (hqueue : w'.queue = w.queue)
    (hruns : w'.runs = w.runs) :
  chain.Queued n (parts.set t part') w'
  where
  lone t' lead hpart := by
    rcases Machine.state_of_set hpart with ⟨-, hlead⟩ | ⟨-, hpart⟩
    · apply htrails lead hlead.symm
    · apply h.lone t' lead hpart
  queue := by rw [hqueue, h.queue]
  threads := by rw [List.length_set, h.threads]
  runs := by rw [hruns, h.runs]

theorem Chain.Taken.trails {t₁ : ℕ} {lead : Lead} (h : Taken n t₁ lead parts w) (hne : t₁ ≠ t)
    (part' : Part) (htrails : ∀ lead, part' ≠ .leads lead) (hqueue : w'.queue = w.queue)
    (hruns : w'.runs = w.runs) :
  Taken n t₁ lead (parts.set t part') w'
  where
  part := by
    rw [List.getElem?_set_ne hne.symm]
    apply h.part
  lone t' lead' hpart := by
    rcases Machine.state_of_set hpart with ⟨-, hlead⟩ | ⟨-, hpart⟩
    · exact absurd hlead.symm (htrails lead')
    · apply h.lone t' lead' hpart
  queue := by rw [hqueue, h.queue]
  threads := by rw [List.length_set, h.threads]
  runs := by rw [List.length_set, hruns, h.runs]

/-- A worker that has taken the message is the one that leads. -/
theorem Chain.Queued.append (h : chain.Queued n parts w) (row : TaskExecution) :
  Taken n parts.length (.rest row none .nothing) (parts ++ [.leads (.rest row none .nothing)])
    { w with queue := [] }
  where
  part := List.getElem?_concat_length
  lone t lead hpart := by
    rcases Machine.state_of_concat hpart with hpart | ⟨heq, -⟩
    · exact absurd hpart (h.lone t lead)
    · apply heq
  queue := rfl
  threads := by
    rw [List.length_append, h.threads]
    rfl
  runs := by
    rw [List.length_append, h.threads]
    exact congrArg (· + 1) h.runs

end Baton

/-! ### Operations in the world -/

namespace Cluster

variable {w : Cluster} {t t' : ℕ} {key : RowKey}

/-- An operation other than a run of the body does not count. -/
theorem runs_record {o : Op} (ho : ∀ message, o ≠ .body message) (r : o.Answer)
    (es : List Effect) :
  (w.record t o r es).runs = w.runs
  := by
  rw [runs, history_record, List.countP_cons_of_neg]
  · rfl
  · cases o with
    | body message => exact absurd rfl (ho message)
    | _ => simp [Entry.isRun]

/-- A run of the body counts. -/
theorem runs_record_body (message : TaskiqMessage) (r : Option PyException) (es : List Effect) :
  (w.record t (.body message) r es).runs = w.runs + 1
  := by
  rw [runs, history_record, List.countP_cons_of_pos]
  · rfl
  · rfl

/-- A transaction that is over holds no locks. -/
theorem of_locked_release (h : (w.release t).locked key = some t') :
  t' ≠ t ∧ w.locked key = some t'
  := by
  simp only [release] at h
  split at h
  · cases h
  case isFalse hne =>
    constructor
    · rintro rfl
      apply hne h
    · apply h

/-- A statement adds at most one lock. -/
theorem of_locked_push {s : Statement} (h : (w.push t s).locked key = some t') :
  t' = t ∧ s.locks = some key ∨ w.locked key = some t'
  := by
  simp only [push] at h
  split at h
  case isTrue hlocks =>
    cases h
    exact Or.inl ⟨rfl, hlocks⟩
  case isFalse => exact Or.inr h

end Cluster

namespace Chain.Invariant

variable {chain : Chain} {n t : ℕ} {row : TaskExecution} {parts : List Part} {w : Cluster}

/-- The locks of a worker are those of its part. -/
theorem locks_self (h : chain.Invariant n row parts w) {part : Part}
    (hpart : parts[t]? = some part) {key : RowKey} (hlocked : w.locked key = some t) :
  part.Locks chain.execution key
  := by
  obtain ⟨part', hpart', hlocks⟩ := h.locks key t hlocked
  rw [hpart] at hpart'
  cases hpart'
  apply hlocks

end Chain.Invariant

end WorkerTemplate
