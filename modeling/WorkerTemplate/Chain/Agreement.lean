import WorkerTemplate.Chain.Protocol
import WorkerTemplate.Chain.Tally
import WorkerTemplate.Concurrent.Cluster

/-!
# What the workers of a chain know

What a worker knows by its part agrees with the committed database and with the effects of its
transaction.  Its own statements keep the agreement, and so does another worker that marks an
audit row or commits.
-/

namespace WorkerTemplate

/-- The row of the execution after a number of retries. -/
structure Chain.Row (chain : Chain) (n : ℕ) (row : TaskExecution) : Prop where
  id : row.id = chain.execution
  tenant : row.tenantId = chain.tenantId
  maxRetries : row.maxRetries = chain.maxRetries
  retryCount : row.retryCount = n

/-- The committed database of a chain after a number of retries. -/
structure Chain.Records (chain : Chain) (n : ℕ) (row : TaskExecution) (db : Database) : Prop where
  execution : db.execution? chain.execution = some row
  row : chain.Row n row
  tallies : db.Tallies chain.execution n

/-- What the leading worker knows agrees with the database and the effects of its transaction. -/
structure Lead.Agrees (chain : Chain) (n : ℕ) (row : TaskExecution) (db : Database)
    (es : List Effect) (lead : Lead) : Prop where
  row : lead.row = row
  view : (db.view es).execution? chain.execution = some lead.view
  kin : chain.Row lead.view.retryCount lead.view
  tallies : (db.view es).Tallies chain.execution (if lead.noted then n + 1 else n)
  keeps : ∀ e ∈ es, e.Keeps n
  seen : ∀ attempt, lead.seen = some attempt → lead.settled = false ∧ lead.noted = false ∧
    (db.view es).HasId chain.execution n attempt.id
  settled : lead.settled = true → (db.view es).Settled chain.execution
  clean : lead.dirty = false → es = [] ∧ lead.noted = false
  due : lead.due = true → lead.dirty = false ∧ lead.outcome.isSome = true
  outcome : ∀ r, lead.outcome = some r → lead.due = false → r = chain.outcomes n

/-- How far a trailing worker is agrees with the database and the effects of its transaction. -/
def Mark.Agrees (i : UUID) (n : ℕ) (db : Database) (es : List Effect) : Mark → Prop
  | .wanted => es = []
  | .found row => es = [] ∧ db.HasId i n row.id
  | .marking id => es = [.updateAttempt id .dispatched] ∧ db.HasId i n id
  | .marked => es = [] ∧ db.Dispatched i n

variable {chain : Chain} {n k : ℕ} {row : TaskExecution} {db : Database} {es : List Effect}

/-! ### The database -/

/-- A marked audit row leaves the record of the chain as it is. -/
theorem Chain.Records.mark (h : chain.Records n row db) (id : Option ℕ) :
  chain.Records n row (db.apply (.updateAttempt id .dispatched))
  where
  execution := h.execution
  row := h.row
  tallies := h.tallies.mark

/-! ### The leading worker -/

namespace Lead.Agrees

variable {lead : Lead}

/-- Before the leading worker records a retry, it sees the tallies of the retries so far. -/
theorem tallies_of_not_noted (h : lead.Agrees chain n row db es) (hnoted : lead.noted = false) :
  (db.view es).Tallies chain.execution n
  := by
  have htallies := h.tallies
  rw [hnoted] at htallies
  apply htallies

/-- One more statement of the leading worker keeps the retries so far. -/
theorem keeps_concat (h : lead.Agrees chain n row db es) {e : Effect} (he : e.Keeps n) :
  ∀ e' ∈ es ++ [e], e'.Keeps n
  := by
  intro e' hmem
  rcases List.mem_append.mp hmem with hmem | hmem
  · apply h.keeps e' hmem
  · obtain rfl := List.mem_singleton.mp hmem
    apply he

/-- The leading worker at the beginning of a transaction. -/
theorem reset (hrecords : chain.Records n row db) (h : lead.Agrees chain n row db es)
    (hdue : lead.due = false) :
  lead.reset.Agrees chain n row db []
  where
  row := h.row
  view := by
    rw [Lead.reset, h.row]
    apply hrecords.execution
  kin := by
    have hrow := hrecords.row
    rw [← hrow.retryCount, ← h.row] at hrow
    apply hrow
  tallies := hrecords.tallies
  keeps e he := by cases he
  seen attempt hseen := by cases hseen
  settled hsettled := by cases hsettled
  clean _ := ⟨rfl, rfl⟩
  due hdue' := by
    have : lead.due = true := hdue'
    rw [hdue] at this
    cases this
  outcome r hr _ := h.outcome r hr hdue

/-- A worker that has taken the message. -/
theorem start (hrecords : chain.Records n row db) (telling : Telling) :
  Lead.Agrees chain n row db [] { row := row, view := row, telling := telling }
  where
  row := rfl
  view := hrecords.execution
  kin := by
    have hrow := hrecords.row
    rw [← hrow.retryCount] at hrow
    apply hrow
  tallies := hrecords.tallies
  keeps e he := by cases he
  seen attempt hseen := by cases hseen
  settled hsettled := by cases hsettled
  clean _ := ⟨rfl, rfl⟩
  due hdue := by cases hdue
  outcome r hr := by cases hr

/-- Another worker marks an audit row. -/
theorem mark (h : lead.Agrees chain n row db es) {id : Option ℕ}
    (hid : ∃ attempt ∈ db.attempts, attempt.id = id) :
  lead.Agrees chain n row (db.apply (.updateAttempt id .dispatched)) es
  := by
  have hview : (db.apply (.updateAttempt id .dispatched)).view es
      = (db.view es).apply (.updateAttempt id .dispatched) := by
    apply Database.view_mark hid
    intro id' d he
    apply h.keeps _ he
  constructor
  case row => exact h.row
  case view =>
    rw [hview]
    apply h.view
  case kin => exact h.kin
  case tallies =>
    rw [hview]
    apply h.tallies.mark
  case keeps => exact h.keeps
  case seen =>
    intro attempt hseen
    obtain ⟨hsettled, hnoted, hhas⟩ := h.seen attempt hseen
    rw [hview]
    exact ⟨hsettled, hnoted, hhas.mark id⟩
  case settled =>
    intro hsettled
    rw [hview]
    apply Database.Settled.mark (h.settled hsettled) id
  case clean => exact h.clean
  case due => exact h.due
  case outcome => exact h.outcome

/-- A commit of the leading worker that records no retry. -/
theorem commit (h : lead.Agrees chain n row db es) (hdue : lead.due = false)
    (hnoted : lead.noted = false) :
  lead.commit.Agrees chain n lead.view (db.view es) []
  where
  row := rfl
  view := h.view
  kin := h.kin
  tallies := h.tallies_of_not_noted hnoted
  keeps e he := by cases he
  seen attempt hseen := by cases hseen
  settled hsettled := by cases hsettled
  clean _ := ⟨rfl, rfl⟩
  due hdue' := by
    have : lead.noted = true := hdue'
    rw [hnoted] at this
    cases this
  outcome r hr _ := h.outcome r hr hdue

/-- A commit of the leading worker that records a retry. -/
theorem commit_noted (h : lead.Agrees chain n row db es) (hnoted : lead.noted = true)
    (houtcome : lead.outcome.isSome = true) :
  lead.commit.Agrees chain (n + 1) lead.view (db.view es) []
  where
  row := rfl
  view := h.view
  kin := h.kin
  tallies := by
    have htallies := h.tallies
    rw [hnoted] at htallies
    apply htallies
  keeps e he := by cases he
  seen attempt hseen := by cases hseen
  settled hsettled := by cases hsettled
  clean _ := ⟨rfl, rfl⟩
  due _ := ⟨rfl, houtcome⟩
  outcome r _ hdue := by
    have : lead.noted = false := hdue
    rw [hnoted] at this
    cases this

/-- The leading worker knows that its transaction reads no pending audit row. -/
theorem settle (h : lead.Agrees chain n row db es)
    (hsettled : (db.view es).Settled chain.execution) :
  lead.settle.Agrees chain n row db es
  where
  row := h.row
  view := h.view
  kin := h.kin
  tallies := h.tallies
  keeps := h.keeps
  seen attempt hseen := by cases hseen
  settled _ := hsettled
  clean := h.clean
  due := h.due
  outcome := h.outcome

/-! #### Statements -/

/-- A pending audit row is found, or there is none. -/
theorem select_pending (h : lead.Agrees chain n row db es) (hrow : chain.Row n row)
    (hnoted : lead.noted = false) {r : Option TaskAttempt}
    (hr : (db.view es).Answers (.selectAttempt (.pending chain.execution)) r) :
  ∃ lead', lead.Moves (.selectAttempt (.pending chain.execution)) r lead' ∧
    lead'.Agrees chain n row db es
  := by
  have htallies := h.tallies_of_not_noted hnoted
  cases r with
  | none =>
      use lead.settle
      constructor
      · exact Or.inl ⟨rfl, rfl⟩
      · apply h.settle
        intro attempt hattempt hi hpending
        have hholds := hr attempt hattempt
        simp [AttemptFilter.holds, hi, hpending] at hholds
  | some attempt =>
      obtain ⟨hattempt, hholds⟩ := hr
      obtain ⟨hi, hpending, hnumber⟩ := htallies.of_pending hattempt hholds
      have hone := (htallies.mem_iff.mp ⟨attempt, hattempt, hi, rfl⟩).1
      have hcount : lead.row.retryCount = n := by rw [h.row, hrow.retryCount]
      use lead
      constructor
      · refine Or.inr ⟨attempt, rfl, ?_, ?_, rfl⟩
        · rw [hnumber, hcount]
        · rw [hnumber] at hone
          rw [hcount]
          apply hone
      · apply h

/-- The row of the last retry is found by its number. -/
theorem select_pendingOrDispatched (h : lead.Agrees chain n row db es) (hrow : chain.Row n row)
    (hone : 1 ≤ lead.row.retryCount) (hnoted : lead.noted = false) {r : Option TaskAttempt}
    (hr : (db.view es).Answers
      (.selectAttempt (.pendingOrDispatched chain.execution lead.row.retryCount)) r) :
  ∃ lead', lead.Moves
      (.selectAttempt (.pendingOrDispatched chain.execution lead.row.retryCount)) r lead' ∧
    lead'.Agrees chain n row db es
  := by
  have htallies := h.tallies_of_not_noted hnoted
  have hcount : lead.row.retryCount = n := by rw [h.row, hrow.retryCount]
  rw [hcount] at hr hone
  cases r with
  | none =>
      obtain ⟨attempt, hattempt, hholds⟩ := htallies.exists_holds hone le_rfl
      rw [hr attempt hattempt] at hholds
      cases hholds
  | some attempt =>
      obtain ⟨hattempt, hholds⟩ := hr
      simp only [AttemptFilter.holds, Bool.and_eq_true, Bool.or_eq_true, decide_eq_true_eq]
        at hholds
      obtain ⟨⟨hi, hnumber⟩, -⟩ := hholds
      by_cases hpending : attempt.dispatchResult = .pending
      · have hunsettled : lead.settled = false := by
          by_contra hsettled
          apply h.settled (by simpa using hsettled) attempt hattempt hi hpending
        use { lead with seen := some attempt }
        constructor
        · exact ⟨attempt, rfl, Or.inl ⟨hpending, hunsettled, rfl⟩⟩
        · refine { h with seen := ?_ }
          rintro _ ⟨⟩
          exact ⟨hunsettled, hnoted, attempt, hattempt, hi, hnumber, rfl⟩
      · use lead.settle
        constructor
        · exact ⟨attempt, rfl, Or.inr ⟨hpending, rfl⟩⟩
        · apply h.settle
          apply htallies.settled
          intro attempt' hattempt' hi' hnumber'
          rw [htallies.eq_of_number hattempt' hattempt hi' hi (hnumber'.trans hnumber.symm)]
          apply hpending

/-- The row of the execution is updated. -/
theorem updateExecution (h : lead.Agrees chain n row db es) (hdue : lead.due = false)
    (changes : ExecutionChanges) :
  Lead.Agrees chain n row db (es ++ [.updateExecution chain.execution changes])
    { lead with view := lead.view.set changes, dirty := true }
  := by
  have hview := db.view_concat es (.updateExecution chain.execution changes)
  constructor
  case row => exact h.row
  case view =>
    rw [hview, Database.execution?_updateExecution_self, h.view]
    rfl
  case kin =>
    exact ⟨h.kin.id, h.kin.tenant, h.kin.maxRetries, rfl⟩
  case tallies =>
    rw [hview]
    apply h.tallies.updateExecution _ _
  case keeps => exact h.keeps_concat trivial
  case seen =>
    rw [hview]
    apply h.seen
  case settled =>
    rw [hview]
    apply h.settled
  case clean =>
    rintro ⟨⟩
  case due =>
    intro hdue'
    rw [hdue] at hdue'
    cases hdue'
  case outcome => exact h.outcome

/-- The audit row of the next retry is added. -/
theorem insertAttempt (h : lead.Agrees chain n row db es) (hdue : lead.due = false)
    (hrow : chain.Row n row) {attempt : TaskAttempt}
    (hallows : lead.Allows chain.execution (.insertAttempt attempt)) :
  Lead.Agrees chain n row db (es ++ [.insertAttempt attempt])
    { lead with settled := false, dirty := true, noted := true }
  := by
  obtain ⟨hi, hnumber, hpending, hsettled, hnoted⟩ := hallows
  have hview := db.view_concat es (.insertAttempt attempt)
  have htallies := h.tallies_of_not_noted hnoted
  rw [h.row, hrow.retryCount] at hnumber
  constructor
  case row => exact h.row
  case view =>
    rw [hview]
    apply h.view
  case kin => exact h.kin
  case tallies =>
    rw [hview]
    apply htallies.insertAttempt (h.settled hsettled) hi hnumber hpending
  case keeps => exact h.keeps_concat hnumber
  case seen =>
    intro attempt' hseen
    have hunsettled := (h.seen attempt' hseen).1
    rw [hsettled] at hunsettled
    cases hunsettled
  case settled => rintro ⟨⟩
  case clean => rintro ⟨⟩
  case due =>
    intro hdue'
    rw [hdue] at hdue'
    cases hdue'
  case outcome => exact h.outcome

/-- The pending audit row is marked. -/
theorem updateAttempt (h : lead.Agrees chain n row db es) (hdue : lead.due = false)
    {id : Option ℕ} {attempt : TaskAttempt} (hseen : lead.seen = some attempt)
    (hid : attempt.id = id) :
  Lead.Agrees chain n row db (es ++ [.updateAttempt id .dispatched])
    { lead.settle with dirty := true }
  := by
  obtain ⟨-, hnoted, hhas⟩ := h.seen attempt hseen
  rw [hid] at hhas
  have hview := db.view_concat es (.updateAttempt id .dispatched)
  have htallies := h.tallies_of_not_noted hnoted
  constructor
  case row => exact h.row
  case view =>
    rw [hview]
    apply h.view
  case kin => exact h.kin
  case tallies =>
    rw [hview]
    apply h.tallies.mark
  case keeps => exact h.keeps_concat rfl
  case seen => rintro _ ⟨⟩
  case settled =>
    intro _
    rw [hview]
    apply htallies.mark.settled (htallies.dispatched_mark hhas)
  case clean => rintro ⟨⟩
  case due =>
    intro hdue'
    have : lead.due = true := hdue'
    rw [hdue] at this
    cases this
  case outcome => exact h.outcome

/-- A statement of the leading worker is answered by what the worker knows. -/
theorem statement (h : lead.Agrees chain n row db es) (hrow : chain.Row n row)
    (hdue : lead.due = false) {st : Statement} (hallows : lead.Allows chain.execution st)
    {r : st.Answer} (hr : (db.view es).Answers st r) :
  ∃ lead', lead.Moves st r lead' ∧ lead'.Agrees chain n row db (es ++ st.effects)
  := by
  cases st with
  | selectExecution j tenantId =>
      cases tenantId with
      | some tenantId => exact absurd hallows id
      | none =>
          obtain rfl : j = chain.execution := hallows
          refine ⟨lead, ⟨?_, rfl⟩, ?_⟩
          · rw [← h.view]
            apply hr
          · rw [Statement.effects, List.append_nil]
            apply h
  | selectAttempt filter =>
      rw [Statement.effects, List.append_nil]
      cases filter with
      | pending j =>
          obtain ⟨rfl, hnoted⟩ := hallows
          apply h.select_pending hrow hnoted hr
      | pendingOrDispatched j k =>
          obtain ⟨rfl, rfl, hone, hnoted⟩ := hallows
          apply h.select_pendingOrDispatched hrow hone hnoted hr
  | updateExecution j changes =>
      obtain rfl : j = chain.execution := hallows
      exact ⟨_, rfl, h.updateExecution hdue changes⟩
  | insertAttempt attempt => exact ⟨_, rfl, h.insertAttempt hdue hrow hallows⟩
  | updateAttempt id d =>
      obtain ⟨rfl, attempt, hseen, hid⟩ := hallows
      exact ⟨_, rfl, h.updateAttempt hdue hseen hid⟩

end Lead.Agrees

/-! ### The trailing workers -/

namespace Mark.Agrees

variable {far : Mark} {i : UUID}

/-- Another worker marks an audit row. -/
theorem mark (h : far.Agrees i n db es) (id : Option ℕ) :
  far.Agrees i n (db.apply (.updateAttempt id .dispatched)) es
  := by
  cases far with
  | wanted => apply h
  | found row => exact ⟨h.1, h.2.mark id⟩
  | marking id' => exact ⟨h.1, h.2.mark id⟩
  | marked => exact ⟨h.1, Database.Dispatched.mark h.2 id⟩

/-- The leading worker commits. -/
theorem view (h : far.Agrees i k db es) (hk : k ≤ n) {es' : List Effect}
    (hes' : ∀ e ∈ es', e.Keeps n) :
  far.Agrees i k (db.view es') es
  := by
  cases far with
  | wanted => apply h
  | found row => exact ⟨h.1, h.2.view hes'⟩
  | marking id' => exact ⟨h.1, h.2.view hes'⟩
  | marked => exact ⟨h.1, h.2.view hk hes'⟩

/-- A statement of a trailing worker is answered by what the worker knows. -/
theorem statement (h : far.Agrees i k db es) (htallies : db.Tallies i n) (hone : 1 ≤ k)
    (hk : k ≤ n) {st : Statement} (hallows : far.Allows i k st) {r : st.Answer}
    (hr : (db.view es).Answers st r) :
  ∃ mark', Mark.Moves st r mark' ∧ mark'.Agrees i k db (es ++ st.effects)
  := by
  cases st with
  | selectExecution j tenantId => exact absurd hallows id
  | insertAttempt attempt => exact absurd hallows id
  | updateExecution j changes => exact absurd hallows id
  | updateAttempt id d =>
      obtain ⟨rfl, attempt, rfl, rfl⟩ := hallows
      obtain ⟨rfl, hhas⟩ := h
      exact ⟨_, rfl, rfl, hhas⟩
  | selectAttempt filter =>
      cases filter with
      | pending j => exact absurd hallows id
      | pendingOrDispatched j k' =>
          obtain ⟨rfl, rfl, rfl⟩ := hallows
          obtain rfl : es = [] := h
          cases r with
          | none =>
              obtain ⟨attempt, hattempt, hholds⟩ := htallies.exists_holds hone hk
              have hnone := hr attempt hattempt
              rw [hholds] at hnone
              cases hnone
          | some attempt =>
              obtain ⟨hattempt, hholds⟩ := hr
              simp only [AttemptFilter.holds, Bool.and_eq_true, Bool.or_eq_true,
                decide_eq_true_eq] at hholds
              obtain ⟨⟨hi, hnumber⟩, -⟩ := hholds
              by_cases hpending : attempt.dispatchResult = .pending
              · use .found attempt
                constructor
                · exact ⟨attempt, rfl, Or.inl ⟨hpending, rfl⟩⟩
                · exact ⟨rfl, attempt, hattempt, hi, hnumber, rfl⟩
              · use .marked
                constructor
                · exact ⟨attempt, rfl, Or.inr ⟨hpending, rfl⟩⟩
                · refine ⟨rfl, ?_⟩
                  intro attempt' hattempt' hi' hnumber'
                  rw [htallies.eq_of_number hattempt' hattempt hi' hi
                    (hnumber'.trans hnumber.symm)]
                  apply hpending

end Mark.Agrees

end WorkerTemplate
