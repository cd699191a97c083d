import Mathlib.Data.List.Range
import WorkerTemplate.AuditTable

/-!
# The tally of a chain of retries

In a chain of retries without failures the audit table tallies the retries: it has one row for
every retry, in their order, and only the last one may be pending.  Marking a row and adding the
row of the next retry keep the tally, and they commute.
-/

namespace WorkerTemplate

namespace Database

variable {db : Database} {i : UUID} {n k : ℕ}

/-- The audit rows of an execution tally its retries. -/
structure Tallies (db : Database) (i : UUID) (n : ℕ) : Prop where
  numbers : (db.attempts.filter (fun row => row.taskExecutionId = i)).map (·.attemptNumber)
    = List.range' 1 n
  isOpen : ∀ row ∈ db.attempts, row.taskExecutionId = i → row.IsOpen
  last : ∀ row ∈ db.attempts, row.taskExecutionId = i → row.dispatchResult = .pending →
    row.attemptNumber = n
  ids : ∀ row ∈ db.attempts, ∀ row' ∈ db.attempts, row.taskExecutionId = i → row'.id = row.id →
    row'.taskExecutionId = i ∧ row'.attemptNumber = row.attemptNumber

/-- A primary key is the one of the row of a retry. -/
def HasId (db : Database) (i : UUID) (n : ℕ) (id : Option ℕ) : Prop :=
  ∃ row ∈ db.attempts, row.taskExecutionId = i ∧ row.attemptNumber = n ∧ row.id = id

/-- The row of a retry is not pending. -/
def Dispatched (db : Database) (i : UUID) (n : ℕ) : Prop :=
  ∀ row ∈ db.attempts, row.taskExecutionId = i → row.attemptNumber = n →
    row.dispatchResult ≠ .pending

/-- No retries have been recorded. -/
theorem tallies_zero (h : ∀ row ∈ db.attempts, row.taskExecutionId ≠ i) :
  db.Tallies i 0
  where
  numbers := by
    have hfilter : db.attempts.filter (fun row => row.taskExecutionId = i) = [] := by
      rw [List.filter_eq_nil_iff]
      intro row hrow
      simpa using h row hrow
    rw [hfilter]
    rfl
  isOpen row hrow hi := absurd hi (h row hrow)
  last row hrow hi := absurd hi (h row hrow)
  ids row hrow _ _ hi := absurd hi (h row hrow)

namespace Tallies

/-- The numbers of the rows are those of the retries. -/
theorem mem_iff (h : db.Tallies i n) :
  (∃ row ∈ db.attempts, row.taskExecutionId = i ∧ row.attemptNumber = k) ↔ 1 ≤ k ∧ k ≤ n
  := by
  have hmem : k ∈ (db.attempts.filter (fun row => row.taskExecutionId = i)).map (·.attemptNumber)
      ↔ 1 ≤ k ∧ k ≤ n := by
    rw [h.numbers, List.mem_range'_1]
    omega
  rw [← hmem]
  simp only [List.mem_map, List.mem_filter, decide_eq_true_eq]
  constructor
  · rintro ⟨row, hrow, hi, hk⟩
    exact ⟨row, ⟨hrow, hi⟩, hk⟩
  · rintro ⟨row, ⟨hrow, hi⟩, hk⟩
    exact ⟨row, hrow, hi, hk⟩

/-- Two rows of one retry are one row. -/
theorem eq_of_number (h : db.Tallies i n) {row row' : TaskAttempt} (hrow : row ∈ db.attempts)
    (hrow' : row' ∈ db.attempts) (hi : row.taskExecutionId = i) (hi' : row'.taskExecutionId = i)
    (hnumber : row.attemptNumber = row'.attemptNumber) :
  row = row'
  := by
  have hnodup : ((db.attempts.filter (fun row => row.taskExecutionId = i)).map
      (·.attemptNumber)).Nodup := by
    rw [h.numbers]
    exact List.nodup_range'
  apply List.inj_on_of_nodup_map hnodup _ _ hnumber
  · simpa using ⟨hrow, hi⟩
  · simpa using ⟨hrow', hi'⟩

/-! ### Look-ups -/

/-- A pending row that is found is the one of the last retry. -/
theorem of_pending (h : db.Tallies i n) {row : TaskAttempt} (hrow : row ∈ db.attempts)
    (hholds : AttemptFilter.holds row (.pending i) = true) :
  row.taskExecutionId = i ∧ row.dispatchResult = .pending ∧ row.attemptNumber = n
  := by
  simp only [AttemptFilter.holds, Bool.and_eq_true, decide_eq_true_eq] at hholds
  exact ⟨hholds.1, hholds.2, h.last row hrow hholds.1 hholds.2⟩

/-- The row of a retry is found by its number. -/
theorem exists_holds (h : db.Tallies i n) (hone : 1 ≤ k) (hle : k ≤ n) :
  ∃ row ∈ db.attempts, AttemptFilter.holds row (.pendingOrDispatched i k) = true
  := by
  obtain ⟨row, hrow, hi, hk⟩ := h.mem_iff.mpr ⟨hone, hle⟩
  use row, hrow
  have hopen : row.dispatchResult = .pending ∨ row.dispatchResult = .dispatched :=
    h.isOpen row hrow hi
  simpa [AttemptFilter.holds, hi, hk] using hopen

/-- An execution has no pending row when the row of the last retry is not pending. -/
theorem settled (h : db.Tallies i n) (hdispatched : db.Dispatched i n) :
  db.Settled i
  := by
  intro row hrow hi hpending
  exact hdispatched row hrow hi (h.last row hrow hi hpending) hpending

/-! ### Effects -/

/-- Updating an execution keeps the tally. -/
theorem updateExecution (h : db.Tallies i n) (j : UUID) (changes : ExecutionChanges) :
  (db.apply (.updateExecution j changes)).Tallies i n
  := ⟨h.numbers, h.isOpen, h.last, h.ids⟩

/-- Adding the row of the next retry, when there is no pending row. -/
theorem insertAttempt (h : db.Tallies i n) (hsettled : db.Settled i) {row : TaskAttempt}
    (hi : row.taskExecutionId = i) (hn : row.attemptNumber = n + 1)
    (hpending : row.dispatchResult = .pending) :
  (db.apply (.insertAttempt row)).Tallies i (n + 1)
  where
  numbers := by
    rw [attempts_insertAttempt, List.filter_append, List.map_append, h.numbers,
      List.range'_1_concat, List.filter_singleton]
    simp only [hi, decide_true, cond_true, List.map_singleton, hn]
    rw [Nat.add_comm]
  isOpen row' hrow' hi' := by
    rw [attempts_insertAttempt, List.mem_append] at hrow'
    rcases hrow' with hrow' | hrow'
    · exact h.isOpen row' hrow' hi'
    · obtain rfl := List.mem_singleton.mp hrow'
      exact Or.inl hpending
  last row' hrow' hi' hpending' := by
    rw [attempts_insertAttempt, List.mem_append] at hrow'
    rcases hrow' with hrow' | hrow'
    · exact absurd hpending' (hsettled row' hrow' hi')
    · obtain rfl := List.mem_singleton.mp hrow'
      exact hn
  ids row₁ hrow₁ row₂ hrow₂ hi₁ hid := by
    rw [attempts_insertAttempt, List.mem_append] at hrow₁ hrow₂
    rcases hrow₁ with hrow₁ | hrow₁
    · rcases hrow₂ with hrow₂ | hrow₂
      · exact h.ids row₁ hrow₁ row₂ hrow₂ hi₁ hid
      · obtain rfl := List.mem_singleton.mp hrow₂
        exact absurd hid.symm (db.ne_freshAttemptId hrow₁)
    · obtain rfl := List.mem_singleton.mp hrow₁
      rcases hrow₂ with hrow₂ | hrow₂
      · exact absurd hid (db.ne_freshAttemptId hrow₂)
      · obtain rfl := List.mem_singleton.mp hrow₂
        exact ⟨hi, rfl⟩

end Tallies

/-- A row after another one has been marked. -/
theorem mem_mark {id : Option ℕ} {row : TaskAttempt}
    (hrow : row ∈ (db.apply (.updateAttempt id .dispatched)).attempts) :
  ∃ row' ∈ db.attempts, row'.id = row.id ∧ row'.taskExecutionId = row.taskExecutionId ∧
    row'.attemptNumber = row.attemptNumber ∧
    (row.dispatchResult = .dispatched ∨ row.id ≠ id ∧ row' = row)
  := by
  rw [attempts_updateAttempt] at hrow
  obtain ⟨row', hrow', rfl⟩ := List.mem_map.mp hrow
  use row', hrow'
  split
  case isTrue hid => exact ⟨rfl, rfl, rfl, Or.inl rfl⟩
  case isFalse hid => exact ⟨rfl, rfl, rfl, Or.inr ⟨hid, rfl⟩⟩

/-- Marking keeps the rows that are not pending. -/
theorem Dispatched.mark (h : db.Dispatched i n) (id : Option ℕ) :
  (db.apply (.updateAttempt id .dispatched)).Dispatched i n
  := by
  intro row hrow hi hn hpending
  obtain ⟨row', hrow', -, hi', hn', hd | ⟨-, rfl⟩⟩ := mem_mark hrow
  · rw [hpending] at hd
    cases hd
  · exact h row' hrow' hi hn hpending

/-- Marking leaves no new pending rows. -/
theorem Settled.mark (h : db.Settled i) (id : Option ℕ) :
  (db.apply (.updateAttempt id .dispatched)).Settled i
  := by
  intro row hrow hi hpending
  obtain ⟨row', hrow', -, -, -, hd | ⟨-, rfl⟩⟩ := mem_mark hrow
  · rw [hpending] at hd
    cases hd
  · exact h row' hrow' hi hpending

/-- Marking keeps the primary keys. -/
theorem HasId.mark {id : Option ℕ} (h : db.HasId i n id) (id' : Option ℕ) :
  (db.apply (.updateAttempt id' .dispatched)).HasId i n id
  := by
  obtain ⟨row, hrow, hi, hn, hid⟩ := h
  rw [HasId, attempts_updateAttempt]
  refine ⟨_, List.mem_map_of_mem hrow, ?_⟩
  split
  · exact ⟨hi, hn, hid⟩
  · exact ⟨hi, hn, hid⟩

/-- Marking the row of a retry keeps the tally. -/
theorem Tallies.mark (h : db.Tallies i n) {id : Option ℕ} :
  (db.apply (.updateAttempt id .dispatched)).Tallies i n
  where
  numbers := by
    rw [← h.numbers, attempts_updateAttempt, List.filter_map, List.map_map]
    have hsame : ((fun row : TaskAttempt => decide (row.taskExecutionId = i)) ∘
        fun row => if row.id = id then row.resolve .dispatched else row)
          = fun row => decide (row.taskExecutionId = i) := by
      funext row
      simp only [Function.comp_apply]
      split
      · rfl
      · rfl
    rw [hsame]
    apply List.map_congr_left
    intro row _
    simp only [Function.comp_apply]
    split
    · rfl
    · rfl
  isOpen row hrow hi := by
    obtain ⟨row', hrow', -, -, -, hd | ⟨-, rfl⟩⟩ := mem_mark hrow
    · exact Or.inr hd
    · exact h.isOpen row' hrow' hi
  last row hrow hi hpending := by
    obtain ⟨row', hrow', -, -, -, hd | ⟨-, rfl⟩⟩ := mem_mark hrow
    · rw [hpending] at hd
      cases hd
    · exact h.last row' hrow' hi hpending
  ids row₁ hrow₁ row₂ hrow₂ hi₁ hid := by
    obtain ⟨row₁', hrow₁', hid₁, hi₁', hn₁, -⟩ := mem_mark hrow₁
    obtain ⟨row₂', hrow₂', hid₂, hi₂', hn₂, -⟩ := mem_mark hrow₂
    rw [← hi₂', ← hn₂, ← hn₁]
    apply h.ids row₁' hrow₁' row₂' hrow₂' (hi₁'.trans hi₁)
    rw [hid₁, hid₂, hid]

/-- The row of a retry that has been marked by its primary key is not pending. -/
theorem Tallies.dispatched_mark (h : db.Tallies i n) {id : Option ℕ} (hid : db.HasId i k id) :
  (db.apply (.updateAttempt id .dispatched)).Dispatched i k
  := by
  intro row hrow hi hk hpending
  obtain ⟨row', hrow', -, -, -, hd | ⟨hne, rfl⟩⟩ := mem_mark hrow
  · rw [hpending] at hd
    cases hd
  · obtain ⟨row₁, hrow₁, hi₁, hk₁, hid₁⟩ := hid
    have heq := h.eq_of_number hrow' hrow₁ hi hi₁ (hk.trans hk₁.symm)
    exact hne (heq ▸ hid₁)

/-- Adding a row keeps the primary keys. -/
theorem HasId.insertAttempt {id : Option ℕ} (h : db.HasId i n id) (row : TaskAttempt) :
  (db.apply (.insertAttempt row)).HasId i n id
  := by
  obtain ⟨row', hrow', hprops⟩ := h
  refine ⟨row', ?_, hprops⟩
  rw [attempts_insertAttempt]
  exact List.mem_append_left _ hrow'

/-- Adding the row of another retry keeps the rows that are not pending. -/
theorem Dispatched.insertAttempt (h : db.Dispatched i n) {row : TaskAttempt}
    (hne : row.attemptNumber ≠ n) :
  (db.apply (.insertAttempt row)).Dispatched i n
  := by
  intro row' hrow' hi hn
  rw [attempts_insertAttempt, List.mem_append] at hrow'
  rcases hrow' with hrow' | hrow'
  · exact h row' hrow' hi hn
  · obtain rfl := List.mem_singleton.mp hrow'
    exact absurd hn hne

/-! ### Marking commutes -/

theorem freshAttemptId_mark (db : Database) (id : Option ℕ) (d : TaskDispatchResult) :
  (db.apply (.updateAttempt id d)).freshAttemptId = db.freshAttemptId
  := by
  rw [freshAttemptId, freshAttemptId, attempts_updateAttempt, List.map_map]
  congr 1
  apply List.map_congr_left
  intro row _
  simp only [Function.comp_apply]
  split
  · rfl
  · rfl

/-- Marking a row of the table commutes with an effect that marks or adds a row. -/
theorem apply_mark {e : Effect} {id : Option ℕ} (hid : ∃ row ∈ db.attempts, row.id = id)
    (he : ∀ id' d, e = .updateAttempt id' d → d = .dispatched) :
  (db.apply (.updateAttempt id .dispatched)).apply e
    = (db.apply e).apply (.updateAttempt id .dispatched)
  := by
  cases e with
  | updateExecution j changes => rfl
  | updateAttempt id' d =>
      obtain rfl := he id' d rfl
      simp only [apply, List.map_map]
      congr 1
      apply List.map_congr_left
      intro row _
      simp only [Function.comp_apply]
      split
      · split
        · simp_all [TaskAttempt.resolve]
        · simp_all [TaskAttempt.resolve]
      · split
        · simp_all [TaskAttempt.resolve]
        · simp_all
  | insertAttempt row =>
      obtain ⟨row', hrow', rfl⟩ := hid
      have hne : ¬ some db.freshAttemptId = row'.id := (db.ne_freshAttemptId hrow').symm
      have hfresh := freshAttemptId_mark db row'.id .dispatched
      simp only [apply] at hfresh ⊢
      rw [hfresh, List.map_append, List.map_singleton, if_neg hne]

/-- An effect keeps the primary keys there are. -/
theorem exists_id_apply {id : Option ℕ} (hid : ∃ row ∈ db.attempts, row.id = id) (e : Effect) :
  ∃ row ∈ (db.apply e).attempts, row.id = id
  := by
  obtain ⟨row, hrow, hid⟩ := hid
  cases e with
  | updateExecution j changes => exact ⟨row, hrow, hid⟩
  | insertAttempt row' => exact ⟨row, List.mem_append_left _ hrow, hid⟩
  | updateAttempt id' d =>
      refine ⟨_, List.mem_map_of_mem hrow, ?_⟩
      split
      · exact hid
      · exact hid

/-- Marking a row of the table commutes with what a transaction does that marks and adds rows. -/
theorem view_mark {es : List Effect} {id : Option ℕ} (hid : ∃ row ∈ db.attempts, row.id = id)
    (hes : ∀ id' d, Effect.updateAttempt id' d ∈ es → d = .dispatched) :
  (db.apply (.updateAttempt id .dispatched)).view es
    = (db.view es).apply (.updateAttempt id .dispatched)
  := by
  induction es generalizing db with
  | nil => rfl
  | cons e es ih =>
      have hstep : (db.apply (.updateAttempt id .dispatched)).apply e
          = (db.apply e).apply (.updateAttempt id .dispatched) := by
        apply apply_mark hid
        rintro id' d rfl
        exact hes id' d (List.mem_cons_self ..)
      change ((db.apply (.updateAttempt id .dispatched)).apply e).view es
        = ((db.apply e).view es).apply (.updateAttempt id .dispatched)
      rw [hstep]
      apply ih (exists_id_apply hid e)
      intro id' d hmem
      exact hes id' d (List.mem_cons_of_mem _ hmem)

end Database

/-- An effect of a transaction that records the retry after `n`, or that marks audit rows. -/
def Effect.Keeps (n : ℕ) : Effect → Prop
  | .updateExecution _ _ => True
  | .updateAttempt _ d => d = .dispatched
  | .insertAttempt row => row.attemptNumber = n + 1

namespace Database

variable {db : Database} {i : UUID} {n k : ℕ} {es : List Effect}

/-- A transaction keeps the primary keys. -/
theorem HasId.view {id : Option ℕ} (h : db.HasId i k id) (hes : ∀ e ∈ es, e.Keeps n) :
  (db.view es).HasId i k id
  := by
  induction es generalizing db with
  | nil => exact h
  | cons e es ih =>
      apply ih _ (fun e' he' => hes e' (List.mem_cons_of_mem _ he'))
      have hkeeps := hes e (List.mem_cons_self ..)
      cases e with
      | updateExecution j changes => exact h
      | insertAttempt row => exact h.insertAttempt row
      | updateAttempt id' d =>
          obtain rfl : d = .dispatched := hkeeps
          exact h.mark id'

/-- A transaction keeps the earlier rows that are not pending. -/
theorem Dispatched.view (h : db.Dispatched i k) (hk : k ≤ n) (hes : ∀ e ∈ es, e.Keeps n) :
  (db.view es).Dispatched i k
  := by
  induction es generalizing db with
  | nil => exact h
  | cons e es ih =>
      apply ih _ (fun e' he' => hes e' (List.mem_cons_of_mem _ he'))
      have hkeeps := hes e (List.mem_cons_self ..)
      cases e with
      | updateExecution j changes => exact h
      | insertAttempt row =>
          have hnumber : row.attemptNumber = n + 1 := hkeeps
          apply h.insertAttempt
          omega
      | updateAttempt id' d =>
          obtain rfl : d = .dispatched := hkeeps
          exact h.mark id'

end Database

end WorkerTemplate
