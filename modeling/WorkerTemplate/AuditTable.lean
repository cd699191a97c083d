import Mathlib.Data.List.Pairwise
import WorkerTemplate.Database

/-!
# The audit table

The look-ups of audit rows go by the last created row and by the attempt number, which is no
key.  They find the row that is meant as long as at most one row of an execution is pending,
and its pending and dispatched rows have numbers of their own.
-/

/-- A list of pairwise related elements, no two of which are related, has at most one element. -/
theorem List.Pairwise.length_le_one {α : Type*} {R : α → α → Prop} {l : List α}
    (h : l.Pairwise R) (hR : ∀ a ∈ l, ∀ b ∈ l, ¬ R a b) :
  l.length ≤ 1
  := by
  match l with
  | [] => apply Nat.zero_le 1
  | [a] => apply le_rfl
  | a :: b :: l =>
      have hab := (List.pairwise_cons.mp h).1 b (by simp)
      exact absurd hab (hR a (by simp) b (by simp))

namespace WorkerTemplate

/-- A row that is pending or dispatched. -/
def TaskAttempt.IsOpen (row : TaskAttempt) : Prop :=
  row.dispatchResult = .pending ∨ row.dispatchResult = .dispatched

/-- Two audit rows that no look-up takes for each other. -/
structure TaskAttempt.Apart (row row' : TaskAttempt) : Prop where
  id : row.id ≠ row'.id
  pending : row.taskExecutionId = row'.taskExecutionId →
    ¬ (row.dispatchResult = .pending ∧ row'.dispatchResult = .pending)
  number : row.taskExecutionId = row'.taskExecutionId → row.IsOpen → row'.IsOpen →
    row.attemptNumber ≠ row'.attemptNumber

instance : Std.Symm TaskAttempt.Apart where
  symm _ _ h :=
    { id := h.id.symm
      pending := fun hi hpending => h.pending hi.symm hpending.symm
      number := fun hi hopen hopen' => (h.number hi.symm hopen' hopen).symm }

/-- The audit rows of an execution are apart, and the numbers of its pending and dispatched rows
are those of retries it has spent. -/
structure Database.WellAudited (db : Database) : Prop where
  apart : db.attempts.Pairwise TaskAttempt.Apart
  spent : ∀ row ∈ db.attempts, row.IsOpen →
    ∃ task, db.execution? row.taskExecutionId = some task ∧
      1 ≤ row.attemptNumber ∧ row.attemptNumber ≤ task.retryCount

namespace Database

variable {db : Database} {i : UUID} {row : TaskAttempt}

/-- A table without audit rows. -/
theorem wellAudited_of_nil (h : db.attempts = []) :
  db.WellAudited
  where
  apart := by
    rw [h]
    apply List.Pairwise.nil
  spent row hrow := by
    rw [h] at hrow
    cases hrow

namespace WellAudited

/-- Two rows of the table that are not apart are one row. -/
theorem eq_of_not_apart (h : db.WellAudited) {row row' : TaskAttempt} (hrow : row ∈ db.attempts)
    (hrow' : row' ∈ db.attempts) (happart : ¬ row.Apart row') :
  row = row'
  := by
  by_contra hne
  apply happart (h.apart.forall hrow hrow' hne)

/-- The row that is marked by its number is the pending row that was looked up. -/
theorem latestAttempt?_pendingOrDispatched (h : db.WellAudited)
    (hrow : db.latestAttempt? (.pending i) = some row) :
  db.latestAttempt? (.pendingOrDispatched i row.attemptNumber) = some row
  := by
  obtain ⟨hmem, hholds⟩ := of_latestAttempt? hrow
  simp only [AttemptFilter.holds, Bool.and_eq_true, decide_eq_true_eq] at hholds
  have hfound : (db.latestAttempt? (.pendingOrDispatched i row.attemptNumber)).isSome := by
    apply latestAttempt?_isSome hmem
    simp [AttemptFilter.holds, hholds]
  obtain ⟨row', hrow'⟩ := Option.isSome_iff_exists.mp hfound
  obtain ⟨hmem', hholds'⟩ := of_latestAttempt? hrow'
  simp only [AttemptFilter.holds, Bool.and_eq_true, Bool.or_eq_true, decide_eq_true_eq] at hholds'
  have heq : row' = row := by
    apply h.eq_of_not_apart hmem' hmem
    intro happart
    apply happart.number (hholds'.1.1.trans hholds.1.symm) hholds'.2 (Or.inl hholds.2) hholds'.1.2
  rw [hrow', heq]

/-- Marking a row by its primary key changes no other row. -/
theorem attempts_updateAttempt (h : db.WellAudited) (hrow : row ∈ db.attempts)
    (d : TaskDispatchResult) :
  (db.apply (.updateAttempt row.id d)).attempts
    = db.attempts.map (fun row' => if row' = row then row.resolve d else row')
  := by
  rw [Database.attempts_updateAttempt]
  apply List.map_congr_left
  intro row' hrow'
  by_cases heq : row' = row
  · simp [heq]
  · have hid : row'.id ≠ row.id := (h.apart.forall hrow' hrow heq).id
    simp [hid, heq]

/-! ### What keeps a table well audited -/

/-- An update of an execution that does not lower its retry count. -/
theorem updateExecution (h : db.WellAudited) {changes : ExecutionChanges}
    (hle : ∀ task, db.execution? i = some task →
      task.retryCount ≤ (task.set changes).retryCount) :
  (db.apply (.updateExecution i changes)).WellAudited
  where
  apart := h.apart
  spent row hrow hopen := by
    obtain ⟨task, htask, hone, hspent⟩ := h.spent row hrow hopen
    rw [execution?_updateExecution]
    split
    case isTrue hi =>
      use task.set changes
      rw [htask]
      refine ⟨rfl, hone, hspent.trans (hle task ?_)⟩
      rw [← hi, htask]
    case isFalse hi => exact ⟨task, htask, hone, hspent⟩

/-- A new row that is apart from the rows of the table. -/
theorem insertAttempt (h : db.WellAudited)
    (hpending : ∀ row' ∈ db.attempts, row'.taskExecutionId = row.taskExecutionId →
      ¬ (row'.dispatchResult = .pending ∧ row.dispatchResult = .pending))
    (hnumber : ∀ row' ∈ db.attempts, row'.taskExecutionId = row.taskExecutionId → row'.IsOpen →
      row.IsOpen → row'.attemptNumber ≠ row.attemptNumber)
    (hspent : row.IsOpen → ∃ task, db.execution? row.taskExecutionId = some task ∧
      1 ≤ row.attemptNumber ∧ row.attemptNumber ≤ task.retryCount) :
  (db.apply (.insertAttempt row)).WellAudited
  where
  apart := by
    rw [attempts_insertAttempt, List.pairwise_append]
    refine ⟨h.apart, List.pairwise_singleton _ _, ?_⟩
    intro row' hrow' row'' hrow''
    obtain rfl := List.mem_singleton.mp hrow''
    exact ⟨db.ne_freshAttemptId hrow', hpending row' hrow', hnumber row' hrow'⟩
  spent row' hrow' hopen := by
    rw [attempts_insertAttempt, List.mem_append] at hrow'
    rcases hrow' with hrow' | hrow'
    · apply h.spent row' hrow' hopen
    · obtain rfl := List.mem_singleton.mp hrow'
      apply hspent hopen

/-- A new row that is neither pending nor dispatched. -/
theorem insertAttempt_of_not_open (h : db.WellAudited) (hclosed : ¬ row.IsOpen) :
  (db.apply (.insertAttempt row)).WellAudited
  := by
  apply h.insertAttempt
  · rintro row' - - ⟨-, hpending⟩
    apply hclosed (Or.inl hpending)
  · intro row' _ _ _ hopen
    exact absurd hopen hclosed
  · intro hopen
    exact absurd hopen hclosed

/-- A pending row that becomes dispatched. -/
theorem updateAttempt (h : db.WellAudited) (hrow : row ∈ db.attempts)
    (hpending : row.dispatchResult = .pending) :
  (db.apply (.updateAttempt row.id .dispatched)).WellAudited
  := by
  -- The marked row was open before, and it is not pending any more.
  have hopen (row' : TaskAttempt) :
      (if row' = row then row.resolve .dispatched else row').IsOpen → row'.IsOpen := by
    split
    case isTrue heq =>
      intro _
      rw [heq]
      exact Or.inl hpending
    case isFalse => exact id
  have hresolve (row' : TaskAttempt) :
      (if row' = row then row.resolve .dispatched else row').dispatchResult = .pending →
        row'.dispatchResult = .pending := by
    split
    case isTrue heq =>
      rintro ⟨⟩
    case isFalse => exact id
  have hsame (row' : TaskAttempt) :
      (if row' = row then row.resolve .dispatched else row').id = row'.id ∧
      (if row' = row then row.resolve .dispatched else row').taskExecutionId
        = row'.taskExecutionId ∧
      (if row' = row then row.resolve .dispatched else row').attemptNumber
        = row'.attemptNumber := by
    split
    case isTrue heq =>
      rw [heq]
      exact ⟨rfl, rfl, rfl⟩
    case isFalse => exact ⟨rfl, rfl, rfl⟩
  constructor
  · rw [h.attempts_updateAttempt hrow, List.pairwise_map]
    apply h.apart.imp
    intro row₁ row₂ happart
    obtain ⟨hid₁, hi₁, hnumber₁⟩ := hsame row₁
    obtain ⟨hid₂, hi₂, hnumber₂⟩ := hsame row₂
    constructor
    · rw [hid₁, hid₂]
      apply happart.id
    · rw [hi₁, hi₂]
      rintro hi ⟨hpending₁, hpending₂⟩
      apply happart.pending hi ⟨hresolve row₁ hpending₁, hresolve row₂ hpending₂⟩
    · rw [hi₁, hi₂, hnumber₁, hnumber₂]
      intro hi hopen₁ hopen₂
      apply happart.number hi (hopen row₁ hopen₁) (hopen row₂ hopen₂)
  · rw [h.attempts_updateAttempt hrow]
    intro row' hrow' hopen'
    obtain ⟨row₁, hrow₁, rfl⟩ := List.mem_map.mp hrow'
    obtain ⟨-, hi, hnumber⟩ := hsame row₁
    rw [hi, hnumber]
    apply h.spent row₁ hrow₁ (hopen row₁ hopen')

end WellAudited

/-- An execution without pending rows. -/
def Settled (db : Database) (i : UUID) : Prop :=
  ∀ row ∈ db.attempts, row.taskExecutionId = i → row.dispatchResult ≠ .pending

/-- An execution of which no pending row is found has none. -/
theorem settled_of_latestAttempt? (h : db.latestAttempt? (.pending i) = none) :
  db.Settled i
  := by
  intro row hrow hi hpending
  have hfound : (db.latestAttempt? (.pending i)).isSome :=
    latestAttempt?_isSome hrow (by simp [AttemptFilter.holds, hi, hpending])
  rw [h] at hfound
  cases hfound

/-- An execution whose pending row becomes dispatched has no pending row left. -/
theorem WellAudited.settled_updateAttempt (h : db.WellAudited)
    (hrow : db.latestAttempt? (.pending i) = some row) :
  (db.apply (.updateAttempt row.id .dispatched)).Settled i
  := by
  obtain ⟨hmem, hholds⟩ := of_latestAttempt? hrow
  simp only [AttemptFilter.holds, Bool.and_eq_true, decide_eq_true_eq] at hholds
  intro row' hrow' hi hpending
  rw [h.attempts_updateAttempt hmem] at hrow'
  obtain ⟨row₁, hrow₁, rfl⟩ := List.mem_map.mp hrow'
  by_cases heq : row₁ = row
  · rw [if_pos heq] at hpending
    cases hpending
  · rw [if_neg heq] at hi hpending
    apply (h.apart.forall hrow₁ hmem heq).pending (hi.trans hholds.1.symm) ⟨hpending, hholds.2⟩

end Database

end WorkerTemplate
