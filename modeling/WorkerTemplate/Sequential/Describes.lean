import WorkerTemplate.Middleware.Decision
import WorkerTemplate.Sequential.Ledger
import WorkerTemplate.Sequential.Services

/-!
# Ledgers and tables

A ledger describes the tables and the record of a call of `on_error`: it holds the status
and the retry count of the execution, and the audit rows added by the call follow those
the table had before.  The rows of the table before the call may be marked as dispatched
by the call, and are otherwise left alone.
-/

namespace WorkerTemplate

/-! ### Rows of the audit table -/

namespace TaskAttempt

/-- The number of an attempt and its dispatch result. -/
def entry (row : TaskAttempt) : ℕ × TaskDispatchResult := (row.attemptNumber, row.dispatchResult)

@[simp]
theorem entry_resolve (row : TaskAttempt) (d : TaskDispatchResult) :
  (row.resolve d).entry = (row.attemptNumber, d)
  := rfl

/-- An attempt that has a dispatch result already is not changed by setting it. -/
theorem resolve_of_dispatchResult {row : TaskAttempt} {d : TaskDispatchResult}
    (h : row.dispatchResult = d) :
  row.resolve d = row
  := by
  subst h
  rfl

end TaskAttempt

namespace Database

/-- The attempt a query finds is the last one satisfying the `WHERE` clause. -/
theorem latestAttempt?_of_split {db : Database} {filter : AttemptFilter}
    {before after : List TaskAttempt} {row : TaskAttempt}
    (h : db.attempts = before ++ row :: after) (hrow : filter.holds row = true)
    (hafter : ∀ a ∈ after, filter.holds a = false) :
  db.latestAttempt? filter = some row
  := by
  have hnil : after.filter (fun a => filter.holds a) = [] := by
    simpa [List.filter_eq_nil_iff] using hafter
  simp [latestAttempt?, h, hrow, hnil]

/-- Updating an attempt leaves the attempts with other primary keys alone. -/
theorem attempts_updateAttempt_of_split {db : Database} {before after : List TaskAttempt}
    {row : TaskAttempt} (h : db.attempts = before ++ row :: after)
    (hid : ∀ a ∈ before ++ after, a.id ≠ row.id) (d : TaskDispatchResult) :
  (db.apply (.updateAttempt row.id d)).attempts = before ++ row.resolve d :: after
  := by
  have hothers : ∀ (l : List TaskAttempt), (∀ a ∈ l, a.id ≠ row.id) →
      l.map (fun a => if a.id = row.id then a.resolve d else a) = l := by
    intro l hl
    calc l.map (fun a => if a.id = row.id then a.resolve d else a)
      _ = l.map id := List.map_congr_left (fun a ha => if_neg (hl a ha))
      _ = l := List.map_id l
  rw [attempts_updateAttempt, h, List.map_append, List.map_cons, if_pos rfl]
  rw [hothers before (fun a ha => hid a (List.mem_append_left _ ha))]
  rw [hothers after (fun a ha => hid a (List.mem_append_right _ ha))]

end Database

namespace Ledger

/-- A ledger describes an audit table that had `before` rows before the call. -/
structure Audits (i : UUID) (before : ℕ) (L : Ledger) (attempts : List TaskAttempt) : Prop where
  split : ∃ old past current failures,
    attempts = old ++ past ++ Option.toList current ++ failures ∧ old.length = before ∧
    past.map TaskAttempt.entry = L.past ∧
    current.map TaskAttempt.entry = L.current.map Retry.entry ∧
    failures.map TaskAttempt.entry = L.failures.map (fun n => (n, .dispatchFailed)) ∧
    ∀ c ∈ current, c.taskExecutionId = i ∧ ∀ a ∈ old ++ past ++ failures, a.id ≠ c.id

variable {i : UUID} {before : ℕ} {L : Ledger} {db : Database}

/-- The table is that of the call and no more. -/
theorem Audits.length (h : L.Audits i before db.attempts) :
  db.attempts.length = before + L.audit.length
  := by
  obtain ⟨old, past, current, failures, hsplit, hold, hpast, hcurrent, hfailures, -⟩ := h.split
  have hlength : (L.current.map Retry.entry).toList.length = current.toList.length := by
    rw [← hcurrent]
    cases current with
    | none => rfl
    | some c => rfl
  have hpast' : past.length = L.past.length := by rw [← hpast, List.length_map]
  have hfailures' : failures.length = L.failures.length := by
    rw [← List.length_map TaskAttempt.entry, hfailures, List.length_map]
  rw [hsplit, audit]
  simp only [List.length_append, hlength, List.length_map, hold, hpast', hfailures']
  omega

/-- The last rows of the table are the rows of the ledger. -/
theorem Audits.drop (h : L.Audits i before db.attempts) :
  (db.attempts.drop before).map TaskAttempt.entry = L.audit
  := by
  obtain ⟨old, past, current, failures, hsplit, hold, hpast, hcurrent, hfailures, -⟩ := h.split
  have hcurrent' : current.toList.map TaskAttempt.entry
      = (L.current.map Retry.entry).toList := by
    rw [← hcurrent]
    cases current with
    | none => rfl
    | some c => rfl
  rw [hsplit, List.append_assoc, List.append_assoc, List.drop_left' hold]
  simp [audit, hpast, hcurrent', hfailures]

/-- The rows of rejected messages satisfy no query of the hooks. -/
theorem holds_of_entry_dispatchFailed {failures : List TaskAttempt} {ns : List ℕ}
    (h : failures.map TaskAttempt.entry = ns.map (fun n => (n, .dispatchFailed)))
    (filter : AttemptFilter) :
  ∀ a ∈ failures, filter.holds a = false
  := by
  intro a ha
  have hentry : a.entry ∈ ns.map (fun n => (n, TaskDispatchResult.dispatchFailed)) := by
    rw [← h]
    apply List.mem_map_of_mem ha
  obtain ⟨n, -, hn⟩ := List.mem_map.mp hentry
  obtain ⟨-, hresult⟩ := Prod.ext_iff.mp hn
  have hfailed : a.dispatchResult = .dispatchFailed := hresult.symm
  cases filter with
  | pending j => simp [AttemptFilter.holds, hfailed]
  | pendingOrDispatched j n => simp [AttemptFilter.holds, hfailed]

/-- The row of the current retry is the one found under its number, and marking that number
dispatches the retry. -/
theorem Audits.current (h : L.Audits i before db.attempts) {c : Retry} (hc : L.current = some c) :
  ∃ row, db.latestAttempt? (.pendingOrDispatched i c.number) = some row ∧
    row.entry = c.entry ∧
      L.mark.Audits i before (db.view (Hook.markEffects db i c.number)).attempts ∧
    (c.dispatched = false → db.latestAttempt? (.pending i) = some row)
  := by
  obtain ⟨old, past, current, failures, hsplit, hold, hpast, hcurrent, hfailures, hid⟩ := h.split
  rw [hc] at hcurrent
  obtain ⟨row, rfl, hentry⟩ := Option.map_eq_some_iff.mp hcurrent
  obtain ⟨hexecution, hother⟩ := hid row rfl
  have hnone := fun filter => holds_of_entry_dispatchFailed hfailures filter
  have hsplit' : db.attempts = (old ++ past) ++ row :: failures := by
    simpa using hsplit
  obtain ⟨hnumber, hresult⟩ := Prod.ext_iff.mp hentry
  simp only [TaskAttempt.entry, Retry.entry] at hnumber hresult
  have hfound : db.latestAttempt? (.pendingOrDispatched i c.number) = some row := by
    apply Database.latestAttempt?_of_split hsplit' _ (hnone _)
    cases hd : c.dispatched with
    | true => simp [AttemptFilter.holds, hexecution, hnumber, hresult, hd]
    | false => simp [AttemptFilter.holds, hexecution, hnumber, hresult, hd]
  use row, hfound, hentry
  constructor
  · use old, past, some (row.resolve .dispatched), failures
    have hmark : (db.view (Hook.markEffects db i c.number)).attempts
        = (old ++ past) ++ row.resolve .dispatched :: failures := by
      simp only [Hook.markEffects, hfound]
      split
      case isTrue hpending =>
        rw [Database.view_singleton]
        apply Database.attempts_updateAttempt_of_split hsplit' hother
      case isFalse hpending =>
        have hdispatched : row.resolve .dispatched = row := by
          apply TaskAttempt.resolve_of_dispatchResult
          cases hd : c.dispatched with
          | true => simp [hresult, hd]
          | false => simp [hresult, hd] at hpending
        rw [Database.view_nil, hdispatched, hsplit']
    simp only [hmark, mark, hc]
    refine ⟨by simp, hold, hpast, by simp [Retry.mark, Retry.entry, hnumber], hfailures, ?_⟩
    rintro c' ⟨⟩
    use hexecution, hother
  · intro hd
    apply Database.latestAttempt?_of_split hsplit' _ (hnone _)
    simp [AttemptFilter.holds, hexecution, hresult, hd]

/-- The audit row of a rejected message is a row for a failure. -/
theorem Audits.reject (h : L.Audits i before db.attempts) (row : TaskAttempt)
    (hrow : row.dispatchResult = .dispatchFailed) :
  (L.reject row.attemptNumber).Audits i before (db.apply (.insertAttempt row)).attempts
  := by
  obtain ⟨old, past, current, failures, hsplit, hold, hpast, hcurrent, hfailures, hid⟩ := h.split
  use old, past, current, failures ++ [{ row with id := some db.freshAttemptId }]
  have hentry : TaskAttempt.entry { row with id := some db.freshAttemptId }
      = (row.attemptNumber, .dispatchFailed) := by
    simp [TaskAttempt.entry, hrow]
  refine ⟨by simp [hsplit], hold, hpast, hcurrent, ?_, ?_⟩
  · simp [Ledger.reject, hfailures, hentry]
  · intro c hc
    obtain ⟨hexecution, hother⟩ := hid c hc
    use hexecution
    intro a ha
    rw [← List.append_assoc, List.mem_append, List.mem_singleton] at ha
    rcases ha with ha | rfl
    · apply hother a ha
    · apply Ne.symm
      apply db.ne_freshAttemptId
      rw [hsplit, hc]
      simp

/-- The audit row of a new retry comes after the rows the table has. -/
theorem Audits.insert {m : ℕ} (h : L.mark.Audits i before db.attempts) (hm : L.retryCount < m)
    (row : TaskAttempt) (hrow : row.entry = (L.retryCount + 1, .pending))
    (hexecution : row.taskExecutionId = i) :
  (L.record m).Audits i before (db.apply (.insertAttempt row)).attempts
  := by
  obtain ⟨old, past, current, failures, hsplit, hold, hpast, hcurrent, hfailures, -⟩ := h.split
  use old, past ++ current.toList ++ failures, some { row with id := some db.freshAttemptId }, []
  have hcurrent' : current.toList.map TaskAttempt.entry
      = (L.mark.current.map Retry.entry).toList := by
    rw [← hcurrent]
    cases current with
    | none => rfl
    | some c => rfl
  simp only [record, if_pos hm]
  refine ⟨by simp [hsplit], hold, ?_, ?_, rfl, ?_⟩
  · simp [audit, hpast, hcurrent', hfailures]
  · simpa [TaskAttempt.entry, Retry.entry] using hrow
  · rintro c ⟨⟩
    use hexecution
    intro a ha
    apply db.ne_freshAttemptId
    rw [hsplit]
    simpa using ha

end Ledger

end WorkerTemplate
