import WorkerTemplate.Sequential.World

/-!
# The ledger of an error hook

What one call of `on_error` does to an execution whose retries are allowed, seen from the
tables: the status and the retry count of the execution, the audit rows the call has
added, the number of accepted messages, and whether the next pass recognizes the row as
written by the call.  A pass is a function of the ledger and the plan of its session.
-/

namespace WorkerTemplate

/-- An audit row of a retry that has been recorded: pending, or dispatched. -/
structure Retry where
  number : ℕ
  dispatched : Bool := false
  deriving DecidableEq, Repr

namespace Retry

/-- The number of the row and its dispatch result. -/
def entry (c : Retry) : ℕ × TaskDispatchResult :=
  (c.number, if c.dispatched then .dispatched else .pending)

def mark (c : Retry) : Retry := { c with dispatched := true }

end Retry

/-- The state of the tables during one call of `on_error`.  The audit rows the call has
added are those of superseded retries, then the row of the current retry, then a row
for every rejected message of the current retry. -/
structure Ledger where
  status : TaskStatus
  retryCount : ℕ
  /-- The next pass recognizes the row. -/
  recorded : Bool := false
  past : List (ℕ × TaskDispatchResult) := []
  current : Option Retry := none
  failures : List ℕ := []
  /-- The number of accepted messages. -/
  sent : ℕ := 0
  deriving DecidableEq, Repr

/-- How a pass ends: it raises, it returns and leaves the outcome to itself, or it returns
and leaves the outcome to the receiver of the message it has sent. -/
inductive Outcome where
  | raised
  | settled
  | resent
  deriving DecidableEq, Repr

namespace Ledger

/-- The ledger of an execution at the beginning of a call. -/
def initial (status : TaskStatus) (retryCount : ℕ) : Ledger := { status, retryCount }

/-- The audit rows the call has added. -/
def audit (L : Ledger) : List (ℕ × TaskDispatchResult) :=
  L.past ++ (L.current.map Retry.entry).toList ++ L.failures.map (fun n => (n, .dispatchFailed))

/-- The current retry is dispatched. -/
def mark (L : Ledger) : Ledger := { L with current := L.current.map Retry.mark }

/-- A retry is recorded, which dispatches the one before, or there is none left. -/
def record (m : ℕ) (L : Ledger) : Ledger :=
  if L.retryCount < m then
    { L with
      status := .retrying
      retryCount := L.retryCount + 1
      recorded := true
      past := L.mark.audit
      current := some { number := L.retryCount + 1 }
      failures := [] }
  else { L with status := .failed, recorded := true }

/-- A message is accepted. -/
def send (L : Ledger) : Ledger := { L with sent := L.sent + 1 }

/-- A message is rejected, which is audited under the number `n`. -/
def reject (n : ℕ) (L : Ledger) : Ledger :=
  { L with status := .failed, failures := L.failures ++ [n] }

/-- The message of the current retry is sent.  The transaction after it is lost before the
record of the call is changed, when it loses one of the statements that fail the
execution. -/
def dispatch (n : ℕ) (plan : SessionPlan) (L : Ledger) : Outcome × Ledger :=
  if plan.accepts then
    match plan.fate 1 with
    | .commits => (.resent, L.send.mark)
    | .lost _ => (.raised, L.send)
    | .applied => (.raised, L.send.mark)
  else
    match plan.fate 1 with
    | .commits => (.settled, L.reject n)
    | .lost k => (.raised, if k < 3 then L else { L with recorded := L.status = .failed })
    | .applied => (.raised, L.reject n)

/-- One pass of an execution that may be retried `m` times. -/
def pass (m : ℕ) (plan : SessionPlan) (L : Ledger) : Outcome × Ledger :=
  if L.recorded then
    match plan.fate 0 with
    | .commits =>
        if L.retryCount < m then
          if L.current.any (·.dispatched) then (.resent, L)
          else L.dispatch (L.retryCount + 1) plan
        else (.settled, L)
    | _ => (.raised, L)
  else
    match plan.fate 0 with
    | .commits =>
        if L.retryCount < m then (L.record m).dispatch (L.retryCount + 1) plan
        else (.settled, L.record m)
    | .lost _ => (.raised, L)
    | .applied => (.raised, L.record m)

/-- At most `n` passes, of which the last may raise. -/
def run (m : ℕ) : ℕ → (ℕ → SessionPlan) → Ledger → Outcome × Ledger
  | 0, _, L => (.raised, L)
  | n + 1, plan, L =>
      match L.pass m (plan 0) with
      | (.raised, L') => L'.run m n (fun p => plan (p + 1))
      | (outcome, L') => (outcome, L')

/-! ### Invariants -/

/-- The ledgers that come up: a recorded retry has a row, and a row that is not recognized
is either untouched or has a pending retry. -/
structure Sound (m : ℕ) (L : Ledger) : Prop where
  retry : L.recorded = true → L.retryCount < m → L.current.isSome
  status : L.recorded = true → L.status = .retrying ∨ L.status = .failed
  untouched : L.recorded = false →
    (L.current = none ∧ L.audit = [] ∧ L.retryCount < m) ∨
      (L.status = .retrying ∧ ∃ c, L.current = some c ∧ c.dispatched = false)
  number : ∀ c ∈ L.current, c.number ≠ 0

variable {m n : ℕ} {L : Ledger} {plan : SessionPlan}

theorem Sound.initial (status : TaskStatus) (h : n < m) :
  (initial status n).Sound m
  where
  retry := by intro h; cases h
  status := by intro h; cases h
  untouched := by
    intro _
    exact Or.inl ⟨rfl, rfl, h⟩
  number := by rintro c ⟨⟩

theorem Sound.record (h : L.Sound m) :
  (L.record m).Sound m
  := by
  unfold Ledger.record
  split
  case isTrue hlt =>
    constructor
    · intro _ _
      rfl
    · intro _
      exact Or.inl rfl
    · intro hrecorded
      cases hrecorded
    · rintro c ⟨⟩
      apply Nat.succ_ne_zero
  case isFalse hlt =>
    constructor
    · intro _ hlt'
      apply absurd hlt' hlt
    · intro _
      exact Or.inr rfl
    · intro hrecorded
      cases hrecorded
    · apply h.number

theorem Sound.send (h : L.Sound m) :
  L.send.Sound m
  where
  retry := h.retry
  status := h.status
  untouched := h.untouched
  number := h.number

/-- The retry of a recorded ledger may be dispatched. -/
theorem Sound.mark (h : L.Sound m) (hrecorded : L.recorded = true) :
  L.mark.Sound m
  where
  retry := by
    intro _ hlt
    rw [Ledger.mark, Option.isSome_map]
    apply h.retry hrecorded hlt
  status := h.status
  untouched := by
    intro hunrecorded
    apply absurd hrecorded
    rw [show L.recorded = false from hunrecorded]
    apply Bool.false_ne_true
  number := by
    intro c hc
    simp only [Ledger.mark, Option.mem_def, Option.map_eq_some_iff] at hc
    obtain ⟨c', hc', rfl⟩ := hc
    apply h.number c' hc'

theorem Sound.reject (h : L.Sound m) (hrecorded : L.recorded = true) :
  (L.reject n).Sound m
  where
  retry := h.retry
  status := by
    intro _
    exact Or.inr rfl
  untouched := by
    intro hunrecorded
    apply absurd hrecorded
    rw [show L.recorded = false from hunrecorded]
    apply Bool.false_ne_true
  number := h.number

/-- Sending the message of a pending retry keeps a ledger sound. -/
theorem Sound.dispatch (h : L.Sound m) (hrecorded : L.recorded = true)
    (hpending : ∃ c, L.current = some c ∧ c.dispatched = false) (n : ℕ) (plan : SessionPlan) :
  (L.dispatch n plan).2.Sound m
  := by
  unfold Ledger.dispatch
  split
  case isTrue haccepts =>
    cases plan.fate 1 with
    | commits => apply h.send.mark hrecorded
    | lost k => apply h.send
    | applied => apply h.send.mark hrecorded
  case isFalse haccepts =>
    cases plan.fate 1 with
    | commits => apply h.reject hrecorded
    | applied => apply h.reject hrecorded
    | lost k =>
        simp only []
        split
        · apply h
        · constructor
          · intro _ hlt
            apply h.retry hrecorded hlt
          · intro _
            apply h.status hrecorded
          · intro hunrecorded
            right
            use (h.status hrecorded).resolve_right (of_decide_eq_false hunrecorded)
          · apply h.number

/-- The current retry of a new record is pending. -/
theorem current_record (hlt : L.retryCount < m) :
  (L.record m).current = some { number := L.retryCount + 1 }
  := by
  rw [record, if_pos hlt]

theorem recorded_record :
  (L.record m).recorded = true
  := by
  unfold record
  split
  · rfl
  · rfl

/-- A current retry that is not dispatched is pending. -/
theorem pending_of_any (hsome : L.current.isSome)
    (hdispatched : L.current.any (·.dispatched) = false) :
  ∃ c, L.current = some c ∧ c.dispatched = false
  := by
  obtain ⟨c, hc⟩ := Option.isSome_iff_exists.mp hsome
  use c, hc
  rw [hc] at hdispatched
  apply hdispatched

/-- A pass keeps a ledger sound. -/
theorem Sound.pass (h : L.Sound m) (plan : SessionPlan) :
  (L.pass m plan).2.Sound m
  := by
  unfold Ledger.pass
  cases hrecorded : L.recorded with
  | true =>
      cases plan.fate 0 with
      | lost k => apply h
      | applied => apply h
      | commits =>
          simp only [if_true]
          split
          case isTrue hlt =>
            cases hdispatched : L.current.any (·.dispatched) with
            | true => apply h
            | false =>
                apply h.dispatch hrecorded
                apply pending_of_any (h.retry hrecorded hlt) hdispatched
          case isFalse hlt => apply h
  | false =>
      cases plan.fate 0 with
      | lost k => apply h
      | applied => apply h.record
      | commits =>
          simp only [Bool.false_eq_true, if_false]
          split
          case isTrue hlt =>
            apply h.record.dispatch recorded_record
            use { number := L.retryCount + 1 }, current_record hlt
          case isFalse hlt => apply h.record

end Ledger

end WorkerTemplate
