import WorkerTemplate.Sequential.Ledger

/-!
# The phases of a ledger

As long as a retry may still be recorded or sent, a ledger is fresh or pending; otherwise it is
quiet, and no later pass changes its retry count or sends a message.
-/

namespace WorkerTemplate

/-- The transaction is lost after at least `n` statements. -/
def Fate.isLostAfter (n : ℕ) : Fate → Bool
  | .lost k => n ≤ k
  | _ => false

/-- The transaction is lost. -/
def Fate.isLost (f : Fate) : Bool := f.isLostAfter 0

@[simp]
theorem Fate.isLost_commits : Fate.commits.isLost = false := rfl

@[simp]
theorem Fate.isLost_applied : Fate.applied.isLost = false := rfl

@[simp]
theorem Fate.isLost_lost (k : ℕ) : (Fate.lost k).isLost = true := rfl

namespace SessionPlan

variable (plan : SessionPlan)

/-- The first transaction commits, and the message sent after it is accepted. -/
def Sends : Prop := plan.fate 0 = .commits ∧ plan.accepts = true

/-- One of the two transactions of the session fails. -/
def Raises : Prop := ¬ (plan.fate 0 = .commits ∧ plan.fate 1 = .commits)

/-- Both transactions commit, and the message is rejected. -/
def Settles : Prop :=
  plan.fate 0 = .commits ∧ plan.fate 1 = .commits ∧ plan.accepts = false

/-- The message is accepted, and the transaction that marks it is lost. -/
def LosesMark : Prop := plan.Sends ∧ (plan.fate 1).isLost = true

/-- The message is rejected, and the transaction that fails the execution is lost after its
third statement: the record of the call has been changed by then. -/
def LosesFailure : Prop :=
  plan.fate 0 = .commits ∧ plan.accepts = false ∧ (plan.fate 1).isLostAfter 3 = true

instance : Decidable plan.Sends := inferInstanceAs (Decidable (_ ∧ _))

instance : Decidable plan.Raises := inferInstanceAs (Decidable (¬ (_ ∧ _)))

instance : Decidable plan.Settles := inferInstanceAs (Decidable (_ ∧ _ ∧ _))

instance : Decidable plan.LosesMark := inferInstanceAs (Decidable (_ ∧ _))

instance : Decidable plan.LosesFailure := inferInstanceAs (Decidable (_ ∧ _ ∧ _))

/-- A pass that loses the failure of an execution is one that raises, and whose first
transaction is not lost. -/
theorem LosesFailure.raises {plan : SessionPlan} (h : plan.LosesFailure) :
  plan.Raises ∧ (plan.fate 0).isLost = false
  := by
  obtain ⟨hfate, -, hlate⟩ := h
  constructor
  · rintro ⟨-, hfate'⟩
    simp [hfate', Fate.isLostAfter] at hlate
  · rw [hfate]
    rfl

end SessionPlan

namespace Ledger

variable {m : ℕ} {L L' : Ledger} {plan : SessionPlan} {plans : ℕ → SessionPlan}

/-! ### Phases -/

/-- The next pass records a retry. -/
structure Fresh (m : ℕ) (L : Ledger) : Prop where
  recorded : L.recorded = false
  lt : L.retryCount < m

/-- The next pass sends the message of the current retry. -/
structure Pending (m : ℕ) (L : Ledger) : Prop where
  recorded : L.recorded = true
  lt : L.retryCount < m
  isSome : L.current.isSome
  current : L.current.any (·.dispatched) = false

/-- The next pass neither records a retry nor sends a message. -/
def Quiet (m : ℕ) (L : Ledger) : Prop :=
  m ≤ L.retryCount ∨ L.recorded = true ∧ L.current.any (·.dispatched) = true

/-- What a pass records when the retries are exhausted. -/
def exhaust (m : ℕ) (L : Ledger) : Ledger := if L.recorded then L else L.record m

theorem pass_exhausted (h : m ≤ L.retryCount) (plan : SessionPlan) :
  L.pass m plan
    = match plan.fate 0 with
      | .commits => (.settled, L.exhaust m)
      | .lost _ => (.raised, L)
      | .applied => (.raised, L.exhaust m)
  := by
  have hlt : ¬ L.retryCount < m := Nat.not_lt.mpr h
  unfold pass exhaust
  cases hrecorded : L.recorded with
  | true =>
      cases plan.fate 0 with
      | commits => simp only [hlt, ↓reduceIte]
      | lost k => rfl
      | applied => rfl
  | false =>
      cases plan.fate 0 with
      | commits => simp only [hlt, Bool.false_eq_true, ↓reduceIte]
      | lost k => rfl
      | applied => rfl

theorem pass_dispatched (hrecorded : L.recorded = true) (hlt : L.retryCount < m)
    (hdispatched : L.current.any (·.dispatched) = true) (plan : SessionPlan) :
  L.pass m plan = if plan.fate 0 = .commits then (.resent, L) else (.raised, L)
  := by
  unfold pass
  simp only [hrecorded, hlt, hdispatched, ↓reduceIte]
  cases plan.fate 0 with
  | commits => rfl
  | lost k => rfl
  | applied => rfl

theorem pass_pending (h : L.Pending m) (plan : SessionPlan) :
  L.pass m plan
    = if plan.fate 0 = .commits then L.dispatch (L.retryCount + 1) plan else (.raised, L)
  := by
  unfold pass
  simp only [h.recorded, h.lt, h.current, Bool.false_eq_true, ↓reduceIte]
  cases plan.fate 0 with
  | commits => rfl
  | lost k => rfl
  | applied => rfl

theorem pass_fresh (h : L.Fresh m) (plan : SessionPlan) :
  L.pass m plan
    = match plan.fate 0 with
      | .commits => (L.record m).dispatch (L.retryCount + 1) plan
      | .lost _ => (.raised, L)
      | .applied => (.raised, L.record m)
  := by
  unfold pass
  rw [h.recorded, if_neg Bool.false_ne_true]
  cases plan.fate 0 with
  | commits => rw [if_pos h.lt]
  | lost k => rfl
  | applied => rfl

/-- Recording that the retries are exhausted keeps a ledger as it is but for its status. -/
theorem exhaust_of_le (h : m ≤ L.retryCount) :
  (L.exhaust m).sent = L.sent ∧ (L.exhaust m).retryCount = L.retryCount
  := by
  unfold exhaust
  split
  · exact ⟨rfl, rfl⟩
  · rw [record, if_neg (Nat.not_lt.mpr h)]
    exact ⟨rfl, rfl⟩

/-- A quiet ledger stays quiet. -/
theorem Quiet.pass (h : L.Quiet m) (plan : SessionPlan) :
  (L.pass m plan).2.Quiet m ∧ (L.pass m plan).2.sent = L.sent ∧
    (L.pass m plan).2.retryCount = L.retryCount
  := by
  by_cases hle : m ≤ L.retryCount
  · obtain ⟨hsent, hcount⟩ := exhaust_of_le hle
    rw [pass_exhausted hle]
    cases plan.fate 0 with
    | commits => exact ⟨Or.inl (hle.trans_eq hcount.symm), hsent, hcount⟩
    | lost k => exact ⟨h, rfl, rfl⟩
    | applied => exact ⟨Or.inl (hle.trans_eq hcount.symm), hsent, hcount⟩
  · obtain ⟨hrecorded, hdispatched⟩ := h.resolve_left hle
    rw [pass_dispatched hrecorded (Nat.lt_of_not_le hle) hdispatched]
    split
    · exact ⟨h, rfl, rfl⟩
    · exact ⟨h, rfl, rfl⟩

/-- No run of a quiet ledger sends a message or raises the retry count. -/
theorem Quiet.run (h : L.Quiet m) (n : ℕ) (plans : ℕ → SessionPlan) :
  (L.run m n plans).2.sent = L.sent ∧ (L.run m n plans).2.retryCount = L.retryCount
  := by
  induction n generalizing L plans with
  | zero => exact ⟨rfl, rfl⟩
  | succ n ih =>
      obtain ⟨hquiet, hsent, hcount⟩ := h.pass (plans 0)
      rw [Ledger.run]
      split
      case h_1 L' hpass =>
        rw [hpass] at hquiet hsent hcount
        obtain ⟨hsent', hcount'⟩ := ih hquiet (fun p => plans (p + 1))
        exact ⟨hsent'.trans hsent, hcount'.trans hcount⟩
      case h_2 outcome L' _ hpass =>
        rw [hpass] at hsent hcount
        exact ⟨hsent, hcount⟩

/-- Sending a message does one of seven things. -/
inductive Dispatched (n : ℕ) (plan : SessionPlan) (L : Ledger) : Outcome × Ledger → Prop where
  | marked (hsends : plan.accepts = true) (hfate : plan.fate 1 = .commits) :
      Dispatched n plan L (.resent, L.send.mark)
  | unmarked (hsends : plan.accepts = true) (hfate : (plan.fate 1).isLost = true) :
      Dispatched n plan L (.raised, L.send)
  | markedRaised (hsends : plan.accepts = true) (hfate : plan.fate 1 = .applied) :
      Dispatched n plan L (.raised, L.send.mark)
  | rejected (hsends : plan.accepts = false) (hfate : plan.fate 1 = .commits) :
      Dispatched n plan L (.settled, L.reject n)
  | lost (hsends : plan.accepts = false) (hfate : (plan.fate 1).isLost = true)
      (hearly : (plan.fate 1).isLostAfter 3 = false) :
      Dispatched n plan L (.raised, L)
  | lostAfter (hsends : plan.accepts = false) (hfate : (plan.fate 1).isLostAfter 3 = true) :
      Dispatched n plan L (.raised, { L with recorded := L.status = .failed })
  | rejectedRaised (hsends : plan.accepts = false) (hfate : plan.fate 1 = .applied) :
      Dispatched n plan L (.raised, L.reject n)

theorem dispatched (n : ℕ) (plan : SessionPlan) (L : Ledger) :
  Dispatched n plan L (L.dispatch n plan)
  := by
  unfold dispatch
  cases hsends : plan.accepts with
  | true =>
      cases hfate : plan.fate 1 with
      | commits => exact .marked hsends hfate
      | lost k => exact .unmarked hsends (by rw [hfate]; rfl)
      | applied => exact .markedRaised hsends hfate
  | false =>
      cases hfate : plan.fate 1 with
      | commits => exact .rejected hsends hfate
      | applied => exact .rejectedRaised hsends hfate
      | lost k =>
          simp only [Bool.false_eq_true, ↓reduceIte]
          split
          case isTrue hk =>
            exact .lost hsends (by rw [hfate]; rfl) (by simpa [hfate, Fate.isLostAfter])
          case isFalse hk => exact .lostAfter hsends (by simpa [hfate, Fate.isLostAfter] using hk)

/-- A message is sent by a pass whose first transaction commits when the broker accepts it. -/
theorem sent_dispatch (n : ℕ) (plan : SessionPlan) (L : Ledger) :
  (L.dispatch n plan).2.sent = L.sent + if plan.accepts then 1 else 0
  := by
  have h := dispatched n plan L
  generalize L.dispatch n plan = pass at h ⊢
  cases h with
  | marked hsends => simp [hsends, mark, send]
  | unmarked hsends => simp [hsends, send]
  | markedRaised hsends => simp [hsends, mark, send]
  | rejected hsends => simp [hsends, reject]
  | lost hsends => simp [hsends]
  | lostAfter hsends => simp [hsends]
  | rejectedRaised hsends => simp [hsends, reject]

/-- The ledger after a retry has been recorded. -/
structure Recorded (L L' : Ledger) : Prop where
  recorded : L'.recorded = true
  retryCount : L'.retryCount = L.retryCount + 1
  sent : L'.sent = L.sent
  status : L'.status = .retrying
  isSome : L'.current.isSome
  current : L'.current.any (·.dispatched) = false

theorem Fresh.record (h : L.Fresh m) :
  L.Recorded (L.record m)
  := by
  rw [Ledger.record, if_pos h.lt]
  exact ⟨rfl, rfl, rfl, rfl, rfl, rfl⟩

/-- A recorded retry is pending, or the budget is used up by it. -/
theorem Recorded.pending_or_quiet (h : L.Recorded L') :
  (L.retryCount + 1 < m ∧ L'.Pending m) ∨ (¬ L.retryCount + 1 < m ∧ L'.Quiet m)
  := by
  by_cases hlt : L.retryCount + 1 < m
  · exact Or.inl ⟨hlt, h.recorded, by rwa [h.retryCount], h.isSome, h.current⟩
  · refine Or.inr ⟨hlt, Or.inl ?_⟩
    rw [h.retryCount]
    omega

theorem run_of_raised {n : ℕ} (h : L.pass m (plans 0) = (.raised, L')) :
  L.run m (n + 1) plans = L'.run m n (fun p => plans (p + 1))
  := by
  rw [run, h]

theorem run_of_settled {n : ℕ} (h : L.pass m (plans 0) = (.settled, L')) :
  L.run m (n + 1) plans = (.settled, L')
  := by
  rw [run, h]

theorem run_of_resent {n : ℕ} (h : L.pass m (plans 0) = (.resent, L')) :
  L.run m (n + 1) plans = (.resent, L')
  := by
  rw [run, h]

theorem run_one :
  L.run m 1 plans = L.pass m (plans 0)
  := by
  rw [run]
  split
  case h_1 hpass => rw [hpass, run]
  case h_2 hpass => rw [hpass]

end Ledger

end WorkerTemplate
