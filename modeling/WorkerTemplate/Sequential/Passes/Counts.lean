import WorkerTemplate.Sequential.Passes.Messages

/-!
# The retry count of a ledger

How far the passes of a ledger raise its retry count depends on the plan of what fails.
-/

namespace WorkerTemplate

/-- A call raises the retry count twice: a rejected message spoils the record of the call, and
a later pass records a second retry. -/
def SpendsTwice (retryCount maxRetries : ℕ) (plans : ℕ → SessionPlan) : Prop :=
  retryCount + 1 < maxRetries ∧
    ((plans 0).LosesFailure ∧
        (((plans 1).fate 0).isLost = false ∨ ((plans 2).fate 0).isLost = false) ∨
      (plans 0).Raises ∧ ¬ ((plans 0).fate 0 = .commits ∧ (plans 0).fate 1 = .applied) ∧
        (plans 1).LosesFailure ∧ ((plans 2).fate 0).isLost = false)

namespace Ledger

variable {m : ℕ} {L L' : Ledger} {plan : SessionPlan} {plans : ℕ → SessionPlan}

theorem retryCount_dispatch (n : ℕ) (plan : SessionPlan) (L : Ledger) :
  (L.dispatch n plan).2.retryCount = L.retryCount
  := by
  have h := dispatched n plan L
  generalize L.dispatch n plan = pass at h ⊢
  cases h with
  | marked => rfl
  | unmarked => rfl
  | markedRaised => rfl
  | rejected => rfl
  | lost => rfl
  | lostAfter => rfl
  | rejectedRaised => rfl

/-- A pass of a recorded ledger keeps the retry count. -/
theorem retryCount_pass_of_recorded (hrecorded : L.recorded = true) (plan : SessionPlan) :
  (L.pass m plan).2.retryCount = L.retryCount
  := by
  unfold pass
  rw [if_pos hrecorded]
  split
  · split
    · split
      · rfl
      · apply retryCount_dispatch
    · rfl
  · rfl

/-- A pass of a fresh ledger raises the retry count unless its first transaction is lost. -/
theorem Fresh.retryCount_pass (h : L.Fresh m) (plan : SessionPlan) :
  (L.pass m plan).2.retryCount = L.retryCount + if (plan.fate 0).isLost then 0 else 1
  := by
  rw [pass_fresh h]
  cases plan.fate 0 with
  | commits => simp [retryCount_dispatch, h.record.retryCount]
  | lost k => simp
  | applied => simp [h.record.retryCount]

theorem retryCount_le_pass (m : ℕ) (plan : SessionPlan) (L : Ledger) :
  L.retryCount ≤ (L.pass m plan).2.retryCount
  := by
  cases hrecorded : L.recorded with
  | true => rw [retryCount_pass_of_recorded hrecorded]
  | false =>
      by_cases hlt : L.retryCount < m
      · rw [Fresh.retryCount_pass ⟨hrecorded, hlt⟩]
        apply Nat.le_add_right
      · apply (Quiet.pass (Or.inl (Nat.le_of_not_lt hlt)) plan).2.2.ge

theorem retryCount_le_run (m n : ℕ) (plans : ℕ → SessionPlan) (L : Ledger) :
  L.retryCount ≤ (L.run m n plans).2.retryCount
  := by
  induction n generalizing L plans with
  | zero => rfl
  | succ n ih =>
      rw [run_succ]
      split
      · apply (retryCount_le_pass m (plans 0) L).trans (ih _ _)
      · apply retryCount_le_pass

/-- The row of a recorded ledger is no longer recognized after the failure of a retried
execution has been lost. -/
theorem recorded_pass_of_recorded (hrecorded : L.recorded = true) (plan : SessionPlan) :
  (L.pass m plan).2.recorded = false
    ↔ L.retryCount < m ∧ L.current.any (·.dispatched) = false ∧ plan.LosesFailure ∧
      L.status ≠ .failed
  := by
  by_cases hlt : L.retryCount < m
  · cases hdispatched : L.current.any (·.dispatched) with
    | true =>
        rw [pass_dispatched hrecorded hlt hdispatched]
        split
        · simp [hrecorded]
        · simp [hrecorded]
    | false =>
        have hpass : L.pass m plan
            = if plan.fate 0 = .commits then L.dispatch (L.retryCount + 1) plan
              else (.raised, L) := by
          unfold pass
          simp only [hrecorded, hlt, hdispatched, Bool.false_eq_true, ↓reduceIte]
          cases plan.fate 0 with
          | commits => rfl
          | lost k => rfl
          | applied => rfl
        rw [hpass]
        split
        case isFalse hfate => simp [hrecorded, SessionPlan.LosesFailure, hfate]
        case isTrue hfate =>
          have h := dispatched (L.retryCount + 1) plan L
          generalize L.dispatch (L.retryCount + 1) plan = pass at h ⊢
          cases h with
          | marked hsends => simp [SessionPlan.LosesFailure, hsends, mark, send, hrecorded]
          | unmarked hsends => simp [SessionPlan.LosesFailure, hsends, send, hrecorded]
          | markedRaised hsends => simp [SessionPlan.LosesFailure, hsends, mark, send, hrecorded]
          | rejected _ hfate' =>
              simp [SessionPlan.LosesFailure, hfate', Fate.isLostAfter, reject, hrecorded]
          | lost _ _ hearly => simp [SessionPlan.LosesFailure, hearly, hrecorded]
          | lostAfter hsends hlate => simp [SessionPlan.LosesFailure, hfate, hsends, hlate, hlt]
          | rejectedRaised _ hfate' =>
              simp [SessionPlan.LosesFailure, hfate', Fate.isLostAfter, reject, hrecorded]
  · rw [pass_exhausted (Nat.le_of_not_lt hlt)]
    have hexhaust : L.exhaust m = L := by rw [exhaust, if_pos hrecorded]
    rw [hexhaust]
    cases plan.fate 0 with
    | commits => simp [hrecorded, hlt]
    | lost k => simp [hrecorded, hlt]
    | applied => simp [hrecorded, hlt]

/-- A pass that loses the failure of an execution raises. -/
theorem pass_of_losesFailure (hlt : L.retryCount < m)
    (hcurrent : L.current.any (·.dispatched) = false)
    (hfailure : plan.LosesFailure) :
  (L.pass m plan).1 = .raised
  := by
  obtain ⟨hfate, haccepts, hlate⟩ := hfailure
  have hdispatch (n : ℕ) (L' : Ledger) : (L'.dispatch n plan).1 = .raised := by
    cases hfate' : plan.fate 1 with
    | commits => simp [hfate', Fate.isLostAfter] at hlate
    | lost k => simp [dispatch, haccepts, hfate']
    | applied => simp [hfate', Fate.isLostAfter] at hlate
  unfold pass
  simp only [hfate, hlt, hcurrent, Bool.false_eq_true, ↓reduceIte]
  split
  · apply hdispatch
  · apply hdispatch

/-- Two passes of a recorded ledger raise the retry count when the first spoils the record of
the call and the second records a retry. -/
theorem lt_retryCount_run_two_of_recorded (hrecorded : L.recorded = true)
    (plans : ℕ → SessionPlan) :
  L.retryCount < (L.run m 2 plans).2.retryCount
    ↔ L.retryCount < m ∧ L.current.any (·.dispatched) = false ∧ L.status ≠ .failed ∧
      (plans 0).LosesFailure ∧ ((plans 1).fate 0).isLost = false
  := by
  have hcount := retryCount_pass_of_recorded (m := m) hrecorded (plans 0)
  have hspoilt := recorded_pass_of_recorded (m := m) hrecorded (plans 0)
  rw [run_succ]
  cases hrecorded' : (L.pass m (plans 0)).2.recorded with
  | true =>
      have hrun : (if (L.pass m (plans 0)).1 = .raised
          then (L.pass m (plans 0)).2.run m 1 (fun p => plans (p + 1))
          else L.pass m (plans 0)).2.retryCount = L.retryCount := by
        split
        · rw [run_one, retryCount_pass_of_recorded hrecorded', hcount]
        · apply hcount
      rw [hrun]
      constructor
      · intro hlt
        apply absurd hlt (Nat.lt_irrefl _)
      · rintro ⟨hlt, hcurrent, hstatus, hfailure, -⟩
        have hunrecorded := hspoilt.mpr ⟨hlt, hcurrent, hfailure, hstatus⟩
        rw [hunrecorded] at hrecorded'
        cases hrecorded'
  | false =>
      obtain ⟨hlt, hcurrent, hfailure, hstatus⟩ := hspoilt.mp hrecorded'
      have hfresh : (L.pass m (plans 0)).2.Fresh m := ⟨hrecorded', by rwa [hcount]⟩
      rw [if_pos (pass_of_losesFailure hlt hcurrent hfailure), run_one, hfresh.retryCount_pass,
        hcount]
      simp only [hlt, hcurrent, hstatus, hfailure, ne_eq, not_false_eq_true, true_and]
      cases ((plans (0 + 1)).fate 0).isLost with
      | true => simp
      | false => simp

/-- A fresh ledger is fresh after a pass whose first transaction is lost. -/
theorem Fresh.pass_of_lost (h : L.Fresh m) (hlost : (plan.fate 0).isLost = true) :
  L.pass m plan = (.raised, L)
  := by
  rw [pass_fresh h]
  cases hfate : plan.fate 0 with
  | commits => simp [hfate] at hlost
  | lost k => rfl
  | applied => simp [hfate] at hlost

/-- Two passes of a fresh ledger raise the retry count unless both are lost. -/
theorem Fresh.lt_retryCount_run_two (h : L.Fresh m) (plans : ℕ → SessionPlan) :
  L.retryCount < (L.run m 2 plans).2.retryCount
    ↔ ((plans 0).fate 0).isLost = false ∨ ((plans 1).fate 0).isLost = false
  := by
  cases hlost : ((plans 0).fate 0).isLost with
  | true =>
      rw [run_of_raised (h.pass_of_lost hlost), run_one, h.retryCount_pass]
      cases ((plans (0 + 1)).fate 0).isLost with
      | true => simp
      | false => simp
  | false =>
      have hcount := h.retryCount_pass (plans 0)
      rw [hlost, if_neg Bool.false_ne_true] at hcount
      simp only [true_or, iff_true]
      calc L.retryCount
        _ < (L.pass m (plans 0)).2.retryCount := by omega
        _ ≤ (L.run m 2 plans).2.retryCount := by
            rw [run_succ]
            split
            · apply retryCount_le_run
            · rfl

/-- A retry that has been recorded by a pass that raises is recognized unless its failure was
lost, and it can still fail unless a commit of the second transaction has taken effect. -/
theorem Fresh.pass_of_raises (h : L.Fresh m) (hlost : (plan.fate 0).isLost = false)
    (hraises : plan.Raises) :
  ∃ L', L.pass m plan = (.raised, L') ∧ L'.retryCount = L.retryCount + 1 ∧
    (L'.recorded = false ↔ plan.LosesFailure) ∧
    ((L'.current.any (·.dispatched) = false ∧ L'.status ≠ .failed)
      ↔ ¬ (plan.fate 0 = .commits ∧ plan.fate 1 = .applied))
  := by
  have hrecord := h.record
  rw [pass_fresh h]
  cases hfate : plan.fate 0 with
  | lost k => simp [hfate] at hlost
  | applied =>
      refine ⟨L.record m, rfl, hrecord.retryCount, ?_, ?_⟩
      · simp [hrecord.recorded, SessionPlan.LosesFailure, hfate]
      · simp [hrecord.current, hrecord.status]
  | commits =>
      have hdispatch := dispatched (L.retryCount + 1) plan (L.record m)
      obtain ⟨retry, hretry⟩ := Option.isSome_iff_exists.mp hrecord.isSome
      simp only [SessionPlan.LosesFailure, hfate, true_and]
      generalize (L.record m).dispatch (L.retryCount + 1) plan = pass at hdispatch ⊢
      cases hdispatch with
      | marked _ hfate' => exact absurd ⟨hfate, hfate'⟩ hraises
      | rejected _ hfate' => exact absurd ⟨hfate, hfate'⟩ hraises
      | unmarked hsends hfate' =>
          refine ⟨_, rfl, hrecord.retryCount, ?_, ?_⟩
          · simp [send, hrecord.recorded, hsends]
          · have hne : plan.fate 1 ≠ .applied := by
              intro happlied
              simp [happlied] at hfate'
            simp [send, hrecord.current, hrecord.status, hne]
      | markedRaised hsends hfate' =>
          refine ⟨_, rfl, hrecord.retryCount, ?_, ?_⟩
          · simp [send, mark, hrecord.recorded, hsends]
          · simp [send, mark, hretry, Retry.mark, hfate']
      | lost _ hfate' hearly =>
          refine ⟨_, rfl, hrecord.retryCount, ?_, ?_⟩
          · simp [hrecord.recorded, hearly]
          · have hne : plan.fate 1 ≠ .applied := by
              intro happlied
              simp [happlied] at hfate'
            simp [hrecord.current, hrecord.status, hne]
      | lostAfter hsends hlate =>
          refine ⟨_, rfl, hrecord.retryCount, ?_, ?_⟩
          · simp [hsends, hlate, hrecord.status]
          · have hne : plan.fate 1 ≠ .applied := by
              intro happlied
              simp [happlied, Fate.isLostAfter] at hlate
            simp [hrecord.current, hrecord.status, hne]
      | rejectedRaised _ hfate' =>
          refine ⟨_, rfl, hrecord.retryCount, ?_, ?_⟩
          · simp [reject, hrecord.recorded, hfate', Fate.isLostAfter]
          · simp [reject, hfate']

/-- Two passes of a fresh ledger raise the retry count twice when the first spoils the record of
the call. -/
theorem Fresh.two_le_retryCount_run_two (h : L.Fresh m) (plans : ℕ → SessionPlan) :
  L.retryCount + 2 ≤ (L.run m 2 plans).2.retryCount
    ↔ L.retryCount + 1 < m ∧ (plans 0).LosesFailure ∧ ((plans 1).fate 0).isLost = false
  := by
  have hcount := h.retryCount_pass (plans 0)
  cases hlost : ((plans 0).fate 0).isLost with
  | true =>
      have hfailure : ¬ (plans 0).LosesFailure := by
        intro hfailure
        rw [hfailure.raises.2] at hlost
        cases hlost
      rw [run_of_raised (h.pass_of_lost hlost), run_one, h.retryCount_pass]
      simp only [hfailure, false_and, and_false, iff_false]
      split
      · omega
      · omega
  | false =>
      rw [hlost, if_neg Bool.false_ne_true] at hcount
      by_cases hraises : (plans 0).Raises
      · obtain ⟨L', hpass, hcount', hrecorded, -⟩ := h.pass_of_raises hlost hraises
        rw [run_of_raised hpass, run_one, ← hrecorded, ← hcount']
        cases hrecorded' : L'.recorded with
        | true =>
            rw [retryCount_pass_of_recorded hrecorded']
            simp [hcount']
        | false =>
            by_cases hlt : L'.retryCount < m
            · rw [Fresh.retryCount_pass ⟨hrecorded', hlt⟩]
              cases ((plans (0 + 1)).fate 0).isLost with
              | true => simp [hcount']
              | false => simp [hcount', hcount' ▸ hlt]
            · rw [(Quiet.pass (Or.inl (Nat.le_of_not_lt hlt)) _).2.2]
              simp only [hlt, false_and, iff_false]
              omega
      · have hfailure : ¬ (plans 0).LosesFailure := fun hfailure => hraises hfailure.raises.1
        rw [run_succ, if_neg (pass_of_not_raises (Or.inl h) hraises), hcount]
        simp [hfailure]

/-- A call raises the retry count twice exactly when its plan says so. -/
theorem two_le_retryCount_run_three (h : L.Fresh m) (plans : ℕ → SessionPlan) :
  L.retryCount + 2 ≤ (L.run m 3 plans).2.retryCount ↔ SpendsTwice L.retryCount m plans
  := by
  have hcount := h.retryCount_pass (plans 0)
  unfold SpendsTwice
  cases hlost : ((plans 0).fate 0).isLost with
  | true =>
      have hfailure : ¬ (plans 0).LosesFailure := by
        intro hfailure
        rw [hfailure.raises.2] at hlost
        cases hlost
      have hcommits : (plans 0).fate 0 ≠ .commits := by
        intro hcommits
        simp [hcommits] at hlost
      rw [run_of_raised (h.pass_of_lost hlost), h.two_le_retryCount_run_two]
      simp [hfailure, hcommits, SessionPlan.Raises]
  | false =>
      rw [hlost, if_neg Bool.false_ne_true] at hcount
      by_cases hraises : (plans 0).Raises
      · obtain ⟨L', hpass, hcount', hrecorded, happlied⟩ := h.pass_of_raises hlost hraises
        rw [run_of_raised hpass, ← happlied, ← hrecorded, ← hcount']
        cases hrecorded' : L'.recorded with
        | true =>
            have hlt : L.retryCount + 2 ≤ (L'.run m 2 (fun p => plans (p + 1))).2.retryCount
                ↔ L'.retryCount < (L'.run m 2 (fun p => plans (p + 1))).2.retryCount := by
              omega
            rw [hlt, lt_retryCount_run_two_of_recorded hrecorded']
            simp [hraises, and_assoc]
        | false =>
            by_cases hlt : L'.retryCount < m
            · have hfresh : L'.Fresh m := ⟨hrecorded', hlt⟩
              have hlt' : L.retryCount + 2 ≤ (L'.run m 2 (fun p => plans (p + 1))).2.retryCount
                  ↔ L'.retryCount < (L'.run m 2 (fun p => plans (p + 1))).2.retryCount := by
                omega
              rw [hlt', hfresh.lt_retryCount_run_two]
              simp only [hlt, true_and]
              constructor
              · exact Or.inl
              · rintro (hnext | ⟨-, -, -, hnext⟩)
                · apply hnext
                · exact Or.inr hnext
            · have hquiet : L'.Quiet m := Or.inl (Nat.le_of_not_lt hlt)
              rw [(hquiet.run 2 _).2]
              simp only [hlt, false_and, iff_false]
              omega
      · have hfailure : ¬ (plans 0).LosesFailure := fun hfailure => hraises hfailure.raises.1
        rw [run_succ, if_neg (pass_of_not_raises (Or.inl h) hraises), hcount]
        simp [hfailure, hraises]

end Ledger

end WorkerTemplate
