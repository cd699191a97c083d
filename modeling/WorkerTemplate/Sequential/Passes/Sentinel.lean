import WorkerTemplate.Sequential.Passes.Counts

/-!
# The sentinel of a ledger

Whether the passes of a ledger leave the sentinel depends on the plan of what fails.
-/

namespace WorkerTemplate

/-- A call returns without the sentinel although its message was accepted: a pass that sends it
raises, and a later pass finds the retries exhausted, or sends the message again and has
it rejected. -/
def LosesSentinel (retryCount maxRetries : ℕ) (plans : ℕ → SessionPlan) : Prop :=
  ((plans 0).Sends ∧ (plans 0).fate 1 ≠ .commits ∧
      if retryCount + 1 < maxRetries then
        ((plans 0).fate 1).isLost = true ∧
          ((plans 1).Settles ∨
            (plans 1).Raises ∧ ¬ ((plans 1).Sends ∧ (plans 1).fate 1 = .applied) ∧
              (plans 2).Settles)
      else (plans 1).fate 0 = .commits ∨ (plans 2).fate 0 = .commits) ∨
    ((plans 0).Raises ∧ ¬ (plans 0).Sends ∧
      (((plans 0).fate 0).isLost = true ∨ retryCount + 1 < maxRetries) ∧
      (plans 1).Sends ∧ (plans 1).fate 1 ≠ .commits ∧
      if retryCount + (if (plans 0).LosesFailure then 2 else 1) < maxRetries then
        ((plans 1).fate 1).isLost = true ∧ (plans 2).Settles
      else (plans 2).fate 0 = .commits)

namespace Ledger

variable {m : ℕ} {L L' : Ledger} {plan : SessionPlan} {plans : ℕ → SessionPlan}

/-- A pass of a fresh or a pending ledger returns without the sentinel when its message is
rejected. -/
theorem pass_eq_settled (h : L.Fresh m ∨ L.Pending m) (plan : SessionPlan) :
  (L.pass m plan).1 = .settled ↔ plan.Settles
  := by
  have hdispatch (n : ℕ) (L' : Ledger) (hfate : plan.fate 0 = .commits) :
      (L'.dispatch n plan).1 = .settled ↔ plan.Settles := by
    simp only [SessionPlan.Settles, hfate, true_and]
    have hd := dispatched n plan L'
    generalize L'.dispatch n plan = pass at hd ⊢
    cases hd with
    | marked hsends => simp [hsends]
    | unmarked hsends => simp [hsends]
    | markedRaised hsends => simp [hsends]
    | rejected hsends hfate' => simp [hsends, hfate']
    | lost _ hfate' =>
        simp only [reduceCtorEq, false_iff, not_and]
        intro hcommits
        simp [hcommits] at hfate'
    | lostAfter _ hlate =>
        simp only [reduceCtorEq, false_iff, not_and]
        intro hcommits
        simp [hcommits, Fate.isLostAfter] at hlate
    | rejectedRaised _ hfate' => simp [hfate']
  rcases h with h | h
  · rw [pass_fresh h]
    cases hfate : plan.fate 0 with
    | commits => apply hdispatch _ _ hfate
    | lost k => simp [SessionPlan.Settles, hfate]
    | applied => simp [SessionPlan.Settles, hfate]
  · rw [pass_pending h]
    split
    case isTrue hfate => apply hdispatch _ _ hfate
    case isFalse hfate => simp [SessionPlan.Settles, hfate]

/-- A call that finds the retries exhausted returns without the sentinel as soon as a first
transaction commits. -/
theorem run_two_eq_settled_of_exhausted (h : m ≤ L.retryCount) (plans : ℕ → SessionPlan) :
  (L.run m 2 plans).1 = .settled
    ↔ (plans 0).fate 0 = .commits ∨ (plans 1).fate 0 = .commits
  := by
  have hpass {L' : Ledger} (h' : m ≤ L'.retryCount) (plan : SessionPlan) :
      (L'.pass m plan).1 = if plan.fate 0 = .commits then .settled else .raised := by
    rw [pass_exhausted h']
    cases plan.fate 0 with
    | commits => rfl
    | lost k => rfl
    | applied => rfl
  have hnext : m ≤ (L.pass m (plans 0)).2.retryCount :=
    h.trans (retryCount_le_pass m (plans 0) L)
  rw [run_succ, hpass h]
  by_cases hfate : (plans 0).fate 0 = .commits
  · simp [hfate, hpass h]
  · rw [if_neg hfate, if_pos rfl, run_one, hpass hnext]
    simp [hfate]

/-- A call that finds its retry dispatched never returns without the sentinel. -/
theorem run_ne_settled_of_dispatched (hrecorded : L.recorded = true) (hlt : L.retryCount < m)
    (hdispatched : L.current.any (·.dispatched) = true) (n : ℕ) (plans : ℕ → SessionPlan) :
  (L.run m n plans).1 ≠ .settled
  := by
  induction n generalizing plans with
  | zero => simp [run]
  | succ n ih =>
      rw [run_succ, pass_dispatched hrecorded hlt hdispatched]
      by_cases hfate : (plans 0).fate 0 = .commits
      · simp [hfate]
      · simp only [hfate, if_false, if_true]
        apply ih

/-- Two passes of a pending ledger return without the sentinel when one of them has its message
rejected, and the first does not dispatch the retry. -/
theorem Pending.run_two_eq_settled (h : L.Pending m) (plans : ℕ → SessionPlan) :
  (L.run m 2 plans).1 = .settled
    ↔ (plans 0).Settles ∨
      (plans 0).Raises ∧ ¬ ((plans 0).Sends ∧ (plans 0).fate 1 = .applied) ∧ (plans 1).Settles
  := by
  by_cases hsends : (plans 0).Sends
  · have hsettles : ¬ (plans 0).Settles := by
      rintro ⟨-, -, haccepts⟩
      rw [hsends.2] at haccepts
      cases haccepts
    obtain ⟨outcome, L', hpass, -, hcount, houtcome, hpending, hquiet⟩ :=
      pass_of_sends (Or.inr h) hsends
    have hlt : L'.retryCount < m := by
      rw [hcount, h.recorded]
      apply h.lt
    simp only [hsettles, false_or, hsends, true_and]
    cases hfate : (plans 0).fate 1 with
    | commits =>
        rw [hfate, if_pos rfl] at houtcome
        rw [run_succ, hpass, houtcome]
        simp [SessionPlan.Raises, hsends.1, hfate]
    | lost k =>
        rw [hfate, if_neg (by simp)] at houtcome
        rw [houtcome] at hpass
        rw [run_of_raised hpass, run_one,
          pass_eq_settled (Or.inr (hpending hlt (by rw [hfate]; rfl)))]
        simp [SessionPlan.Raises, hfate]
    | applied =>
        rw [hfate, if_neg (by simp)] at houtcome
        rw [houtcome] at hpass
        have hdispatched := (hquiet (by simp [hfate])).resolve_left (Nat.not_le.mpr hlt)
        rw [run_of_raised hpass]
        simp only [not_true_eq_false, false_and, and_false, iff_false]
        apply run_ne_settled_of_dispatched hdispatched.1 hlt hdispatched.2
  · by_cases hraises : (plans 0).Raises
    · have hsettles : ¬ (plans 0).Settles := fun hsettles => hraises ⟨hsettles.1, hsettles.2.1⟩
      obtain ⟨L', hpass, -, -, hphase⟩ := h.pass_of_not_sends hsends hraises
      rw [run_of_raised hpass, run_one, pass_eq_settled hphase]
      simp [hsettles, hraises, hsends]
    · rw [run_succ, if_neg (pass_of_not_raises (Or.inr h) hraises), pass_eq_settled (Or.inr h)]
      simp [hraises]

/-- A pass that returns without the sentinel has sent nothing. -/
theorem sent_pass_of_settled (h : (L.pass m plan).1 = .settled) :
  (L.pass m plan).2.sent = L.sent
  := by
  have hrecord : (L.record m).sent = L.sent := by
    rw [record]
    split
    · rfl
    · rfl
  have hdispatch (n : ℕ) (L' : Ledger) (hsent : L'.sent = L.sent)
      (hsettled : (L'.dispatch n plan).1 = .settled) : (L'.dispatch n plan).2.sent = L.sent := by
    have hd := dispatched n plan L'
    generalize L'.dispatch n plan = pass at hd hsettled ⊢
    cases hd with
    | marked => cases hsettled
    | unmarked => cases hsettled
    | markedRaised => cases hsettled
    | rejected => apply hsent
    | lost => cases hsettled
    | lostAfter => cases hsettled
    | rejectedRaised => cases hsettled
  revert h
  unfold pass
  split
  · split
    · split
      · split
        · intro h
          cases h
        · apply hdispatch _ L rfl
      · intro _
        rfl
    · intro h
      cases h
  · split
    · split
      · apply hdispatch _ _ hrecord
      · intro _
        apply hrecord
    · intro h
      cases h
    · intro h
      cases h

/-- The last pass after a message that was sent by a pass that raised returns without the
sentinel when the retries are exhausted, and otherwise when its own message is rejected. -/
theorem run_one_eq_settled_of_sends (h : L.Fresh m ∨ L.Pending m) (hsends : plan.Sends)
    (hfate : plan.fate 1 ≠ .commits) (hpass : L.pass m plan = (.raised, L'))
    (plans : ℕ → SessionPlan) :
  (L'.run m 1 plans).1 = .settled
    ↔ if L.retryCount + (if L.recorded then 0 else 1) < m then
        (plan.fate 1).isLost = true ∧ (plans 0).Settles
      else (plans 0).fate 0 = .commits
  := by
  obtain ⟨outcome, L'', hpass', -, hcount, -, hpending, hquiet⟩ := pass_of_sends h hsends
  rw [hpass] at hpass'
  obtain ⟨rfl, rfl⟩ := Prod.ext_iff.mp hpass'
  rw [← hcount, run_one]
  split
  case isTrue hlt =>
    cases hfate' : plan.fate 1 with
    | commits => exact absurd hfate' hfate
    | lost k =>
        rw [pass_eq_settled (Or.inr (hpending hlt (by rw [hfate']; rfl)))]
        simp
    | applied =>
        have hdispatched := (hquiet (by simp [hfate'])).resolve_left (Nat.not_le.mpr hlt)
        rw [pass_dispatched hdispatched.1 hlt hdispatched.2]
        split
        · simp
        · simp
  case isFalse hlt =>
    rw [pass_exhausted (Nat.le_of_not_lt hlt)]
    cases (plans 0).fate 0 with
    | commits => simp
    | lost k => simp
    | applied => simp

/-- A run of two passes that sends nothing in the first returns without the sentinel only if it
has sent nothing at all. -/
theorem not_settled_and_sent (plans : ℕ → SessionPlan) (h : (L.pass m (plans 0)).2.sent = L.sent) :
  ¬ ((L.run m 2 plans).1 = .settled ∧ L.sent < (L.run m 2 plans).2.sent)
  := by
  rw [run_succ]
  rintro ⟨hsettled, hsent⟩
  split at hsent
  case isTrue hraised =>
    rw [if_pos hraised, run_one] at hsettled
    rw [run_one, sent_pass_of_settled hsettled] at hsent
    omega
  case isFalse hraised => omega

/-- A call returns without the sentinel although its message was accepted exactly when its plan
says so. -/
theorem run_three_eq_settled (h : L.Fresh m) (plans : ℕ → SessionPlan) :
  (L.run m 3 plans).1 = .settled ∧ L.sent < (L.run m 3 plans).2.sent
    ↔ LosesSentinel L.retryCount m plans
  := by
  unfold LosesSentinel
  by_cases hsends : (plans 0).Sends
  · obtain ⟨outcome, L', hpass, hsent, hcount, houtcome, hpending, hquiet⟩ :=
      pass_of_sends (Or.inl h) hsends
    rw [h.recorded, if_neg Bool.false_ne_true] at hcount
    simp only [hsends, true_and, not_true_eq_false, false_and, and_false, or_false, ← hcount]
    by_cases hfate : (plans 0).fate 1 = .commits
    · rw [if_pos hfate] at houtcome
      rw [run_succ, hpass, houtcome]
      simp [hfate]
    · rw [if_neg hfate] at houtcome
      rw [houtcome] at hpass
      have hle := sent_le_run m 2 (fun p => plans (p + 1)) L'
      have hlt : L.sent < (L'.run m 2 (fun p => plans (p + 1))).2.sent := by omega
      rw [run_of_raised hpass]
      simp only [hlt, and_true, ne_eq, hfate, not_false_eq_true, true_and]
      split
      case isTrue hbudget =>
        cases hfate' : (plans 0).fate 1 with
        | commits => exact absurd hfate' hfate
        | lost k =>
            rw [(hpending hbudget (by rw [hfate']; rfl)).run_two_eq_settled]
            simp
        | applied =>
            have hdispatched := (hquiet (by simp [hfate'])).resolve_left (Nat.not_le.mpr hbudget)
            have hne := run_ne_settled_of_dispatched hdispatched.1 hbudget hdispatched.2 2
              (fun p => plans (p + 1))
            simp [hne]
      case isFalse hbudget =>
        rw [run_two_eq_settled_of_exhausted (Nat.le_of_not_lt hbudget)]
  · simp only [hsends, false_and, false_or, not_false_eq_true, true_and]
    by_cases hraises : (plans 0).Raises
    · obtain ⟨L', hpass, hsent, hphase, hcount⟩ := h.pass_of_not_sends hsends hraises
      have hcount' := h.retryCount_pass (plans 0)
      rw [hpass] at hcount'
      have hbudget : L'.retryCount < m
          ↔ ((plans 0).fate 0).isLost = true ∨ L.retryCount + 1 < m := by
        rw [hcount']
        cases ((plans 0).fate 0).isLost with
        | true => simp [h.lt]
        | false => simp
      rw [run_of_raised hpass, ← hsent, ← hbudget, ← hcount]
      simp only [hraises, true_and]
      by_cases hlt : L'.retryCount < m
      · by_cases hsends' : (plans 1).Sends
        · obtain ⟨outcome, L'', hpass', hsent', -, houtcome, -⟩ :=
            pass_of_sends (hphase hlt) hsends'
          simp only [hlt, hsends', true_and]
          by_cases hfate : (plans 1).fate 1 = .commits
          · rw [if_pos hfate] at houtcome
            rw [run_succ, hpass', houtcome]
            simp [hfate]
          · rw [if_neg hfate] at houtcome
            rw [houtcome] at hpass'
            have hle := sent_le_run m 1 (fun p => plans (p + 1 + 1)) L''
            have hlt' : L'.sent < (L''.run m 1 (fun p => plans (p + 1 + 1))).2.sent := by omega
            have hrun : L'.run m 2 (fun p => plans (p + 1))
                = L''.run m 1 (fun p => plans (p + 1 + 1)) := run_of_raised hpass'
            rw [hrun]
            simp only [hlt', and_true, ne_eq, hfate, not_false_eq_true, true_and]
            apply run_one_eq_settled_of_sends (hphase hlt) hsends' hfate hpass'
        · have hpass' := sent_pass (hphase hlt) (plans 1)
          rw [if_neg hsends'] at hpass'
          simp only [hsends', false_and, and_false, iff_false]
          apply not_settled_and_sent (fun p => plans (p + 1)) hpass'
      · have hquiet : L'.Quiet m := Or.inl (Nat.le_of_not_lt hlt)
        rw [(hquiet.run 2 _).1]
        simp [hlt]
    · have hpass := sent_pass (Or.inl h) (plans 0)
      rw [if_neg hsends] at hpass
      rw [run_succ, if_neg (pass_of_not_raises (Or.inl h) hraises), hpass]
      simp [hraises]

/-- The retry is dispatched only by sending its message. -/
theorem sent_of_dispatched {sent : ℕ} (hle : sent ≤ L.sent)
    (hL : L.current.any (·.dispatched) = true → sent < L.sent) (plan : SessionPlan) :
  ((L.pass m plan).1 = .resent → sent < (L.pass m plan).2.sent) ∧
    ((L.pass m plan).2.current.any (·.dispatched) = true → sent < (L.pass m plan).2.sent)
  := by
  have hrecord : sent ≤ (L.record m).sent ∧
      ((L.record m).current.any (·.dispatched) = true → sent < (L.record m).sent) := by
    unfold record
    split
    · exact ⟨hle, by simp⟩
    · exact ⟨hle, hL⟩
  have hdispatch (n : ℕ) (L' : Ledger) (hle' : sent ≤ L'.sent)
      (hL' : L'.current.any (·.dispatched) = true → sent < L'.sent) :
      ((L'.dispatch n plan).1 = .resent → sent < (L'.dispatch n plan).2.sent) ∧
      ((L'.dispatch n plan).2.current.any (·.dispatched) = true
        → sent < (L'.dispatch n plan).2.sent) := by
    have hd := dispatched n plan L'
    generalize L'.dispatch n plan = pass at hd ⊢
    cases hd with
    | marked => exact ⟨fun _ => Nat.lt_succ_of_le hle', fun _ => Nat.lt_succ_of_le hle'⟩
    | unmarked => exact ⟨fun _ => Nat.lt_succ_of_le hle', fun _ => Nat.lt_succ_of_le hle'⟩
    | markedRaised => exact ⟨fun _ => Nat.lt_succ_of_le hle', fun _ => Nat.lt_succ_of_le hle'⟩
    | rejected => exact ⟨by simp, hL'⟩
    | lost => exact ⟨by simp, hL'⟩
    | lostAfter => exact ⟨by simp, hL'⟩
    | rejectedRaised => exact ⟨by simp, hL'⟩
  unfold pass
  split
  · split
    · split
      · split
        case isTrue hdispatched => exact ⟨fun _ => hL hdispatched, hL⟩
        case isFalse => apply hdispatch _ L hle hL
      · exact ⟨by simp, hL⟩
    · exact ⟨by simp, hL⟩
  · split
    · split
      · apply hdispatch _ _ hrecord.1 hrecord.2
      · exact ⟨by simp, hrecord.2⟩
    · exact ⟨by simp, hL⟩
    · exact ⟨by simp, hrecord.2⟩

/-- A call that leaves the outcome to a receiver has sent a message. -/
theorem sent_of_resent {sent : ℕ} (n : ℕ) (plans : ℕ → SessionPlan) (hle : sent ≤ L.sent)
    (hL : L.current.any (·.dispatched) = true → sent < L.sent)
    (h : (L.run m n plans).1 = .resent) :
  sent < (L.run m n plans).2.sent
  := by
  induction n generalizing L plans with
  | zero => simp [run] at h
  | succ n ih =>
      have hpass := sent_of_dispatched (m := m) hle hL (plans 0)
      rw [run_succ] at h ⊢
      split at h
      case isTrue hraised =>
        rw [if_pos hraised]
        apply ih _ (hle.trans (sent_pass_bounds m (plans 0) L).1) hpass.2 h
      case isFalse hraised =>
        rw [if_neg hraised]
        apply hpass.1 h

end Ledger

end WorkerTemplate
