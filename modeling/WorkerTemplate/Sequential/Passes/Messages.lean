import WorkerTemplate.Sequential.Passes.Phases

/-!
# The messages of a ledger

How many messages the passes of a ledger send depends on the plan of what fails: when a message is
sent twice, and when a retry is kept whose message is accepted.
-/

namespace WorkerTemplate

/-- A call sends its message twice: an accepted message is not marked, and a later pass sends
the message again. -/
def SendsTwice (retryCount maxRetries : ℕ) (plans : ℕ → SessionPlan) : Prop :=
  retryCount + 1 < maxRetries ∧
    ((plans 0).LosesMark ∧ ((plans 1).Sends ∨ (plans 1).Raises ∧ (plans 2).Sends) ∨
      (plans 0).Raises ∧ ¬ (plans 0).Sends ∧ (plans 1).LosesMark ∧ (plans 2).Sends ∧
        ((plans 0).LosesFailure → retryCount + 2 < maxRetries))

/-- No first commit raises after it has taken effect, before one succeeds. -/
def CommitsFirst (plans : ℕ → SessionPlan) : Prop :=
  ∀ p, (∀ q < p, (plans q).fate 0 ≠ .commits) → (plans p).fate 0 ≠ .applied

namespace Ledger

variable {m : ℕ} {L L' : Ledger} {plan : SessionPlan} {plans : ℕ → SessionPlan}

/-! ### Messages -/

/-- A pass of a fresh or a pending ledger sends a message when its plan allows it. -/
theorem sent_pass (h : L.Fresh m ∨ L.Pending m) (plan : SessionPlan) :
  (L.pass m plan).2.sent = L.sent + if plan.Sends then 1 else 0
  := by
  rcases h with h | h
  · rw [pass_fresh h]
    cases hfate : plan.fate 0 with
    | commits => simp [SessionPlan.Sends, hfate, sent_dispatch, h.record.sent]
    | lost k => simp [SessionPlan.Sends, hfate]
    | applied => simp [SessionPlan.Sends, hfate, h.record.sent]
  · rw [pass_pending h]
    split
    case isTrue hfate => simp [SessionPlan.Sends, hfate, sent_dispatch]
    case isFalse hfate => simp [SessionPlan.Sends, hfate]

/-- What is left of a recorded ledger by a rejected message that fails to be recorded, or is
recorded by a commit that raises. -/
theorem dispatch_of_rejected (hrecorded : L.recorded = true) (hsome : L.current.isSome)
    (hcurrent : L.current.any (·.dispatched) = false) (hsends : plan.accepts = false)
    (hfate : plan.fate 1 ≠ .commits) (n : ℕ) :
  ∃ L', L.dispatch n plan = (.raised, L') ∧ L'.sent = L.sent ∧ L'.retryCount = L.retryCount ∧
    L'.current.isSome ∧ L'.current.any (·.dispatched) = false ∧
    (L'.recorded = false ↔ (plan.fate 1).isLostAfter 3 = true ∧ L.status ≠ .failed)
  := by
  have h := dispatched n plan L
  generalize L.dispatch n plan = pass at h ⊢
  cases h with
  | marked hsends' => simp [hsends] at hsends'
  | unmarked hsends' => simp [hsends] at hsends'
  | markedRaised hsends' => simp [hsends] at hsends'
  | rejected _ hfate' => exact absurd hfate' hfate
  | lost _ _ hearly => exact ⟨_, rfl, rfl, rfl, hsome, hcurrent, by simp [hrecorded, hearly]⟩
  | lostAfter _ hlate => exact ⟨_, rfl, rfl, rfl, hsome, hcurrent, by simp [hlate]⟩
  | rejectedRaised _ hfate' =>
      refine ⟨_, rfl, rfl, rfl, hsome, hcurrent, ?_⟩
      simp [reject, hrecorded, hfate', Fate.isLostAfter]

/-- A pending ledger is pending or fresh after a pass that raises without sending. -/
theorem Pending.pass_of_not_sends (h : L.Pending m) (hsends : ¬ plan.Sends)
    (hraises : plan.Raises) :
  ∃ L', L.pass m plan = (.raised, L') ∧ L'.sent = L.sent ∧ L'.retryCount = L.retryCount ∧
    (L'.Fresh m ∨ L'.Pending m)
  := by
  rw [pass_pending h]
  split
  case isFalse hfate => exact ⟨L, rfl, rfl, rfl, Or.inr h⟩
  case isTrue hfate =>
    have haccepts : plan.accepts = false := by
      simpa [SessionPlan.Sends, hfate] using hsends
    have hfate' : plan.fate 1 ≠ .commits := by
      intro hcommits
      apply hraises ⟨hfate, hcommits⟩
    obtain ⟨L', hdispatch, hsent, hcount, hsome, hcurrent, hrecorded⟩ :=
      dispatch_of_rejected h.recorded h.isSome h.current haccepts hfate' (L.retryCount + 1)
    refine ⟨L', hdispatch, hsent, hcount, ?_⟩
    cases hrecorded' : L'.recorded with
    | true => exact Or.inr ⟨hrecorded', by rw [hcount]; exact h.lt, hsome, hcurrent⟩
    | false => exact Or.inl ⟨hrecorded', by rw [hcount]; exact h.lt⟩

/-- No pass takes a message back, and none sends two. -/
theorem sent_pass_bounds (m : ℕ) (plan : SessionPlan) (L : Ledger) :
  L.sent ≤ (L.pass m plan).2.sent ∧ (L.pass m plan).2.sent ≤ L.sent + 1
  := by
  have hrecord : (L.record m).sent = L.sent := by
    rw [record]
    split
    · rfl
    · rfl
  have hdispatch (n : ℕ) (L' : Ledger) (h : L'.sent = L.sent) :
      L.sent ≤ (L'.dispatch n plan).2.sent ∧ (L'.dispatch n plan).2.sent ≤ L.sent + 1 := by
    rw [sent_dispatch, h]
    split
    · exact ⟨Nat.le_succ _, le_rfl⟩
    · exact ⟨le_rfl, Nat.le_succ _⟩
  have hkeep (L' : Ledger) (h : L'.sent = L.sent) : L.sent ≤ L'.sent ∧ L'.sent ≤ L.sent + 1 := by
    omega
  unfold pass
  split
  · split
    · split
      · split
        · apply hkeep L rfl
        · apply hdispatch _ L rfl
      · apply hkeep L rfl
    · apply hkeep L rfl
  · split
    · split
      · apply hdispatch _ _ hrecord
      · apply hkeep _ hrecord
    · apply hkeep L rfl
    · apply hkeep _ hrecord

/-- A run goes on from a pass that raises, and ends with a pass that does not. -/
theorem run_succ (m n : ℕ) (plans : ℕ → SessionPlan) (L : Ledger) :
  L.run m (n + 1) plans
    = if (L.pass m (plans 0)).1 = .raised
      then (L.pass m (plans 0)).2.run m n (fun p => plans (p + 1))
      else L.pass m (plans 0)
  := by
  rw [run]
  split
  case h_1 L' heq => rw [heq, if_pos rfl]
  case h_2 outcome L' hne heq =>
    rw [if_neg]
    · apply heq.symm
    · intro hraised
      apply hne
      rw [← hraised, heq]

theorem sent_le_run (m n : ℕ) (plans : ℕ → SessionPlan) (L : Ledger) :
  L.sent ≤ (L.run m n plans).2.sent
  := by
  induction n generalizing L plans with
  | zero => rfl
  | succ n ih =>
      rw [run_succ]
      split
      · apply (sent_pass_bounds m (plans 0) L).1.trans (ih _ _)
      · apply (sent_pass_bounds m (plans 0) L).1

/-- A pass without failures returns. -/
theorem pass_of_not_raises (h : L.Fresh m ∨ L.Pending m) (hraises : ¬ plan.Raises) :
  (L.pass m plan).1 ≠ .raised
  := by
  obtain ⟨hfirst, hsecond⟩ := Classical.not_not.mp hraises
  have hdispatch (n : ℕ) (L' : Ledger) : (L'.dispatch n plan).1 ≠ .raised := by
    simp only [dispatch, hsecond]
    split
    · simp
    · simp
  rcases h with h | h
  · rw [pass_fresh h, hfirst]
    apply hdispatch
  · rw [pass_pending h, if_pos hfirst]
    apply hdispatch

/-- The last pass of a call sends at most one message. -/
theorem sent_run_one (h : L.Fresh m ∨ L.Pending m) (plans : ℕ → SessionPlan) :
  (L.run m 1 plans).2.sent = L.sent + if (plans 0).Sends then 1 else 0
  := by
  rw [run_one, sent_pass h]

/-- The message of a pending retry is sent by the next pass, or, when that raises, by the pass
after it. -/
theorem Pending.sent_run_two (h : L.Pending m) (plans : ℕ → SessionPlan) :
  L.sent < (L.run m 2 plans).2.sent
    ↔ (plans 0).Sends ∨ (plans 0).Raises ∧ (plans 1).Sends
  := by
  have hpass := sent_pass (Or.inr h) (plans 0)
  by_cases hsends : (plans 0).Sends
  · rw [if_pos hsends] at hpass
    refine iff_of_true ?_ (Or.inl hsends)
    calc L.sent
      _ < (L.pass m (plans 0)).2.sent := by omega
      _ ≤ (L.run m 2 plans).2.sent := by
          rw [run_succ]
          split
          · apply sent_le_run
          · rfl
  · rw [if_neg hsends] at hpass
    by_cases hraises : (plans 0).Raises
    · obtain ⟨L', heq, hsent, -, hphase⟩ := h.pass_of_not_sends hsends hraises
      rw [run_of_raised heq, sent_run_one hphase, hsent]
      split
      case isTrue hnext => simp [hraises, hnext]
      case isFalse hnext => simp [hsends, hnext]
    · rw [run_succ, if_neg (pass_of_not_raises (Or.inr h) hraises), hpass]
      simp [hsends, hraises]

/-- What is left of a recorded ledger by an accepted message. -/
theorem dispatch_of_sends (hrecorded : L.recorded = true) (hsome : L.current.isSome)
    (hcurrent : L.current.any (·.dispatched) = false) (hsends : plan.accepts = true) (n : ℕ) :
  ∃ outcome L', L.dispatch n plan = (outcome, L') ∧ L'.sent = L.sent + 1 ∧
    L'.retryCount = L.retryCount ∧ L'.recorded = true ∧ L'.current.isSome ∧
    L'.current.any (·.dispatched) = !(plan.fate 1).isLost ∧
    outcome = if plan.fate 1 = .commits then .resent else .raised
  := by
  obtain ⟨c, hc⟩ := Option.isSome_iff_exists.mp hsome
  have h := dispatched n plan L
  generalize L.dispatch n plan = pass at h ⊢
  cases h with
  | marked _ hfate => exact ⟨_, _, rfl, rfl, rfl, hrecorded, by simp [mark, send, hc],
      by simp [mark, send, hc, hfate, Retry.mark], by simp [hfate]⟩
  | unmarked _ hfate =>
      refine ⟨_, _, rfl, rfl, rfl, hrecorded, hsome, hcurrent.trans (by simp [hfate]), ?_⟩
      cases hfate' : plan.fate 1 with
      | commits => simp [hfate'] at hfate
      | lost k => rfl
      | applied => rfl
  | markedRaised _ hfate => exact ⟨_, _, rfl, rfl, rfl, hrecorded, by simp [mark, send, hc],
      by simp [mark, send, hc, hfate, Retry.mark], by simp [hfate]⟩
  | rejected hsends' => simp [hsends] at hsends'
  | lost hsends' => simp [hsends] at hsends'
  | lostAfter hsends' => simp [hsends] at hsends'
  | rejectedRaised hsends' => simp [hsends] at hsends'

/-- After a message has been sent, it is sent again only if it could not be marked and the
budget is not used up. -/
theorem pass_of_sends (h : L.Fresh m ∨ L.Pending m) (hsends : plan.Sends) :
  ∃ outcome L', L.pass m plan = (outcome, L') ∧ L'.sent = L.sent + 1 ∧
    L'.retryCount = L.retryCount + (if L.recorded then 0 else 1) ∧
    outcome = (if plan.fate 1 = .commits then .resent else .raised) ∧
    (L'.retryCount < m → (plan.fate 1).isLost = true → L'.Pending m) ∧
    (¬ (L'.retryCount < m ∧ (plan.fate 1).isLost = true) → L'.Quiet m)
  := by
  obtain ⟨hfate, haccepts⟩ := hsends
  have hquiet {L' : Ledger} (hrecorded : L'.recorded = true)
      (hcurrent : L'.current.any (·.dispatched) = !(plan.fate 1).isLost)
      (hnot : ¬ (L'.retryCount < m ∧ (plan.fate 1).isLost = true)) : L'.Quiet m := by
    by_cases hlt : L'.retryCount < m
    · have hlost : (plan.fate 1).isLost = false := by simpa [hlt] using hnot
      exact Or.inr ⟨hrecorded, by rw [hcurrent, hlost]; rfl⟩
    · exact Or.inl (Nat.le_of_not_lt hlt)
  rcases h with h | h
  · obtain ⟨outcome, L', hdispatch, hsent, hcount, hrecorded, hsome, hcurrent, houtcome⟩ :=
      dispatch_of_sends h.record.recorded h.record.isSome h.record.current haccepts
        (L.retryCount + 1)
    refine ⟨outcome, L', ?_, ?_, ?_, houtcome, ?_, hquiet hrecorded hcurrent⟩
    · rw [pass_fresh h, hfate]
      apply hdispatch
    · rw [hsent, h.record.sent]
    · rw [hcount, h.record.retryCount, h.recorded]
      rfl
    · intro hlt hlost
      exact ⟨hrecorded, hlt, hsome, by rw [hcurrent, hlost]; rfl⟩
  · obtain ⟨outcome, L', hdispatch, hsent, hcount, hrecorded, hsome, hcurrent, houtcome⟩ :=
      dispatch_of_sends h.recorded h.isSome h.current haccepts (L.retryCount + 1)
    refine ⟨outcome, L', ?_, hsent, ?_, houtcome, ?_, hquiet hrecorded hcurrent⟩
    · rw [pass_pending h, if_pos hfate]
      apply hdispatch
    · rw [hcount, h.recorded]
      rfl
    · intro hlt hlost
      exact ⟨hrecorded, hlt, hsome, by rw [hcurrent, hlost]; rfl⟩

/-- Two passes both send a message only when the first fails to mark it, and the budget is not
used up. -/
theorem two_le_sent_run_two (h : L.Fresh m ∨ L.Pending m) (plans : ℕ → SessionPlan) :
  L.sent + 2 ≤ (L.run m 2 plans).2.sent
    ↔ L.retryCount + (if L.recorded then 0 else 1) < m ∧ (plans 0).LosesMark ∧ (plans 1).Sends
  := by
  by_cases hsends : (plans 0).Sends
  · obtain ⟨outcome, L', hpass, hsent, hcount, houtcome, hpending, hquiet⟩ := pass_of_sends h hsends
    rw [← hcount, run_succ, hpass]
    by_cases hagain : L'.retryCount < m ∧ ((plans 0).fate 1).isLost = true
    · have hraised : outcome = .raised := by
        rw [houtcome, if_neg]
        intro hcommits
        simp [hcommits] at hagain
      have hone := sent_run_one (Or.inr (hpending hagain.1 hagain.2)) (fun p => plans (p + 1))
      simp only [hraised, if_true, hone, hsent, SessionPlan.LosesMark, hsends, hagain, true_and]
      split
      case isTrue hnext => simp [hnext]
      case isFalse hnext => simp [hnext]
    · have hsent' : (if outcome = .raised then L'.run m 1 (fun p => plans (p + 1))
          else (outcome, L')).2.sent = L.sent + 1 := by
        split
        · rw [((hquiet hagain).run 1 _).1, hsent]
        · apply hsent
      rw [hsent']
      simp only [SessionPlan.LosesMark, hsends, true_and]
      constructor
      · omega
      · rintro ⟨hlt, hlost, -⟩
        apply absurd ⟨hlt, hlost⟩ hagain
  · have hpass := sent_pass h (plans 0)
    rw [if_neg hsends] at hpass
    have hle : (L.run m 2 plans).2.sent ≤ L.sent + 1 := by
      rw [run_succ]
      split
      · rw [run_one]
        have hnext := (sent_pass_bounds m (plans (0 + 1)) (L.pass m (plans 0)).2).2
        omega
      · omega
    constructor
    · omega
    · rintro ⟨-, hmark, -⟩
      apply absurd hmark.1 hsends

/-- The phase after a first pass that raises without sending.  The retry count and the retry
that is still to be recorded, if it is, add up to one more than before, or to two when the
record of the call has been spoilt. -/
theorem Fresh.pass_of_not_sends (h : L.Fresh m) (hsends : ¬ plan.Sends) (hraises : plan.Raises) :
  ∃ L', L.pass m plan = (.raised, L') ∧ L'.sent = L.sent ∧
    (L'.retryCount < m → L'.Fresh m ∨ L'.Pending m) ∧
    L'.retryCount + (if L'.recorded then 0 else 1)
      = L.retryCount + (if plan.LosesFailure then 2 else 1)
  := by
  rw [pass_fresh h]
  cases hfate : plan.fate 0 with
  | lost k =>
      exact ⟨L, rfl, rfl, fun _ => Or.inl h,
        by simp [h.recorded, SessionPlan.LosesFailure, hfate]⟩
  | applied =>
      have hrecord := h.record
      refine ⟨L.record m, rfl, hrecord.sent, ?_, ?_⟩
      · intro hlt
        exact Or.inr ⟨hrecord.recorded, hlt, hrecord.isSome, hrecord.current⟩
      · simp [hrecord.recorded, hrecord.retryCount, SessionPlan.LosesFailure, hfate]
  | commits =>
      have hrecord := h.record
      have haccepts : plan.accepts = false := by
        simpa [SessionPlan.Sends, hfate] using hsends
      have hfate' : plan.fate 1 ≠ .commits := by
        intro hcommits
        apply hraises ⟨hfate, hcommits⟩
      obtain ⟨L', hdispatch, hsent, hcount, hsome, hcurrent, hrecorded⟩ :=
        dispatch_of_rejected hrecord.recorded hrecord.isSome hrecord.current haccepts hfate'
          (L.retryCount + 1)
      refine ⟨L', hdispatch, hsent.trans hrecord.sent, ?_, ?_⟩
      · intro hlt
        cases hrecorded' : L'.recorded with
        | true => exact Or.inr ⟨hrecorded', hlt, hsome, hcurrent⟩
        | false => exact Or.inl ⟨hrecorded', hlt⟩
      · rw [hcount, hrecord.retryCount]
        rw [hrecord.status] at hrecorded
        cases hrecorded' : L'.recorded with
        | true =>
            have hearly : (plan.fate 1).isLostAfter 3 = false := by
              simpa [hrecorded'] using hrecorded
            simp [SessionPlan.LosesFailure, hfate, haccepts, hearly]
        | false =>
            rw [hrecorded'] at hrecorded
            simp [SessionPlan.LosesFailure, hfate, haccepts, (hrecorded.mp rfl).1]

/-- A call sends a second message exactly when its plan says so. -/
theorem two_le_sent_run_three (h : L.Fresh m) (plans : ℕ → SessionPlan) :
  L.sent + 2 ≤ (L.run m 3 plans).2.sent ↔ SendsTwice L.retryCount m plans
  := by
  by_cases hsends : (plans 0).Sends
  · obtain ⟨outcome, L', hpass, hsent, hcount, houtcome, hpending, hquiet⟩ :=
      pass_of_sends (Or.inl h) hsends
    rw [h.recorded, if_neg Bool.false_ne_true] at hcount
    rw [run_succ, hpass]
    simp only [SendsTwice, SessionPlan.LosesMark, hsends, true_and, not_true_eq_false, false_and,
      and_false, or_false, ← hcount]
    by_cases hagain : L'.retryCount < m ∧ ((plans 0).fate 1).isLost = true
    · have hraised : outcome = .raised := by
        rw [houtcome, if_neg]
        intro hcommits
        simp [hcommits] at hagain
      have htwo := (hpending hagain.1 hagain.2).sent_run_two (fun p => plans (p + 1))
      rw [if_pos hraised]
      simp only [hagain, true_and]
      rw [← htwo, hsent]
      omega
    · have hsent' : (if outcome = .raised then L'.run m 2 (fun p => plans (p + 1))
          else (outcome, L')).2.sent = L.sent + 1 := by
        split
        · rw [((hquiet hagain).run 2 _).1, hsent]
        · apply hsent
      rw [hsent']
      constructor
      · omega
      · rintro ⟨hlt, hlost, -⟩
        apply absurd ⟨hlt, hlost⟩ hagain
  · have hmark : ¬ (plans 0).LosesMark := fun hmark => hsends hmark.1
    by_cases hraises : (plans 0).Raises
    · obtain ⟨L', hpass, hsent, hphase, hcount⟩ := h.pass_of_not_sends hsends hraises
      rw [run_of_raised hpass, ← hsent]
      simp only [SendsTwice, hsends, hmark, hraises, false_and, false_or, not_false_eq_true,
        true_and]
      by_cases hlt : L'.retryCount < m
      · rw [two_le_sent_run_two (hphase hlt), hcount]
        split
        case isTrue hfailure =>
          simp only [hfailure, true_imp_iff]
          constructor
          · rintro ⟨hlt, hmark', hnext⟩
            exact ⟨by omega, hmark', hnext, hlt⟩
          · rintro ⟨-, hmark', hnext, hlt⟩
            exact ⟨hlt, hmark', hnext⟩
        case isFalse hfailure =>
          simp only [hfailure, false_imp_iff, and_true]
      · have hquiet : L'.Quiet m := Or.inl (Nat.le_of_not_lt hlt)
        rw [(hquiet.run 2 _).1]
        constructor
        · omega
        · rintro ⟨hlt', -, -, hbudget⟩
          by_cases hfailure : (plans 0).LosesFailure
          · have hlt'' := hbudget hfailure
            rw [if_pos hfailure] at hcount
            split at hcount
            · omega
            · omega
          · rw [if_neg hfailure] at hcount
            omega
    · have hpass := sent_pass (Or.inl h) (plans 0)
      rw [if_neg hsends] at hpass
      rw [run_succ, if_neg (pass_of_not_raises (Or.inl h) hraises), hpass]
      simp only [SendsTwice, hmark, hraises, false_and, or_false, and_false, iff_false]
      omega

/-! ### Failures before the message is sent -/

/-- A pending retry is sent by the first pass whose first transaction commits, when nothing
fails after that. -/
theorem Pending.run_of_commits (h : L.Pending m) (n : ℕ) {plans : ℕ → SessionPlan}
    (haccepts : ∀ p, (plans p).accepts = true) (hsecond : ∀ p, (plans p).fate 1 = .commits)
    (hcommits : ∃ p < n, (plans p).fate 0 = .commits) :
  L.run m n plans = (.resent, L.send.mark)
  := by
  induction n generalizing plans with
  | zero => simp at hcommits
  | succ n ih =>
      rw [run_succ, pass_pending h]
      by_cases hfate : (plans 0).fate 0 = .commits
      · simp [hfate, dispatch, haccepts, hsecond]
      · rw [Nat.exists_lt_succ_left] at hcommits
        simp only [hfate, if_false, if_true]
        apply ih (fun p => haccepts (p + 1)) (fun p => hsecond (p + 1))
        apply hcommits.resolve_left hfate

theorem commitsFirst_iff (plans : ℕ → SessionPlan) :
  CommitsFirst plans
    ↔ (plans 0).fate 0 ≠ .applied ∧
      ((plans 0).fate 0 ≠ .commits → CommitsFirst (fun p => plans (p + 1)))
  := by
  constructor
  · intro h
    use h 0 (by simp)
    intro hcommits p hbefore
    apply h (p + 1)
    rintro (_ | q) hq
    · apply hcommits
    · apply hbefore q (Nat.lt_of_succ_lt_succ hq)
  · rintro ⟨hfirst, hlater⟩ (_ | p) hbefore
    · apply hfirst
    · apply hlater (hbefore 0 (Nat.succ_pos p))
      intro q hq
      apply hbefore (q + 1) (Nat.succ_lt_succ hq)

/-- The audit row of a retry that has been sent. -/
theorem Fresh.record_send_mark (h : L.Fresh m) (hcurrent : L.current = none)
    (haudit : L.audit = []) :
  (L.record m).send.mark.sent = L.sent + 1 ∧
    (L.record m).send.mark.retryCount = L.retryCount + 1 ∧
    (L.record m).send.mark.audit = [(L.retryCount + 1, .dispatched)]
  := by
  simp only [audit, List.append_eq_nil_iff, List.map_eq_nil_iff] at haudit
  rw [Ledger.record, if_pos h.lt]
  refine ⟨rfl, rfl, ?_⟩
  simp [audit, mark, send, Retry.mark, Retry.entry, hcurrent, haudit]

/-- A retry that is allowed is sent and dispatched when nothing fails after a first transaction
has committed, unless it uses up the budget and was recorded by a commit that raised. -/
theorem Fresh.run_of_commits (h : L.Fresh m) (n : ℕ) {plans : ℕ → SessionPlan}
    (haccepts : ∀ p, (plans p).accepts = true)
    (hsecond : ∀ p, (plans p).fate 1 = .commits) (hcommits : ∃ p < n, (plans p).fate 0 = .commits)
    (hbudget : L.retryCount + 1 < m ∨ CommitsFirst plans) :
  L.run m n plans = (.resent, (L.record m).send.mark)
  := by
  induction n generalizing plans with
  | zero => simp at hcommits
  | succ n ih =>
      rw [run_succ, pass_fresh h]
      rw [Nat.exists_lt_succ_left] at hcommits
      cases hfate : (plans 0).fate 0 with
      | commits => simp [dispatch, haccepts, hsecond]
      | lost k =>
          simp only [if_true]
          rw [hfate] at hcommits
          apply ih (fun p => haccepts (p + 1)) (fun p => hsecond (p + 1))
            (hcommits.resolve_left (by simp))
          rw [commitsFirst_iff, hfate] at hbudget
          apply hbudget.imp_right fun hfirst => hfirst.2 (by simp)
      | applied =>
          simp only [if_true]
          rw [hfate] at hcommits
          rw [commitsFirst_iff, hfate] at hbudget
          have hlt := hbudget.resolve_right (by simp)
          rcases h.record.pending_or_quiet (m := m) with ⟨-, hpending⟩ | ⟨hlt', -⟩
          · apply hpending.run_of_commits n (fun p => haccepts (p + 1)) (fun p => hsecond (p + 1))
            apply hcommits.resolve_left (by simp)
          · exact absurd hlt hlt'

/-- A retry that uses up the budget and was recorded by a commit that raised is not sent. -/
theorem Fresh.sent_run_of_not_commitsFirst (h : L.Fresh m) (n : ℕ) {plans : ℕ → SessionPlan}
    (hcommits : ∃ p < n, (plans p).fate 0 = .commits)
    (hbudget : ¬ (L.retryCount + 1 < m ∨ CommitsFirst plans)) :
  (L.run m n plans).2.sent = L.sent
  := by
  induction n generalizing plans with
  | zero => simp at hcommits
  | succ n ih =>
      rw [run_succ, pass_fresh h]
      rw [Nat.exists_lt_succ_left] at hcommits
      obtain ⟨hlt, hfirst⟩ := not_or.mp hbudget
      rw [commitsFirst_iff] at hfirst
      cases hfate : (plans 0).fate 0 with
      | commits => simp [hfate] at hfirst
      | lost k =>
          simp only [if_true]
          rw [hfate] at hcommits hfirst
          apply ih (hcommits.resolve_left (by simp))
          rintro (hlt' | hfirst')
          · apply hlt hlt'
          · apply hfirst ⟨by simp, fun _ => hfirst'⟩
      | applied =>
          simp only [if_true]
          rcases h.record.pending_or_quiet (m := m) with ⟨hlt', -⟩ | ⟨-, hquiet⟩
          · exact absurd hlt' hlt
          · rw [(hquiet.run n _).1, h.record.sent]

end Ledger

end WorkerTemplate
