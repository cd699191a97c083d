import WorkerTemplate.Sequential.Shadowed

/-!
# The numbers of failed dispatches

A message that is rejected is audited under the number of the decision of its pass.  This is
the number of the retry whose message was rejected, unless the retry was recorded by an
earlier pass.
-/

namespace WorkerTemplate

/-! ### Audit rows in the order of their creation -/

/-- The number of the last retry among audit rows, if it is not `last`. -/
def lastRetry : Option ℕ → List (ℕ × TaskDispatchResult) → Option ℕ
  | last, [] => last
  | last, (_, .dispatchFailed) :: rows => lastRetry last rows
  | _, (n, _) :: rows => lastRetry (some n) rows

/-- Every failed dispatch among audit rows has the number of the last retry before it, which is
the one whose message was rejected. -/
def OwnNumbers : Option ℕ → List (ℕ × TaskDispatchResult) → Prop
  | _, [] => True
  | last, (n, .dispatchFailed) :: rows => last = some n ∧ OwnNumbers last rows
  | _, (n, _) :: rows => OwnNumbers (some n) rows

theorem ownNumbers_append (last : Option ℕ) (rows rows' : List (ℕ × TaskDispatchResult)) :
  OwnNumbers last (rows ++ rows') ↔ OwnNumbers last rows ∧ OwnNumbers (lastRetry last rows) rows'
  := by
  induction rows generalizing last with
  | nil => simp [OwnNumbers, lastRetry]
  | cons row rows ih =>
      obtain ⟨n, d⟩ := row
      cases d with
      | dispatchFailed =>
          rw [List.cons_append, OwnNumbers, OwnNumbers, lastRetry, ih, and_assoc]
      | blocked => apply ih (some n)
      | dispatched => apply ih (some n)
      | pending => apply ih (some n)
      | shadowed => apply ih (some n)

/-- The failures of one retry. -/
theorem ownNumbers_failures (last : Option ℕ) (failures : List ℕ) :
  OwnNumbers last (failures.map (fun n => (n, .dispatchFailed)))
    ↔ ∀ n ∈ failures, last = some n
  := by
  induction failures with
  | nil => simp [OwnNumbers]
  | cons n failures ih => simp [OwnNumbers, ih]

namespace Ledger

variable {m : ℕ} {L L' : Ledger} {plan : SessionPlan} {plans : ℕ → SessionPlan} {c : Retry}

/-- Every failed dispatch of a ledger has the number of its retry. -/
def Own (L : Ledger) : Prop := OwnNumbers none L.audit

/-- The number of the current retry is the retry count it has raised. -/
def Numbered (L : Ledger) : Prop := ∀ c ∈ L.current, c.number = L.retryCount

/-- The failures of a current retry are those after its row. -/
theorem own_iff (h : L.current = some c) :
  L.Own ↔ OwnNumbers none L.past ∧ ∀ n ∈ L.failures, c.number = n
  := by
  have hretry (last : Option ℕ) (rows : List (ℕ × TaskDispatchResult)) :
      OwnNumbers last (c.entry :: rows) ↔ OwnNumbers (some c.number) rows := by
    obtain ⟨n, dispatched⟩ := c
    cases dispatched with
    | true => rfl
    | false => rfl
  rw [Own, audit, h, List.append_assoc, ownNumbers_append, Option.map_some, Option.toList_some,
    List.singleton_append, hretry, ownNumbers_failures]
  simp

theorem own_mark :
  L.mark.Own ↔ L.Own
  := by
  cases h : L.current with
  | none =>
      have hmark : L.mark = L := by rw [mark, h, Option.map_none, ← h]
      rw [hmark]
  | some c =>
      have hmark : L.mark.current = some c.mark := by rw [mark, h, Option.map_some]
      rw [own_iff hmark, own_iff h]
      rfl

theorem own_reject (h : L.current = some c) (n : ℕ) :
  (L.reject n).Own ↔ L.Own ∧ c.number = n
  := by
  have hreject : (L.reject n).current = some c := h
  rw [own_iff hreject, own_iff h, reject]
  simp only [List.forall_mem_append, List.mem_singleton, forall_eq, and_assoc]

/-- Recording a retry writes no failure. -/
theorem own_record :
  (L.record m).Own ↔ L.Own
  := by
  unfold record
  split
  · rw [own_iff rfl]
    simp only [List.not_mem_nil, false_implies, implies_true, and_true]
    apply own_mark
  · rfl

end Ledger

/-- The message is rejected, and its failure is written. -/
def SessionPlan.Audits (plan : SessionPlan) : Prop :=
  plan.fate 0 = .commits ∧ plan.accepts = false ∧ (plan.fate 1).isLost = false

/-- One of the two transactions fails, and the retry stays pending, as it is not marked and the
record of the call is not spoilt. -/
def SessionPlan.KeepsPending (plan : SessionPlan) : Prop :=
  plan.Raises ∧ ¬ (plan.Sends ∧ plan.fate 1 = .applied) ∧ ¬ plan.LosesFailure

/-- A retry is recorded, and stays pending. -/
def SessionPlan.LeavesPending (plan : SessionPlan) : Prop :=
  (plan.fate 0).isLost = false ∧ plan.KeepsPending

/-- A call fails a dispatch under another number: a retry is recorded by one pass and stays
pending, and a later pass sends its message, has it rejected and writes the failure. -/
def MisnumbersFailure (retryCount maxRetries : ℕ) (plans : ℕ → SessionPlan) : Prop :=
  retryCount + 1 < maxRetries ∧
    ((plans 0).LeavesPending ∧
        ((plans 1).Audits ∨
          ((plans 1).KeepsPending ∨ (plans 0).Audits ∧ (plans 1).LosesFailure) ∧
            (plans 2).Audits) ∨
      ((plans 0).fate 0).isLost = true ∧ (plans 1).LeavesPending ∧ (plans 2).Audits ∨
      (plans 0).LosesFailure ∧ retryCount + 2 < maxRetries ∧ (plans 1).LeavesPending ∧
        (plans 2).Audits)

namespace SessionPlan

variable {plan : SessionPlan}

theorem not_keepsPending_of_losesFailure (h : plan.LosesFailure) : ¬ plan.KeepsPending :=
  fun hkeeps => hkeeps.2.2 h

/-- A session in which both transactions commit neither keeps a retry pending nor spoils the
record of the call. -/
theorem of_not_raises (h : ¬ plan.Raises) :
  ¬ plan.KeepsPending ∧ ¬ plan.LosesFailure ∧ (plan.fate 0).isLost = false
  := by
  refine ⟨fun hkeeps => h hkeeps.1, fun hloses => h hloses.raises.1, ?_⟩
  rw [Raises, not_not] at h
  rw [h.1]
  rfl

/-- A session in which a message is marked by a commit that raises. -/
theorem of_marked (hsends : plan.Sends) (hfate : plan.fate 1 = .applied) :
  ¬ plan.KeepsPending ∧ ¬ plan.LosesFailure ∧ (plan.fate 0).isLost = false
  := by
  refine ⟨fun hkeeps => hkeeps.2.1 ⟨hsends, hfate⟩, ?_, ?_⟩
  · rintro ⟨-, haccepts, -⟩
    cases haccepts.symm.trans hsends.2
  · rw [hsends.1]
    rfl

end SessionPlan

namespace Ledger

variable {m : ℕ} {L L' : Ledger} {plan : SessionPlan} {plans : ℕ → SessionPlan} {c : Retry}

/-- Sending a message fails under another number only when it is sent under another number. -/
theorem own_dispatch (h : L.current = some c) (n : ℕ) (plan : SessionPlan) :
  (L.dispatch n plan).2.Own
    ↔ L.Own ∧ ¬ (plan.accepts = false ∧ (plan.fate 1).isLost = false ∧ c.number ≠ n)
  := by
  have hdispatch := dispatched n plan L
  generalize L.dispatch n plan = pass at hdispatch ⊢
  cases hdispatch with
  | marked hsends hfate =>
      simp only [hsends, Bool.true_eq_false, false_and, not_false_eq_true, and_true]
      apply own_mark
  | unmarked hsends hfate =>
      simp only [hsends, Bool.true_eq_false, false_and, not_false_eq_true, and_true]
      rfl
  | markedRaised hsends hfate =>
      simp only [hsends, Bool.true_eq_false, false_and, not_false_eq_true, and_true]
      apply own_mark
  | rejected hsends hfate => simp [own_reject h, hsends, hfate]
  | lost hsends hfate hearly => simp [hfate]
  | lostAfter hsends hfate =>
      have hlost : (plan.fate 1).isLost = true := by
        cases hfate' : plan.fate 1 with
        | commits => simp [hfate', Fate.isLostAfter] at hfate
        | lost k => rfl
        | applied => simp [hfate', Fate.isLostAfter] at hfate
      simp only [hlost, Bool.true_eq_false, false_and, and_false, not_false_eq_true, and_true]
      rfl
  | rejectedRaised hsends hfate => simp [own_reject h, hsends, hfate]

/-! ### Passes -/

theorem Numbered.record (h : L.Numbered) :
  (L.record m).Numbered
  := by
  unfold Ledger.record
  split
  · rintro c ⟨⟩
    rfl
  · apply h

theorem Numbered.mark (h : L.Numbered) :
  L.mark.Numbered
  := by
  intro c hc
  simp only [Ledger.mark, Option.mem_def, Option.map_eq_some_iff] at hc
  obtain ⟨c', hc', rfl⟩ := hc
  apply h c' hc'

theorem Numbered.dispatch (h : L.Numbered) (n : ℕ) (plan : SessionPlan) :
  (L.dispatch n plan).2.Numbered
  := by
  have hdispatch := dispatched n plan L
  generalize L.dispatch n plan = pass at hdispatch ⊢
  cases hdispatch with
  | marked _ _ => apply h.mark
  | unmarked _ _ => apply h
  | markedRaised _ _ => apply h.mark
  | rejected _ _ => apply h
  | lost _ _ _ => apply h
  | lostAfter _ _ => apply h
  | rejectedRaised _ _ => apply h

section KeepsPending

variable {plan : SessionPlan}

theorem keepsPending_of_not_commits (hfate : plan.fate 0 ≠ .commits) :
  plan.KeepsPending
  := by
  simp [SessionPlan.KeepsPending, SessionPlan.Raises, SessionPlan.Sends,
    SessionPlan.LosesFailure, hfate]

/-- The message is accepted, and the transaction that marks the retry is lost. -/
theorem keepsPending_of_unmarked (hsends : plan.accepts = true)
    (hfate : (plan.fate 1).isLost = true) :
  plan.KeepsPending
  := by
  have happlied : plan.fate 1 ≠ .applied := by
    intro happlied
    simp [happlied] at hfate
  have hcommits : plan.fate 1 ≠ .commits := by
    intro hcommits
    simp [hcommits] at hfate
  simp [SessionPlan.KeepsPending, SessionPlan.Raises, SessionPlan.LosesFailure, hsends, happlied,
    hcommits]

/-- The message is rejected, and the transaction that fails the retry is lost early. -/
theorem keepsPending_of_lost (hsends : plan.accepts = false)
    (hfate : (plan.fate 1).isLost = true) (hearly : (plan.fate 1).isLostAfter 3 = false) :
  plan.KeepsPending
  := by
  have hcommits : plan.fate 1 ≠ .commits := by
    intro hcommits
    simp [hcommits] at hfate
  simp [SessionPlan.KeepsPending, SessionPlan.Raises, SessionPlan.Sends,
    SessionPlan.LosesFailure, hsends, hearly, hcommits]

/-- The message is rejected, and the transaction that fails the retry raises after it has taken
effect. -/
theorem keepsPending_of_rejectedRaised (hsends : plan.accepts = false)
    (hfate : plan.fate 1 = .applied) :
  plan.KeepsPending
  := by
  simp [SessionPlan.KeepsPending, SessionPlan.Raises, SessionPlan.Sends,
    SessionPlan.LosesFailure, hsends, hfate, Fate.isLostAfter]

end KeepsPending

/-- What a pass of a fresh ledger leaves for the next one. -/
inductive FreshPass (m : ℕ) (plan : SessionPlan) (L : Ledger) : Outcome × Ledger → Prop where
  | ended {o : Outcome} {L' : Ledger} (houtcome : o ≠ .raised) (hraises : ¬ plan.Raises) :
      FreshPass m plan L (o, L')
  | lost (hlost : (plan.fate 0).isLost = true) : FreshPass m plan L (.raised, L)
  | recorded {L' : Ledger} (hrecorded : (plan.fate 0).isLost = false) (hkeeps : plan.KeepsPending)
      (hcount : L'.retryCount = L.retryCount + 1)
      (hpending : L.retryCount + 1 < m → L'.Pending m)
      (hstatus : L'.status = .failed ↔ plan.Audits) : FreshPass m plan L (.raised, L')
  | spoilt {L' : Ledger} (hspoilt : plan.LosesFailure) (hcount : L'.retryCount = L.retryCount + 1)
      (hfresh : L.retryCount + 1 < m → L'.Fresh m) : FreshPass m plan L (.raised, L')
  | marked {L' : Ledger} (hsends : plan.Sends) (hfate : plan.fate 1 = .applied)
      (hquiet : L'.Quiet m) : FreshPass m plan L (.raised, L')

theorem Fresh.pass_cases (h : L.Fresh m) (plan : SessionPlan) :
  FreshPass m plan L (L.pass m plan)
  := by
  have hrecord := h.record
  have hpending (L' : Ledger) (hrecorded : L'.recorded = true)
      (hcount : L'.retryCount = L.retryCount + 1) (hcurrent : L'.current = (L.record m).current) :
      L.retryCount + 1 < m → L'.Pending m := by
    intro hlt
    constructor
    · apply hrecorded
    · rw [hcount]
      apply hlt
    · rw [hcurrent]
      apply hrecord.isSome
    · rw [hcurrent]
      apply hrecord.current
  rw [pass_fresh h]
  cases hfate : plan.fate 0 with
  | lost k => exact .lost (by rw [hfate]; rfl)
  | applied =>
      apply FreshPass.recorded
      · rw [hfate]
        rfl
      · apply keepsPending_of_not_commits
        simp [hfate]
      · apply hrecord.retryCount
      · apply hpending _ hrecord.recorded hrecord.retryCount rfl
      · simp [hrecord.status, SessionPlan.Audits, hfate]
  | commits =>
      have hzero : (plan.fate 0).isLost = false := by
        rw [hfate]
        rfl
      have hdispatch := dispatched (L.retryCount + 1) plan (L.record m)
      simp only []
      generalize (L.record m).dispatch (L.retryCount + 1) plan = pass at hdispatch ⊢
      cases hdispatch with
      | marked hsends hfate' => exact .ended (by simp) (by simp [SessionPlan.Raises, hfate, hfate'])
      | rejected hsends hfate' =>
          exact .ended (by simp) (by simp [SessionPlan.Raises, hfate, hfate'])
      | markedRaised hsends hfate' =>
          apply FreshPass.marked ⟨hfate, hsends⟩ hfate'
          obtain ⟨c, hc⟩ := Option.isSome_iff_exists.mp hrecord.isSome
          right
          use hrecord.recorded
          simp [send, mark, hc, Retry.mark]
      | unmarked hsends hfate' =>
          apply FreshPass.recorded hzero
          · apply keepsPending_of_unmarked hsends hfate'
          · apply hrecord.retryCount
          · exact hpending _ hrecord.recorded hrecord.retryCount rfl
          · change (L.record m).status = _ ↔ _
            simp [hrecord.status, SessionPlan.Audits, hsends]
      | lost hsends hfate' hearly =>
          apply FreshPass.recorded hzero
          · apply keepsPending_of_lost hsends hfate' hearly
          · apply hrecord.retryCount
          · apply hpending _ hrecord.recorded hrecord.retryCount rfl
          · simp [hrecord.status, SessionPlan.Audits, hfate']
      | lostAfter hsends hlate =>
          apply FreshPass.spoilt ⟨hfate, hsends, hlate⟩
          · apply hrecord.retryCount
          · intro hlt
            constructor
            · simp [hrecord.status]
            · change (L.record m).retryCount < m
              rw [hrecord.retryCount]
              apply hlt
      | rejectedRaised hsends hfate' =>
          apply FreshPass.recorded hzero
          · apply keepsPending_of_rejectedRaised hsends hfate'
          · apply hrecord.retryCount
          · exact hpending _ hrecord.recorded hrecord.retryCount rfl
          · simp [reject, SessionPlan.Audits, hfate, hsends, hfate']

/-- What a pass of a pending ledger leaves for the next one. -/
inductive PendingPass (m : ℕ) (plan : SessionPlan) (L : Ledger) : Outcome × Ledger → Prop where
  | ended {o : Outcome} {L' : Ledger} (houtcome : o ≠ .raised) (hraises : ¬ plan.Raises) :
      PendingPass m plan L (o, L')
  | kept {L' : Ledger} (hkeeps : plan.KeepsPending ∨ L.status = .failed ∧ plan.LosesFailure)
      (hpending : L'.Pending m) : PendingPass m plan L (.raised, L')
  | spoilt {L' : Ledger} (hspoilt : plan.LosesFailure) (hstatus : L.status ≠ .failed)
      (hfresh : L'.Fresh m) : PendingPass m plan L (.raised, L')
  | marked {L' : Ledger} (hsends : plan.Sends) (hfate : plan.fate 1 = .applied)
      (hquiet : L'.Quiet m) : PendingPass m plan L (.raised, L')

theorem Pending.pass_cases (h : L.Pending m) (plan : SessionPlan) :
  PendingPass m plan L (L.pass m plan)
  := by
  obtain ⟨c, hc⟩ := Option.isSome_iff_exists.mp h.isSome
  rw [pass_pending h]
  split
  case isFalse hfate =>
    apply PendingPass.kept _ h
    left
    apply keepsPending_of_not_commits hfate
  case isTrue hfate =>
    have hdispatch := dispatched (L.retryCount + 1) plan L
    generalize L.dispatch (L.retryCount + 1) plan = pass at hdispatch ⊢
    cases hdispatch with
    | marked hsends hfate' => exact .ended (by simp) (by simp [SessionPlan.Raises, hfate, hfate'])
    | rejected hsends hfate' =>
        exact .ended (by simp) (by simp [SessionPlan.Raises, hfate, hfate'])
    | markedRaised hsends hfate' =>
        apply PendingPass.marked ⟨hfate, hsends⟩ hfate'
        right
        use h.recorded
        simp [send, mark, hc, Retry.mark]
    | unmarked hsends hfate' =>
        refine .kept ?_ ⟨h.recorded, h.lt, h.isSome, h.current⟩
        left
        apply keepsPending_of_unmarked hsends hfate'
    | lost hsends hfate' hearly =>
        apply PendingPass.kept _ h
        left
        apply keepsPending_of_lost hsends hfate' hearly
    | lostAfter hsends hlate =>
        have hspoilt : plan.LosesFailure := ⟨hfate, hsends, hlate⟩
        by_cases hstatus : L.status = .failed
        · exact .kept (Or.inr ⟨hstatus, hspoilt⟩) ⟨by simp [hstatus], h.lt, h.isSome, h.current⟩
        · exact .spoilt hspoilt hstatus ⟨by simp [hstatus], h.lt⟩
    | rejectedRaised hsends hfate' =>
        refine .kept ?_ ⟨h.recorded, h.lt, h.isSome, h.current⟩
        left
        apply keepsPending_of_rejectedRaised hsends hfate'

/-- A pass keeps the number of the current retry. -/
theorem Numbered.pass (h : L.Numbered) (plan : SessionPlan) :
  (L.pass m plan).2.Numbered
  := by
  unfold Ledger.pass
  cases L.recorded with
  | true =>
      cases plan.fate 0 with
      | lost k => apply h
      | applied => apply h
      | commits =>
          simp only [if_true]
          split
          · split
            · apply h
            · apply h.dispatch
          · apply h
  | false =>
      cases plan.fate 0 with
      | lost k => apply h
      | applied => apply h.record
      | commits =>
          simp only [Bool.false_eq_true, if_false]
          split
          · apply h.record.dispatch
          · apply h.record

/-- The pass that records a retry fails it under its own number. -/
theorem Fresh.own_pass (h : L.Fresh m) (plan : SessionPlan) :
  (L.pass m plan).2.Own ↔ L.Own
  := by
  rw [pass_fresh h]
  cases plan.fate 0 with
  | lost k => rfl
  | applied => apply own_record
  | commits =>
      have hcurrent := current_record h.lt
      simp only []
      rw [own_dispatch hcurrent, own_record]
      simp

/-- A pass that sends the message of an earlier pass fails its retry under another number. -/
theorem Pending.own_pass (h : L.Pending m) (hnumbered : L.Numbered) (plan : SessionPlan) :
  (L.pass m plan).2.Own ↔ L.Own ∧ ¬ plan.Audits
  := by
  obtain ⟨c, hc⟩ := Option.isSome_iff_exists.mp h.isSome
  have hnumber : c.number ≠ L.retryCount + 1 := by
    rw [hnumbered c hc]
    omega
  rw [pass_pending h]
  split
  case isTrue hfate =>
    rw [own_dispatch hc]
    simp [SessionPlan.Audits, hfate, hnumber]
  case isFalse hfate =>
    simp [SessionPlan.Audits, hfate]

/-- A pass of a quiet ledger writes no failure. -/
theorem Quiet.own_pass (h : L.Quiet m) (plan : SessionPlan) :
  (L.pass m plan).2.Own ↔ L.Own
  := by
  by_cases hle : m ≤ L.retryCount
  · have hexhaust : (L.exhaust m).Own ↔ L.Own := by
      unfold exhaust
      split
      · rfl
      · apply own_record
    rw [pass_exhausted hle]
    cases plan.fate 0 with
    | commits => apply hexhaust
    | lost k => rfl
    | applied => apply hexhaust
  · obtain ⟨hrecorded, hdispatched⟩ := h.resolve_left hle
    rw [pass_dispatched hrecorded (Nat.lt_of_not_le hle) hdispatched]
    split
    · rfl
    · rfl

/-! ### Runs -/

/-- A run goes on only after a pass that raises. -/
theorem own_run_succ (m n : ℕ) (plans : ℕ → SessionPlan) (L : Ledger) :
  (L.run m (n + 1) plans).2.Own
    ↔ if (L.pass m (plans 0)).1 = .raised then
        ((L.pass m (plans 0)).2.run m n (fun p => plans (p + 1))).2.Own
      else (L.pass m (plans 0)).2.Own
  := by
  rw [run_succ]
  split
  · rfl
  · rfl

theorem Quiet.own_run (h : L.Quiet m) (n : ℕ) (plans : ℕ → SessionPlan) :
  (L.run m n plans).2.Own ↔ L.Own
  := by
  induction n generalizing L plans with
  | zero => rfl
  | succ n ih =>
      rw [own_run_succ]
      split
      · rw [ih (h.pass (plans 0)).1, h.own_pass]
      · apply h.own_pass (plans 0)

/-- Two passes that start with a pending retry. -/
theorem Pending.own_run_two (h : L.Pending m) (hnumbered : L.Numbered)
    (plans : ℕ → SessionPlan) :
  (L.run m 2 plans).2.Own
    ↔ L.Own ∧ ¬ ((plans 0).Audits ∨
        ((plans 0).KeepsPending ∨ L.status = .failed ∧ (plans 0).LosesFailure) ∧ (plans 1).Audits)
  := by
  have hcases := h.pass_cases (plans 0)
  have hown := h.own_pass hnumbered (plans 0)
  have hnumbered' := hnumbered.pass (m := m) (plans 0)
  rw [own_run_succ]
  generalize L.pass m (plans 0) = pass at hcases hown hnumbered' ⊢
  cases hcases with
  | ended houtcome hraises =>
      obtain ⟨hkeeps, hloses, -⟩ := SessionPlan.of_not_raises hraises
      rw [if_neg houtcome, hown]
      simp [hkeeps, hloses]
  | kept hkeeps hpending =>
      rw [if_pos rfl, run_one, hpending.own_pass hnumbered', hown, and_assoc, ← not_or]
      simp [hkeeps]
  | spoilt hspoilt hstatus hfresh =>
      have hkeeps := SessionPlan.not_keepsPending_of_losesFailure hspoilt
      rw [if_pos rfl, run_one, hfresh.own_pass, hown]
      simp [hkeeps, hstatus]
  | marked hsends hfate hquiet =>
      obtain ⟨hkeeps, hloses, -⟩ := SessionPlan.of_marked hsends hfate
      rw [if_pos rfl, hquiet.own_run, hown]
      simp [hkeeps, hloses]

/-- Two passes that start with a retry to record. -/
theorem Fresh.own_run_two (h : L.Fresh m) (hnumbered : L.Numbered) (plans : ℕ → SessionPlan) :
  (L.run m 2 plans).2.Own
    ↔ L.Own ∧ ¬ (L.retryCount + 1 < m ∧ (plans 0).LeavesPending ∧ (plans 1).Audits)
  := by
  have hcases := h.pass_cases (plans 0)
  have hown := h.own_pass (plans 0)
  have hnumbered' := hnumbered.pass (m := m) (plans 0)
  unfold SessionPlan.LeavesPending
  rw [own_run_succ]
  generalize L.pass m (plans 0) = pass at hcases hown hnumbered' ⊢
  cases hcases with
  | ended houtcome hraises =>
      obtain ⟨hkeeps, -, -⟩ := SessionPlan.of_not_raises hraises
      rw [if_neg houtcome, hown]
      simp [hkeeps]
  | lost hlost =>
      rw [if_pos rfl, run_one, h.own_pass]
      simp [hlost]
  | recorded hrecorded hkeeps hcount hpending hstatus =>
      rw [if_pos rfl, ← hown]
      by_cases hlt : L.retryCount + 1 < m
      · rw [run_one, (hpending hlt).own_pass hnumbered']
        simp [hlt, hrecorded, hkeeps]
      · have hquiet : Quiet m _ := Or.inl (by rw [hcount]; omega)
        rw [hquiet.own_run]
        simp [hlt]
  | spoilt hspoilt hcount hfresh =>
      have hkeeps := SessionPlan.not_keepsPending_of_losesFailure hspoilt
      rw [if_pos rfl, ← hown]
      by_cases hlt : L.retryCount + 1 < m
      · rw [run_one, (hfresh hlt).own_pass]
        simp [hkeeps]
      · have hquiet : Quiet m _ := Or.inl (by rw [hcount]; omega)
        rw [hquiet.own_run]
        simp [hlt]
  | marked hsends hfate hquiet =>
      obtain ⟨hkeeps, -, -⟩ := SessionPlan.of_marked hsends hfate
      rw [if_pos rfl, hquiet.own_run, hown]
      simp [hkeeps]

/-- A call fails a dispatch under another number exactly when its plan says so. -/
theorem Fresh.own_run_three (h : L.Fresh m) (hnumbered : L.Numbered) (plans : ℕ → SessionPlan) :
  (L.run m 3 plans).2.Own ↔ L.Own ∧ ¬ MisnumbersFailure L.retryCount m plans
  := by
  have hcases := h.pass_cases (plans 0)
  have hown := h.own_pass (plans 0)
  have hnumbered' := hnumbered.pass (m := m) (plans 0)
  unfold MisnumbersFailure
  rw [own_run_succ]
  generalize L.pass m (plans 0) = pass at hcases hown hnumbered' ⊢
  cases hcases with
  | ended houtcome hraises =>
      obtain ⟨hkeeps, hloses, hlost⟩ := SessionPlan.of_not_raises hraises
      rw [if_neg houtcome, hown]
      simp [hkeeps, hloses, hlost, SessionPlan.LeavesPending]
  | lost hlost =>
      have hloses : ¬ (plans 0).LosesFailure := by
        intro hloses
        cases hlost.symm.trans hloses.raises.2
      rw [if_pos rfl, h.own_run_two hnumbered]
      simp [hlost, hloses, SessionPlan.LeavesPending]
  | recorded hrecorded hkeeps hcount hpending hstatus =>
      rw [if_pos rfl, ← hown]
      by_cases hlt : L.retryCount + 1 < m
      · rw [(hpending hlt).own_run_two hnumbered', hstatus]
        simp [hlt, hrecorded, hkeeps, hkeeps.2.2, SessionPlan.LeavesPending]
      · have hquiet : Quiet m _ := Or.inl (by rw [hcount]; omega)
        rw [hquiet.own_run]
        simp [hlt]
  | spoilt hspoilt hcount hfresh =>
      have hkeeps := SessionPlan.not_keepsPending_of_losesFailure hspoilt
      have hlost := hspoilt.raises.2
      rw [if_pos rfl, ← hown]
      by_cases hlt : L.retryCount + 1 < m
      · rw [(hfresh hlt).own_run_two hnumbered', hcount]
        simp [hlt, hkeeps, hlost, hspoilt, SessionPlan.LeavesPending]
      · have hquiet : Quiet m _ := Or.inl (by rw [hcount]; omega)
        rw [hquiet.own_run]
        simp [hlt]
  | marked hsends hfate hquiet =>
      obtain ⟨hkeeps, hloses, hlost⟩ := SessionPlan.of_marked hsends hfate
      rw [if_pos rfl, hquiet.own_run, hown]
      simp [hkeeps, hloses, hlost, SessionPlan.LeavesPending]

end Ledger

/-! ### Calls -/

namespace Hook

variable {settings : Settings} {message : TaskiqMessage} {exception : PyException} {i : UUID}
  {row : TaskExecution} {s : Invocation} {w : World}

/-- An error hook about an execution whose retries are exhausted adds no audit row. -/
theorem attempts_onError_exhausted (hid : message.extractTaskExecutionId = some i)
    (hrow : w.db.execution? i = some row) (hexhausted : ¬ row.retryCount < row.maxRetries) :
  (exec (onError settings message exception) s w).2.db.attempts = w.db.attempts
  := by
  obtain rfl : row.id = i := Database.id_of_execution? hrow
  let u : UnsentCall :=
    { settings, message, exception, row
      db := w.db
      sent := w.sent
      result := s.result
      execution := hid
      found := hrow
      refused := fun hallowed => hexhausted hallowed.2 }
  have hstate : u.State { s with attempt := {} } w := ⟨.untouched rfl, rfl, rfl⟩
  obtain ⟨r, s', w', hrun, hstate'⟩ := UnsentCall.exec_onError_state hstate
  change exec (onError settings message exception) s w = _ at hrun
  rw [hrun]
  cases hstate'.records with
  | untouched hdb => rw [hdb]
  | decided now hdb _ =>
      obtain ⟨hallowed, hshould, -⟩ := u.decision_eq
      have hnone : (u.context row).auditRow u.decision row = none := by
        rw [ErrorContext.auditRow, hallowed, hshould]
        simp [u, hexhausted]
      rw [hdb, Database.decided]
      change (Database.view _ (((u.context row).auditRow u.decision row).toList.map _)).attempts = _
      rw [hnone]
      rfl

/-- The failed dispatches a call of an error hook audits have the numbers of the retries whose
messages were rejected, unless its plan says otherwise. -/
theorem onError_numbers_failures_iff (hid : message.extractTaskExecutionId = some i)
    (hrow : w.db.execution? i = some row)
    (hgate : settings.retryGateAllows message.taskName row.tenantId = true) :
  OwnNumbers none
      (((exec (onError settings message exception) s w).2.db.attempts.drop
        w.db.attempts.length).map TaskAttempt.entry)
    ↔ ¬ MisnumbersFailure row.retryCount row.maxRetries w.plan
  := by
  by_cases hlt : row.retryCount < row.maxRetries
  · obtain ⟨r, s', w', outcome, L, hrun, hledger, -, -, -, haudit, -⟩ :=
      exec_onError_ledger exception (s := s) hid hrow hgate hlt
    have hnumbered : (Ledger.initial row.status row.retryCount).Numbered := by
      rintro c ⟨⟩
    have hown := (initial_fresh hlt).own_run_three hnumbered w.plan
    rw [hledger] at hown
    rw [hrun, haudit]
    change L.Own ↔ _
    rw [hown]
    apply and_iff_right trivial
  · rw [attempts_onError_exhausted hid hrow hlt, List.drop_length]
    refine iff_of_true trivial ?_
    rintro ⟨hlt', -⟩
    omega

/-- The failure of a retry whose message is rejected has the number of the retry. -/
theorem onError_numbers_failures_of_rejected :
  ((exec (onError Example.settings Example.message Example.exception) Example.failed
      (Example.world 0 3 (Example.plans (Example.session .commits .commits false)
        (Example.session .commits .commits true)))).2.db.attempts).map TaskAttempt.entry
      = [(1, .pending), (1, .dispatchFailed)] ∧
    ¬ MisnumbersFailure 0 3 (Example.plans (Example.session .commits .commits false)
        (Example.session .commits .commits true))
  := by
  have hrow : (Example.world 0 3 (Example.plans (Example.session .commits .commits false)
      (Example.session .commits .commits true))).db.execution? Example.taskExecutionId
        = some (Example.row 0 3) := rfl
  have hiff : OwnNumbers none
      (((exec (onError Example.settings Example.message Example.exception) Example.failed
        (Example.world 0 3 (Example.plans (Example.session .commits .commits false)
          (Example.session .commits .commits true)))).2.db.attempts.drop 0).map TaskAttempt.entry)
        ↔ _ :=
    onError_numbers_failures_iff rfl hrow (by decide)
  exact ⟨rfl, hiff.mp ⟨rfl, trivial⟩⟩

/-- The first commit of a call takes effect and raises, and the message of its retry, sent by the
second pass, is rejected: the failure is audited under the number 2, and the retry under 1. -/
theorem onError_misnumbers_failure :
  Example.message.extractTaskExecutionId = some Example.taskExecutionId ∧
    Example.settings.retryGateAllows Example.message.taskName (Example.row 0 3).tenantId = true ∧
    ((exec (onError Example.settings Example.message Example.exception) Example.failed
      (Example.world 0 3 (Example.plans (Example.session .applied .commits true)
        (Example.session .commits .commits false)))).2.db.attempts).map TaskAttempt.entry
      = [(1, .pending), (2, .dispatchFailed)]
  := ⟨rfl, by decide, rfl⟩

end Hook

end WorkerTemplate
