import WorkerTemplate.Chain.World

/-!
# The leading worker in the world

The operations of the worker that leads keep the invariant of the chain.  A commit that records a
retry makes its audit row await the worker, until the message has been sent and it trails.
-/

namespace WorkerTemplate

namespace Chain.Invariant

variable {chain : Chain} {n t : ℕ} {row : TaskExecution} {parts : List Part} {w : Cluster}

variable {lead : Lead} (h : chain.Invariant n row parts w) (hpart : parts[t]? = some (.leads lead))

include h hpart

/-- The leading worker begins or ends a transaction. -/
theorem leads_reset (hdue : lead.due = false) {o : Op} (ho : ∀ message, o ≠ .body message)
    (r : o.Answer) :
  chain.Invariant n row (parts.set t (.leads lead.reset)) ((w.release t).record t o r [])
  := by
  have hagrees : lead.Agrees chain n row w.db (w.txn t) := h.agrees t _ hpart
  apply h.keep hpart
  case hdb => rfl
  case houtcomes => rfl
  case hagrees =>
    rw [Cluster.txn_record, Cluster.txn_release, Function.update_self]
    apply hagrees.reset h.records hdue
  case htxn =>
    intro t' hne
    rw [Cluster.txn_record, Cluster.txn_release, Function.update_of_ne hne]
  case hlocks =>
    intro key t' hlocked
    exact Or.inr (Cluster.of_locked_release hlocked)
  case hawaits =>
    intro k _ hawaits
    apply hawaits
  case hbaton =>
    refine Or.inr ⟨t, _, (h.taken hpart).leads rfl ?_ ?_⟩
    · rfl
    · rw [Cluster.runs_record ho]
      rfl

/-- The leading worker sends a statement. -/
theorem leads_statement (hdue : lead.due = false) {st : Statement}
    (hallows : lead.Allows chain.execution st) {r : st.Answer}
    (hr : (w.view t).Answers st r) :
  ∃ lead', lead.Moves st r lead' ∧ chain.Invariant n row (parts.set t (.leads lead'))
    ((w.push t st).record t (.statement st) (.ok r) [])
  := by
  have hagrees : lead.Agrees chain n row w.db (w.txn t) := h.agrees t _ hpart
  obtain ⟨lead', hmoves, hagrees'⟩ := hagrees.statement h.records.row hdue hallows hr
  use lead', hmoves
  apply h.keep hpart
  case hdb => rfl
  case houtcomes => rfl
  case hagrees =>
    rw [Cluster.txn_record, Cluster.txn_push, Function.update_self]
    apply hagrees'
  case htxn =>
    intro t' hne
    rw [Cluster.txn_record, Cluster.txn_push, Function.update_of_ne hne]
  case hlocks =>
    intro key t' hlocked
    by_cases hne : t' = t
    · obtain rfl := hne
      apply Or.inl
      rcases Cluster.of_locked_push hlocked with ⟨-, hkey⟩ | hlocked
      · exact ⟨rfl, hmoves.locks_of_eq hallows hkey⟩
      · exact ⟨rfl, hmoves.locks (h.locks_self hpart hlocked)⟩
    · apply Or.inr
      rcases Cluster.of_locked_push hlocked with ⟨heq, -⟩ | hlocked
      · exact absurd heq hne
      · exact ⟨hne, hlocked⟩
  case hawaits =>
    intro k _ hawaits
    obtain ⟨hrow, -, hdue', -⟩ := hmoves.same
    rw [Part.Awaits, hrow, hdue']
    apply hawaits
  case hbaton =>
    refine Or.inr ⟨t, _, (h.taken hpart).leads rfl ?_ ?_⟩
    · rw [hmoves.same.2.2.1]
    · rw [hmoves.same.2.1, Cluster.runs_record]
      · rfl
      · rintro message ⟨⟩

/-- The other workers trail. -/
theorem trails_of_leads {t' : ℕ} {part : Part} (hne : t' ≠ t) (hpart' : parts[t']? = some part) :
  ∃ k mark telling, part = .trails k mark telling
  := by
  cases part with
  | leads lead' => exact absurd ((h.taken hpart).lone t' lead' hpart') hne
  | trails k mark telling => exact ⟨k, mark, telling, rfl⟩

/-- What a commit of the leading worker leaves. -/
theorem leads_commit_of_agrees {n' : ℕ} (hle : n ≤ n') (hmax : n' ≤ chain.maxRetries)
    (hfailed : ∀ k < n', chain.outcomes k ≠ none)
    (hagrees' : lead.commit.Agrees chain n' lead.view (w.view t) [])
    (hcount : lead.view.retryCount = n')
    (hthreads : (if lead.noted then n' else n' + 1) = n + 1) (hdue : lead.due = false)
    (hpending : ∀ k, (w.view t).Pending chain.execution k →
      lead.noted = true ∧ lead.view.retryCount = k ∨ w.db.Pending chain.execution k) :
  chain.Invariant n' lead.view (parts.set t (.leads lead.commit))
    ((w.commit t).record t .commit (.ok ()) (w.txn t))
  := by
  have hagrees : lead.Agrees chain n row w.db (w.txn t) := h.agrees t _ hpart
  have hkin := hagrees.kin
  rw [hcount] at hkin
  apply h.set hpart
  case hrecords => exact ⟨hagrees'.view, hkin, hagrees'.tallies⟩
  case hle => exact hmax
  case hfailed => exact hfailed
  case houtcomes => rfl
  case hothers =>
    intro t' part hne hpart' hagrees₁
    obtain ⟨k, mark, telling, rfl⟩ := h.trails_of_leads hpart hne hpart'
    obtain ⟨hone, hk, hmark⟩ := hagrees₁
    exact ⟨hone, hk.trans hle, hmark.view hk hagrees.keeps⟩
  case hagrees =>
    rw [Cluster.txn_record, Cluster.txn_commit, Function.update_self]
    apply hagrees'
  case htxn =>
    intro t' hne
    rw [Cluster.txn_record, Cluster.txn_commit, Function.update_of_ne hne]
  case hlocks =>
    intro key t' hlocked
    exact Or.inr (Cluster.of_locked_release hlocked)
  case hpending =>
    intro k hk
    rcases hpending k hk with hnoted | hk
    · exact Or.inl hnoted
    · refine Or.inr ⟨?_, hk⟩
      rintro ⟨hdue', -⟩
      rw [hdue] at hdue'
      cases hdue'
  case hbaton =>
    refine Or.inr ⟨t, _, (h.taken hpart).leads rfl ?_ ?_⟩
    · rw [hdue]
      apply hthreads
    · rw [Cluster.runs_record]
      · rfl
      · rintro message ⟨⟩

/-- The leading worker commits. -/
theorem leads_commit (hdue : lead.due = false) (hcommits : lead.Commits) :
  ∃ n', chain.Invariant n' lead.view (parts.set t (.leads lead.commit))
    ((w.commit t).record t .commit (.ok ()) (w.txn t))
  := by
  have hagrees : lead.Agrees chain n row w.db (w.txn t) := h.agrees t _ hpart
  have hlead : lead.row.retryCount = n := by rw [hagrees.row, h.records.row.retryCount]
  rcases hcommits.2 with ⟨hnoted, hcount⟩ | ⟨hnoted, hcount, hlt, -, exception, hraised⟩
  · use n
    apply h.leads_commit_of_agrees hpart le_rfl h.le h.failed (hagrees.commit hdue hnoted)
    · rw [hcount, hlead]
    · rw [hnoted]
      rfl
    · apply hdue
    · -- A pending row of the view is that of the last retry, and no transaction makes it pending.
      rintro k ⟨attempt, hattempt, hi, hpending, rfl⟩
      have htallies := hagrees.tallies
      rw [hnoted] at htallies
      have hnumber : attempt.attemptNumber = n := htallies.last attempt hattempt hi hpending
      apply Or.inr
      by_contra hnone
      have hdispatched : w.db.Dispatched chain.execution n := by
        intro attempt' hattempt' hi' hnumber' hpending'
        apply hnone ⟨attempt', hattempt', hi', hpending', hnumber'.trans hnumber.symm⟩
      apply hdispatched.view le_rfl hagrees.keeps attempt hattempt hi hnumber hpending
  · use n + 1
    rw [hagrees.row, h.records.row.retryCount, h.records.row.maxRetries] at hlt
    apply h.leads_commit_of_agrees hpart (Nat.le_succ n) hlt ?_ (hagrees.commit_noted hnoted ?_)
    · rw [hcount, hlead]
    · rw [hnoted]
      rfl
    · apply hdue
    · rintro k ⟨attempt, hattempt, hi, hpending, rfl⟩
      have htallies := hagrees.tallies
      rw [hnoted] at htallies
      rw [hcount, hlead]
      exact Or.inl ⟨hnoted, (htallies.last attempt hattempt hi hpending).symm⟩
    · intro k hk
      rcases Nat.lt_succ_iff_lt_or_eq.mp hk with hk | rfl
      · apply h.failed k hk
      · rw [← hagrees.outcome _ hraised hdue]
        exact Option.some_ne_none exception
    · rw [hraised]
      rfl

/-- The leading worker reads the clock, or announces a status. -/
theorem leads_record {o : Op} (ho : ∀ message, o ≠ .body message) (r : o.Answer)
    (telling : Telling) :
  chain.Invariant n row (parts.set t (.leads { lead with telling := telling }))
    (w.record t o r [])
  := by
  have hagrees : lead.Agrees chain n row w.db (w.txn t) := h.agrees t _ hpart
  apply h.keep hpart
  case hdb => rfl
  case houtcomes => rfl
  case hagrees => exact { hagrees with }
  case htxn =>
    intro t' _
    rfl
  case hlocks =>
    intro key t' hlocked
    by_cases hne : t' = t
    · obtain rfl := hne
      have hlocks := h.locks_self hpart hlocked
      apply Or.inl
      cases key with
      | execution j => exact ⟨rfl, hlocks⟩
      | attempt id => exact ⟨rfl, hlocks⟩
    · exact Or.inr ⟨hne, hlocked⟩
  case hawaits =>
    intro k _ hawaits
    apply hawaits
  case hbaton =>
    refine Or.inr ⟨t, _, (h.taken hpart).leads rfl rfl ?_⟩
    rw [Cluster.runs_record ho]

/-- The leading worker runs the body. -/
theorem leads_body (hdue : lead.due = false) (hnone : lead.outcome = none)
    (message : TaskiqMessage) :
  w.outcomes w.runs = chain.outcomes lead.row.retryCount ∧
    chain.Invariant n row (parts.set t (.leads { lead with outcome := some (w.outcomes w.runs) }))
      (w.record t (.body message) (w.outcomes w.runs) [])
  := by
  have hagrees : lead.Agrees chain n row w.db (w.txn t) := h.agrees t _ hpart
  have htaken := h.taken hpart
  have hruns : w.runs = n := by
    have hthreads := htaken.threads
    have hruns := htaken.runs
    rw [hdue] at hthreads
    rw [hnone] at hruns
    simp at hthreads hruns
    omega
  have houtcome : w.outcomes w.runs = chain.outcomes n := by rw [h.outcomes, hruns]
  constructor
  · rw [houtcome, hagrees.row, h.records.row.retryCount]
  · apply h.keep hpart
    case hdb => rfl
    case houtcomes => rfl
    case hagrees =>
      refine { hagrees with
        outcome := ?_
        due := fun hdue => ⟨(hagrees.due hdue).1, rfl⟩ }
      rintro r ⟨⟩ -
      apply houtcome
    case htxn =>
      intro t' _
      rfl
    case hlocks =>
      intro key t' hlocked
      by_cases hne : t' = t
      · obtain rfl := hne
        have hlocks := h.locks_self hpart hlocked
        apply Or.inl
        cases key with
        | execution j => exact ⟨rfl, hlocks⟩
        | attempt id => exact ⟨rfl, hlocks⟩
      · exact Or.inr ⟨hne, hlocked⟩
    case hawaits =>
      intro k _ hawaits
      apply hawaits
    case hbaton =>
      refine Or.inr ⟨t, _, htaken.leads rfl rfl ?_⟩
      rw [Cluster.runs_record_body, hnone]
      rfl

/-- The leading worker sends the message on. -/
theorem leads_kiq (hdue : lead.due = true) :
  chain.Invariant n row (parts.set t (.trails lead.row.retryCount .wanted lead.telling))
    ((w.enqueue chain.message).record t (.kiq chain.message) true [])
  := by
  have hagrees : lead.Agrees chain n row w.db (w.txn t) := h.agrees t _ hpart
  have hlead : lead.row.retryCount = n := by rw [hagrees.row, h.records.row.retryCount]
  obtain ⟨hclean, houtcome⟩ := hagrees.due hdue
  have htaken := h.taken hpart
  have hthreads : parts.length = n := by
    rw [htaken.threads, hdue]
    rfl
  apply h.keep hpart
  case hdb => rfl
  case houtcomes => rfl
  case hagrees =>
    rw [hlead]
    refine ⟨?_, le_rfl, (hagrees.clean hclean).1⟩
    have hlt : t < parts.length := (List.getElem?_eq_some_iff.mp hpart).1
    omega
  case htxn =>
    intro t' _
    rfl
  case hlocks =>
    intro key t' hlocked
    refine Or.inr ⟨?_, hlocked⟩
    rintro rfl
    have hdirty := (h.locks_self hpart hlocked).dirty
    rw [hclean] at hdirty
    cases hdirty
  case hawaits =>
    rintro k - ⟨-, hk⟩
    exact ⟨hk, by rintro ⟨⟩⟩
  case hbaton =>
    apply Or.inl
    constructor
    case lone =>
      intro t' lead' hpart'
      rcases Machine.state_of_set hpart' with ⟨-, ⟨⟩⟩ | ⟨hne, hpart'⟩
      apply hne (htaken.lone t' lead' hpart')
    case queue =>
      change w.queue ++ [chain.message] = [chain.message]
      rw [htaken.queue, List.nil_append]
    case threads => rw [List.length_set, hthreads]
    case runs =>
      have hruns := htaken.runs
      rw [houtcome, hthreads] at hruns
      rw [Cluster.runs_record]
      · apply hruns
      · rintro message ⟨⟩

end Chain.Invariant

end WorkerTemplate
