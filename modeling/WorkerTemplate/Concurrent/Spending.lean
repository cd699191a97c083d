import WorkerTemplate.Concurrent.Spending.Errors

/-!
# Retries that are spent

However many sessions overlap, and whatever fails, no more retries of an execution are spent than
attempts are recorded.
-/

namespace WorkerTemplate

namespace Spending

variable {i : UUID} {start n : ℕ} {cs : List Knowledge} {c c' : Knowledge} {w w' : Cluster} {t : ℕ}
  {faults : Cluster.Faults} {o : Op} {r : o.Answer}

/-- A retry count was spent by some time: as many retries have been recorded since the start. -/
def Paid (i : UUID) (start n : ℕ) (db : Database) (count : ℕ) : Prop :=
  count + start ≤ n + db.retries i

/-- What a thread knows is so, and its transaction increments a retry count that was paid. -/
structure Knows (i : UUID) (start n t : ℕ) (c : Knowledge) (w : Cluster) : Prop where
  own : w.txn t = c.own
  seen : Paid i start n w.db c.seen
  txn : ∀ changes, .updateExecution i changes ∈ c.own → ∀ m ∈ changes.retryCount,
    Paid i start (n + 1) w.db m

/-- The retries that the execution has spent are paid, and the open transactions increment retry
counts that were paid. -/
structure Inv (i : UUID) (start n : ℕ) (cs : List Knowledge) (w : Cluster) : Prop where
  row : ∃ row, w.db.execution? i = some row ∧ Paid i start n w.db row.retryCount
  knows : ∀ t c, cs[t]? = some c → Knows i start n t c w
  idle : ∀ t, cs.length ≤ t → w.txn t = []

theorem Paid.mono {db db' : Database} {count : ℕ} (h : Paid i start n db count)
    (hle : db.retries i ≤ db'.retries i) :
  Paid i start n db' count
  := by
  unfold Paid at h ⊢
  omega

theorem Knows.mono (h : Knows i start n t c w) (hown : w'.txn t = w.txn t)
    (hle : w.db.retries i ≤ w'.db.retries i) :
  Knows i start n t c w'
  where
  own := hown.trans h.own
  seen := h.seen.mono hle
  txn changes hchanges m hm := (h.txn changes hchanges m hm).mono hle

theorem Knows.close (h : Knows i start n t c w) (hown : w'.txn t = [])
    (hle : w.db.retries i ≤ w'.db.retries i) :
  Knows i start n t c.close w'
  where
  own := hown
  seen := h.seen.mono hle
  txn := by rintro changes ⟨⟩

/-- No operation takes a retry from the audit. -/
theorem retries_le_of_performs (hstep : w.Performs faults t o r w') :
  w.db.retries i ≤ w'.db.retries i
  := by
  rcases hstep.db with hdb | hdb
  · rw [hdb]
  · rw [hdb]
    apply retries_le_view

/-- An operation keeps the invariant when what its thread knows after it is so, and the retries
that the execution has spent are paid after it. -/
theorem Inv.set (h : Inv i start n cs w) (hc : cs[t]? = some c)
    (hstep : w.Performs faults t o r w') (hknows : Knows i start n t c' w')
    (hrow : ∃ row, w'.db.execution? i = some row ∧ Paid i start n w'.db row.retryCount) :
  Inv i start n (cs.set t c') w'
  where
  row := hrow
  knows := by
    intro t' c₁ hc₁
    rcases Machine.state_of_set hc₁ with ⟨rfl, rfl⟩ | ⟨hne, hc₁⟩
    · apply hknows
    · apply (h.knows t' c₁ hc₁).mono (hstep.txn_of_ne hne) (retries_le_of_performs hstep)
  idle := by
    intro t' ht'
    have ht : t < cs.length := (List.getElem?_eq_some_iff.mp hc).1
    rw [List.length_set] at ht'
    rw [hstep.txn_of_ne (by omega)]
    apply h.idle t' ht'

/-- The retries that the execution has spent are paid after a commit that is balanced. -/
theorem Inv.commits (h : Inv i start n cs w) (hc : cs[t]? = some c) (hbalanced : Balanced i c.own) :
  ∃ row, (w.view t).execution? i = some row ∧ Paid i start n (w.view t) row.retryCount
  := by
  obtain ⟨row, hrow, hpaid⟩ := h.row
  have hknows := h.knows t c hc
  rw [Cluster.view, hknows.own]
  rcases hbalanced with hunspent | ⟨inserted, hinserted, hretries⟩
  · have hbound : ∀ changes, .updateExecution i changes ∈ c.own →
        ∀ m ∈ changes.retryCount, m ≤ row.retryCount := by
      intro changes hchanges m hm
      rw [hunspent changes hchanges] at hm
      cases hm
    obtain ⟨row', hrow', hle⟩ := exists_execution?_view hrow le_rfl hbound
    use row', hrow'
    have hmono := retries_le_view (i := i) w.db c.own
    unfold Paid at hpaid ⊢
    omega
  · -- What a transaction may write is paid by the attempt it records.
    have hlt := retries_lt_view w.db hinserted hretries
    have hbound : ∀ changes, .updateExecution i changes ∈ c.own →
        ∀ m ∈ changes.retryCount, m ≤ n + 1 + w.db.retries i - start := by
      intro changes hchanges m hm
      have hm := hknows.txn changes hchanges m hm
      unfold Paid at hm
      omega
    have hle : row.retryCount ≤ n + 1 + w.db.retries i - start := by
      unfold Paid at hpaid
      omega
    obtain ⟨row', hrow', hle'⟩ := exists_execution?_view hrow hle hbound
    use row', hrow'
    unfold Paid at hpaid ⊢
    omega

/-- The retry count that a transaction reads is paid when the transaction has spent no retry. -/
theorem Inv.reads (h : Inv i start n cs w) (hc : cs[t]? = some c) (hunspent : Unspent i c.own)
    {row : TaskExecution} (hrow : (w.view t).execution? i = some row) :
  Paid i start n w.db row.retryCount
  := by
  obtain ⟨row₀, hrow₀, hpaid⟩ := h.row
  have hbound : ∀ changes, .updateExecution i changes ∈ c.own →
      ∀ m ∈ changes.retryCount, m ≤ row₀.retryCount := by
    intro changes hchanges m hm
    rw [hunspent changes hchanges] at hm
    cases hm
  obtain ⟨row', hrow', hle⟩ := exists_execution?_view hrow₀ le_rfl hbound
  rw [Cluster.view, (h.knows t c hc).own, hrow'] at hrow
  cases hrow
  unfold Paid at hpaid ⊢
  omega

/-- A statement that is answered moves what its thread knows as the protocol says. -/
theorem Inv.answers (h : Inv i start n cs w) (hc : cs[t]? = some c) {s : Statement} {r : s.Answer}
    (hallows : (protocol i).allows c (.statement s)) (hfree : ¬ w.Blocked t s)
    (hanswers : (w.view t).Answers s r) :
  ∃ c', (protocol i).moves c (.statement s) (.ok r) c' ∧
    Inv i start n (cs.set t c') ((w.push t s).record t (.statement s) (.ok r) [])
  := by
  have hknows := h.knows t c hc
  have hstep : w.Performs .any t (.statement s) (.ok r)
      ((w.push t s).record t (.statement s) (.ok r) []) := .answers hfree hanswers
  have hown : (w.push t s).txn t = c.own ++ s.effects := by
    rw [Cluster.txn_push, Function.update_self, hknows.own]
  have hset {c' : Knowledge} (hc' : c'.own = c.own ++ s.effects)
      (hseen : Paid i start n w.db c'.seen)
      (htxn : ∀ changes, .updateExecution i changes ∈ s.effects → ∀ m ∈ changes.retryCount,
        Paid i start (n + 1) w.db m) :
      Inv i start n (cs.set t c') ((w.push t s).record t (.statement s) (.ok r) []) := by
    apply h.set hc hstep _ h.row
    refine ⟨hown.trans hc'.symm, hseen, ?_⟩
    intro changes hchanges
    rw [hc'] at hchanges
    rcases List.mem_append.mp hchanges with hchanges | hchanges
    · apply hknows.txn changes hchanges
    · apply htxn changes hchanges
  have hpush (htxn : ∀ changes, .updateExecution i changes ∈ s.effects →
        ∀ m ∈ changes.retryCount, Paid i start (n + 1) w.db m) :
      Inv i start n (cs.set t { c with own := c.own ++ s.effects })
        ((w.push t s).record t (.statement s) (.ok r) []) :=
    hset rfl hknows.seen htxn
  cases s with
  | selectAttempt filter => exact ⟨_, rfl, hpush (by rintro changes ⟨⟩)⟩
  | insertAttempt row => exact ⟨_, rfl, hpush (by simp [Statement.effects])⟩
  | updateAttempt id d => exact ⟨_, rfl, hpush (by simp [Statement.effects])⟩
  | updateExecution j changes =>
      refine ⟨_, rfl, hpush ?_⟩
      intro changes' hchanges m hm
      cases List.mem_singleton.mp hchanges
      have hle := hallows rfl m hm
      have hseen := hknows.seen
      unfold Paid at hseen ⊢
      omega
  | selectExecution j tenantId =>
      cases r with
      | none => exact ⟨_, rfl, hpush (by rintro changes ⟨⟩)⟩
      | some row =>
          have hrow : (w.view t).execution? j = some row := by
            have hanswer : some row = (w.view t).answer (.selectExecution j tenantId) := hanswers
            cases tenantId with
            | none => apply hanswer.symm
            | some tenantId => apply (Option.filter_eq_some_iff.mp hanswer.symm).1
          have hid : row.id = j := Database.id_of_execution? hrow
          have hnone : ∀ changes, Effect.updateExecution i changes ∈
              (Statement.selectExecution j tenantId).effects → ∀ m ∈ changes.retryCount,
              Paid i start (n + 1) w.db m := by rintro changes ⟨⟩
          by_cases hread : j = i ∧ Unspent i c.own
          · obtain ⟨rfl, hunspent⟩ := hread
            have hpaid := h.reads hc hunspent hrow
            use { c with seen := max c.seen row.retryCount }
            refine ⟨⟨hid, rfl, le_max_left _ _, fun _ _ => le_max_right _ _⟩, ?_⟩
            apply hset _ _ hnone
            · apply (List.append_nil _).symm
            · have hseen := hknows.seen
              simp only [Paid] at hpaid hseen ⊢
              omega
          · use c
            refine ⟨⟨hid, rfl, le_rfl, fun hj hunspent => absurd ⟨hj, hunspent⟩ hread⟩, ?_⟩
            apply hset (List.append_nil _).symm hknows.seen hnone

/-- An operation that the protocol allows keeps the invariant, and moves what its thread knows as
the protocol says. -/
theorem Inv.performs (h : Inv i start n cs w) (hc : cs[t]? = some c)
    (hallows : (protocol i).allows c o) (hstep : w.Performs faults t o r w') :
  ∃ c', (protocol i).moves c o r c' ∧ Inv i start n (cs.set t c') w'
  := by
  have hknows := h.knows t c hc
  have hle := retries_le_of_performs (i := i) hstep
  have hclose (htxn : w'.txn t = []) (hdb : w'.db = w.db) : Inv i start n (cs.set t c.close) w' :=
    h.set hc hstep (hknows.close htxn hle) (hdb ▸ h.row)
  have hsame (htxn : w'.txn t = w.txn t) (hdb : w'.db = w.db) : Inv i start n (cs.set t c) w' :=
    h.set hc hstep (hknows.mono htxn hle) (hdb ▸ h.row)
  have hcommit (ho : o = .commit) (htxn : w'.txn t = []) (hdb : w'.db = w.view t) :
      Inv i start n (cs.set t c.close) w' := by
    subst ho
    apply h.set hc hstep (hknows.close htxn hle)
    rw [hdb]
    apply h.commits hc hallows
  cases hstep with
  | opens => exact ⟨_, rfl, hclose (by simp) rfl⟩
  | closes => exact ⟨_, rfl, hclose (by simp) rfl⟩
  | answers free answers => apply h.answers hc hallows free answers
  | @fails w s =>
      refine ⟨c.close, ?_, hclose (by simp) rfl⟩
      cases s with
      | selectExecution j tenantId => rfl
      | selectAttempt filter => rfl
      | updateExecution j changes => rfl
      | insertAttempt row => rfl
      | updateAttempt id d => rfl
  | commits => exact ⟨_, rfl, hcommit rfl (by simp) rfl⟩
  | lost => exact ⟨_, rfl, hclose (by simp) rfl⟩
  | applied => exact ⟨_, rfl, hcommit rfl (by simp) rfl⟩
  | now time => exact ⟨_, rfl, hsame rfl rfl⟩
  | accepts => exact ⟨_, rfl, hsame rfl rfl⟩
  | rejects => exact ⟨_, rfl, hsame rfl rfl⟩
  | emits r => exact ⟨_, rfl, hsame rfl rfl⟩
  | runs => exact ⟨_, rfl, hsame rfl rfl⟩

theorem Inv.release (h : Inv i start n cs w) (hc : cs[t]? = some c) :
  Inv i start n (cs.set t c.close) (w.release t)
  := by
  have hstep : w.Performs .any t .closeSession () ((w.release t).record t .closeSession () []) :=
    .closes
  have hclose : Knows i start n t c.close ((w.release t).record t .closeSession () []) :=
    (h.knows t c hc).close (by simp) le_rfl
  have hset := h.set hc hstep hclose h.row
  exact ⟨h.row, fun t' c' hc' => ⟨(hset.knows t' c' hc').own, (hset.knows t' c' hc').seen,
    (hset.knows t' c' hc').txn⟩, hset.idle⟩

/-- A thread that is new knows nothing. -/
theorem Inv.spawn (h : Inv i start n cs w) :
  Inv i start n (cs ++ [.initial]) w
  where
  row := h.row
  knows := by
    intro t c hc
    rcases Machine.state_of_concat hc with hc | ⟨rfl, rfl⟩
    · apply h.knows t c hc
    · refine ⟨h.idle _ le_rfl, ?_, by rintro changes ⟨⟩⟩
      obtain ⟨row, -, hpaid⟩ := h.row
      simp only [Paid, Knowledge.initial] at hpaid ⊢
      omega
  idle := by
    intro t ht
    rw [List.length_append, List.length_singleton] at ht
    apply h.idle t (by omega)

/-- The workers refine the protocol of the retries of an execution. -/
def refinement (i : UUID) (start n : ℕ) (faults : Cluster.Faults) :
    (workers faults (SpawnsWork (· ≠ .retrying))).Refinement (protocol i) where
  final _ := True
  inv := Inv i start n
  exec := by
    intro cs w w' t c o r h hc hallows hstep
    apply h.performs hc hallows hstep
  spawn := by
    intro cs w w' p h hspawn
    obtain ⟨rfl, hfollows⟩ := (Hook.works_spending i).follows hspawn (c := .initial)
      ⟨le_rfl, unspent_nil i⟩
    use .initial
    constructor
    · apply hfollows.mono
      intro _ _ _
      trivial
    · apply h.spawn
  crash := by
    rintro cs w w' t c h hc ⟨-, rfl⟩
    exact ⟨c.close, trivial, h.release hc⟩

end Spending

/-- No retry is spent off the record: however the work overlaps, and whatever fails, the retry
count of an execution has grown by no more than the number of retries on its audit, when no
instance sets the status of a retry itself. -/
theorem retryCount_le_retries {i : UUID} {row : TaskExecution} {db : Database}
    {outcomes : ℕ → Option PyException} {faults : Cluster.Faults}
    {c : Machine.Config Op.Answer Cluster} (hrow : db.execution? i = some row)
    (hc : (workers faults (SpawnsWork (· ≠ .retrying))).Reachable { db, outcomes } c) :
  ∃ row', c.world.db.execution? i = some row' ∧
    row'.retryCount + db.retries i ≤ row.retryCount + c.world.db.retries i
  := by
  have hinv : Spending.Inv i (db.retries i) row.retryCount [] { db, outcomes } := by
    constructor
    · exact ⟨row, hrow, le_rfl⟩
    · rintro t c ⟨⟩
    · intro t _
      rfl
  obtain ⟨cs, h⟩ := (Spending.refinement i _ _ faults).reachable hinv hc
  apply h.inv.row

/-- Two calls of `on_error` that overlap spend one retry of an execution between them, and have
recorded two. -/
theorem retryCount_le_retries_of_overlapping :
  ∃ c, (workers .any (SpawnsWork (· ≠ .retrying))).Reachable (Example.cluster 0 2) c ∧
    (c.world.db.execution? Example.taskExecutionId).map (·.retryCount) = some 1 ∧
    c.world.db.retries Example.taskExecutionId = 2 ∧
    ∃ row, c.world.db.execution? Example.taskExecutionId = some row ∧
      row.retryCount + 0 ≤ 0 + c.world.db.retries Example.taskExecutionId
  := by
  have hpermitted : ∀ turn ∈ Example.overlapping,
      turn.Permitted .any (SpawnsWork (· ≠ .retrying)) := by
    have hspawn : (Turn.spawn Example.errorThread).Permitted .any (SpawnsWork (· ≠ .retrying)) :=
      fun _ => .hook Example.settings Example.message _ (.onError Example.exception)
    have hrun (t n : ℕ) : (Turn.run t n {}).Permitted .any (SpawnsWork (· ≠ .retrying)) :=
      ⟨fun _ => trivial, fun _ => trivial⟩
    simp only [Example.overlapping, List.forall_mem_cons, List.not_mem_nil]
    exact ⟨hspawn, hrun _ _, hspawn, hrun _ _, hrun _ _, by simp⟩
  obtain ⟨c, hc, hcounts⟩ := Turn.exists_reachable hpermitted (w := Example.cluster 0 2)
    (p := fun c => decide
      ((c.world.db.execution? Example.taskExecutionId).map (·.retryCount) = some 1 ∧
        c.world.db.retries Example.taskExecutionId = 2)) (by decide +kernel)
  obtain ⟨hcount, hretries⟩ := of_decide_eq_true hcounts
  have hrow : (Example.cluster 0 2).db.execution? Example.taskExecutionId
      = some (Example.row 0 2) := rfl
  exact ⟨c, hc, hcount, hretries, retryCount_le_retries hrow hc⟩

end WorkerTemplate
