import WorkerTemplate.Concurrent.Finality.Knowledge

/-!
# Terminal statuses

Every hook writes the status it has to write, whatever status it finds: a message that is
delivered again starts a completed execution anew.  A terminal status is final only for
the delivery that has set it.  As long as nobody else has committed an update of the
execution since the session that set the status was opened, no later hook of the delivery
changes the status.
-/

namespace WorkerTemplate

namespace Finality

variable {i : UUID} {t : ℕ} {c : State} {cs : List State} {w w' : Cluster} {e : Entry}
  {h : List Entry}

/-- The invariant is kept by an operation of a thread that keeps what the thread knows. -/
theorem Inv.set (hinv : Inv i cs w) (hc : cs[t]? = some c) {c' : State} {o : Op} {r : o.Answer}
    {faults : Cluster.Faults} (hstep : w.Performs faults t o r w') (hknows : Knows i t c' w') :
  Inv i (cs.set t c') w'
  := by
  have htxn : ∀ t', t' ≠ t → w'.txn t' = w.txn t' := fun t' hne => hstep.txn_of_ne hne
  obtain ⟨effects, hhistory, hdb⟩ := hstep.remembered
  have hsame : Entry.updates i { thread := t, op := o, answer := r, effects } = false →
      w'.db.execution? i = w.db.execution? i := by
    intro hupdates
    rcases hdb with ⟨-, hdb⟩ | ⟨-, rfl, hdb⟩
    · rw [hdb]
    · rw [hdb, Cluster.view, execution?_view_of_not_updates hupdates]
  constructor
  · rcases hdb with ⟨-, hdb⟩ | ⟨-, -, hdb⟩
    · rw [hdb]
      apply hinv.found
    · rw [hdb]
      apply execution?_view_isSome hinv.found _
  · intro t' c'' hc''
    rcases Machine.state_of_set hc'' with ⟨rfl, rfl⟩ | ⟨hne, hc''⟩
    · apply hknows
    · apply (hinv.knows t' c'' hc'').of_ne (Ne.symm hne) hhistory (htxn t' hne) hsame
  · intro t' ht'
    rw [List.length_set] at ht'
    have hlt : t < cs.length := (List.getElem?_eq_some_iff.mp hc).1
    have hne : t ≠ t' := by omega
    obtain ⟨hidle, howns⟩ := hinv.idle t' ht'
    refine ⟨(htxn t' (Ne.symm hne)).trans hidle, ?_⟩
    rw [hhistory, ownsStatus_cons_of_ne hne, howns, Bool.and_false]

/-- An operation that the protocol allows moves what its thread knows as the protocol says. -/
theorem Inv.performs (hinv : Inv i cs w) (hc : cs[t]? = some c) {faults : Cluster.Faults} {o : Op}
    {r : o.Answer} (hallows : (protocol i).allows c o) (hstep : w.Performs faults t o r w') :
  ∃ c', (protocol i).moves c o r c' ∧ Inv i (cs.set t c') w'
  := by
  have hknows := hinv.knows t c hc
  have hperforms := hstep
  -- A transaction that is taken back leaves what the thread has left before.
  have hclose {w' : Cluster} {e : Entry} (ht : e.thread = t) (heffects : e.effects = [])
      (hhistory : w'.history = e :: w.history) (hdb : w'.db = w.db) (htxn : w'.txn t = []) :
      Knows i t c.close w' := by
    apply knows_close htxn
    rw [hhistory, ownsStatus_cons_self ht (by simp [Entry.setsStatus, heffects]), hdb]
    apply hknows.owns
  cases hstep with
  | opens => exact ⟨_, rfl, hinv.set hc hperforms (hclose rfl rfl rfl rfl (by simp))⟩
  | closes => exact ⟨_, rfl, hinv.set hc hperforms (hclose rfl rfl rfl rfl (by simp))⟩
  | fails => exact ⟨_, rfl, hinv.set hc hperforms (hclose rfl rfl rfl rfl (by simp))⟩
  | lost => exact ⟨_, Or.inl rfl, hinv.set hc hperforms (hclose rfl rfl rfl rfl (by simp))⟩
  | commits => exact ⟨_, rfl, hinv.set hc hperforms hknows.commit⟩
  | applied =>
      refine ⟨_, Or.inr rfl, hinv.set hc hperforms ?_⟩
      apply knows_close (by simp)
      apply hknows.owns_commit rfl rfl
  | now time => exact ⟨_, rfl, hinv.set hc hperforms (hknows.keep rfl rfl rfl rfl rfl rfl)⟩
  | accepts => exact ⟨_, rfl, hinv.set hc hperforms (hknows.keep rfl rfl rfl rfl rfl rfl)⟩
  | rejects => exact ⟨_, rfl, hinv.set hc hperforms (hknows.keep rfl rfl rfl rfl rfl rfl)⟩
  | emits r => exact ⟨_, rfl, hinv.set hc hperforms (hknows.keep rfl rfl rfl rfl rfl rfl)⟩
  | runs => exact ⟨_, rfl, hinv.set hc hperforms (hknows.keep rfl rfl rfl rfl rfl rfl)⟩
  | @answers w s r free answers =>
      cases s with
      | selectAttempt filter => exact ⟨_, rfl, hinv.set hc hperforms (hknows.push rfl)⟩
      | insertAttempt row => exact ⟨_, rfl, hinv.set hc hperforms (hknows.push rfl)⟩
      | updateAttempt id d => exact ⟨_, rfl, hinv.set hc hperforms (hknows.push rfl)⟩
      | updateExecution j changes =>
          obtain ⟨rfl, hread, hkeeps⟩ := hallows
          exact ⟨_, rfl, hinv.set hc hperforms (hknows.push_update hread hkeeps)⟩
      | selectExecution j tenantId =>
          obtain ⟨rfl, rfl⟩ := hallows
          obtain ⟨row, c', hrow, hreads, hknows'⟩ := hknows.reads hinv.found
          obtain rfl : r = some row := Eq.trans answers hrow
          exact ⟨c', ⟨row, rfl, Database.id_of_execution? hrow, hreads⟩,
            hinv.set hc hperforms (hknows'.push rfl)⟩

/-- A crash takes back the open transaction of a thread. -/
theorem Inv.crash (hinv : Inv i cs w) (hc : cs[t]? = some c) :
  Inv i (cs.set t c.close) (w.release t)
  where
  found := hinv.found
  knows := by
    intro t' c' hc'
    rcases Machine.state_of_set hc' with ⟨rfl, rfl⟩ | ⟨hne, hc'⟩
    · apply knows_close (by simp)
      apply (hinv.knows t' c hc).owns
    · have hknows := hinv.knows t' c' hc'
      have htxn : (w.release t).txn t' = w.txn t' := by simp [hne]
      refine ⟨hknows.owns, hknows.keeps, ?_, ?_, hknows.lost, ?_⟩
      · rw [htxn]
        apply hknows.unread
      · rw [Cluster.view, htxn]
        apply hknows.exact
      · rw [htxn]
        apply hknows.setting
  idle := by
    intro t' ht'
    rw [List.length_set] at ht'
    obtain ⟨hidle, howns⟩ := hinv.idle t' ht'
    refine ⟨?_, howns⟩
    rw [Cluster.txn_release, Function.update_apply]
    split
    · rfl
    · apply hidle

/-- A new thread has left nothing. -/
theorem Inv.spawn (hinv : Inv i cs w) :
  Inv i (cs ++ [{ wrote := none }]) w
  where
  found := hinv.found
  knows := by
    intro t c hc
    rcases Machine.state_of_concat hc with hc | ⟨rfl, rfl⟩
    · apply hinv.knows t c hc
    · obtain ⟨hidle, howns⟩ := hinv.idle cs.length (Nat.le_refl _)
      change Knows i cs.length (State.close { wrote := none }) w
      apply knows_close hidle
      intro howns'
      cases howns.symm.trans howns'
  idle := by
    intro t ht
    apply hinv.idle t
    rw [List.length_append] at ht
    omega

/-- Workers that deliver messages of an execution refine the protocol of terminal statuses. -/
def refinement (i : UUID) (faults : Cluster.Faults) :
    (workers faults (SpawnsDelivery i)).Refinement (protocol i) where
  final _ := True
  inv := Inv i
  exec := by
    intro cs w w' t c o r hinv hc hallows hstep
    apply hinv.performs hc hallows hstep
  spawn := by
    intro cs w w' p hinv hspawn
    cases hspawn with
    | deliver settings message result hid =>
        refine ⟨{ wrote := none }, ?_, hinv.spawn⟩
        apply Hook.follows_thread
        apply Hook.obeys_deliver_finality settings hid rfl
    | setStatus status fields result =>
        refine ⟨{ wrote := none }, ?_, hinv.spawn⟩
        apply Hook.follows_thread
        apply (Hook.maintains_setStatus_finality result status fields _ _ ⟨rfl, _⟩).mono
        · intros
          trivial
        · rintro written ⟨⟩
  crash := by
    rintro cs w w' t c hinv hc ⟨-, rfl⟩
    exact ⟨_, trivial, hinv.crash hc⟩

/-- An operation of a thread that owns a terminal status keeps it. -/
theorem Inv.status_of_performs (hinv : Inv i cs w) (hc : cs[t]? = some c) {faults : Cluster.Faults}
    {o : Op} {r : o.Answer} (hstep : w.Performs faults t o r w')
    (howns : ownsStatus i t w.history = true) {row : TaskExecution}
    (hrow : w.db.execution? i = some row) (hterminal : row.status.IsTerminal) :
  ∃ row', w'.db.execution? i = some row' ∧ row'.status = row.status
  := by
  have hknows := hinv.knows t c hc
  obtain ⟨written, hwrote, hdb⟩ := hknows.owns howns
  obtain rfl := Option.some_injective _ (hrow.symm.trans hdb)
  rcases hstep.db with hdb' | hdb'
  · exact ⟨row, by rw [hdb', hrow], rfl⟩
  · rw [hdb']
    have hundisturbed := undisturbed_of_ownsStatus howns
    cases hsight : c.sight with
    | unread =>
        exact ⟨row, by
          rw [Cluster.view, execution?_view_of_not_updates (hknows.unread hsight), hrow], rfl⟩
    | exact row' =>
        exact ⟨row', hknows.exact row' hsight hundisturbed,
          hknows.keeps row row' hwrote hterminal hsight⟩
    | lost => cases hundisturbed.symm.trans (hknows.lost hsight)

end Finality

/-- Only updates of the execution by another thread end the ownership of its status. -/
theorem ownsStatus_cons {i : UUID} {t : ℕ} {e : Entry} {h : List Entry}
    (howns : ownsStatus i t h = true) (halone : e.updates i = true → e.thread = t) :
  ownsStatus i t (e :: h) = true
  := by
  rw [ownsStatus]
  split
  case isTrue => rw [howns, Bool.or_true]
  case isFalse ht =>
    have hupdates : e.updates i = false := by
      by_contra hupdates
      apply ht (halone (Bool.of_not_eq_false hupdates))
    rw [howns, hupdates]
    rfl

/-- A terminal status stays as long as only the thread that has set it updates the execution,
whatever fails. -/
theorem status_eq_of_ownsStatus {i : UUID} {t : ℕ} {row : TaskExecution} {db : Database}
    {outcomes : ℕ → Option PyException} {c c' : Machine.Config Op.Answer Cluster}
    {es : List Entry} (hfound : (db.execution? i).isSome)
    (hc : (workers .any (SpawnsDelivery i)).Reachable { db, outcomes } c)
    (hrow : c.world.db.execution? i = some row) (hterminal : row.status.IsTerminal)
    (howns : ownsStatus i t c.world.history = true)
    (hc' : Relation.ReflTransGen (workers .any (SpawnsDelivery i)).Step c c')
    (hes : c'.world.history = es ++ c.world.history)
    (halone : ∀ e ∈ es, e.updates i = true → e.thread = t) :
  ∃ row', c'.world.db.execution? i = some row' ∧ row'.status = row.status
  := by
  have hspawns : ∀ w p w', SpawnsDelivery i w p w' → w' = w := by
    rintro _ _ _ ⟨⟩
    · rfl
    · rfl
  have hinit : Finality.Inv i [] { db, outcomes } := by
    refine ⟨hfound, ?_, ?_⟩
    · rintro t c ⟨⟩
    · intro t _
      exact ⟨rfl, rfl⟩
  suffices h : ownsStatus i t c'.world.history = true ∧
      ∃ row', c'.world.db.execution? i = some row' ∧ row'.status = row.status from h.2
  induction hc' generalizing es with
  | refl => exact ⟨howns, row, hrow, rfl⟩
  | @tail c₁ c₂ hc₁ hstep ih =>
      obtain ⟨es₁, hes₁⟩ := history_of_reaches hspawns hc₁
      rcases performs_or_eq_of_step hspawns hstep with ⟨t', o, r, hlt, hperforms⟩ | ⟨hdb, hhistory⟩
      · obtain ⟨effects, hhistory, hdb⟩ := hperforms.remembered
        have hsplit : es = { thread := t', op := o, answer := r, effects } :: es₁ := by
          rw [hhistory, hes₁, ← List.cons_append] at hes
          apply (List.append_cancel_right hes).symm
        rw [hsplit, List.forall_mem_cons] at halone
        obtain ⟨howns₁, row₁, hrow₁, hstatus₁⟩ := ih hes₁ halone.2
        refine ⟨?_, ?_⟩
        · rw [hhistory]
          apply ownsStatus_cons howns₁ halone.1
        · by_cases ht : t' = t
          · subst ht
            obtain ⟨cs, haccounts⟩ := (Finality.refinement i .any).reachable hinit (hc.trans hc₁)
            have hthread : c₁.threads[t']? = some c₁.threads[t'] := List.getElem?_eq_getElem hlt
            obtain ⟨s, hs, -⟩ := haccounts.state hthread
            rw [← hstatus₁] at hterminal ⊢
            apply haccounts.inv.status_of_performs hs hperforms howns₁ hrow₁ hterminal
          · have hupdates : Entry.updates i { thread := t', op := o, answer := r, effects }
                = false := by
              by_contra hupdates
              apply ht (halone.1 (Bool.of_not_eq_false hupdates))
            refine ⟨row₁, ?_, hstatus₁⟩
            rcases hdb with ⟨-, hdb⟩ | ⟨-, rfl, hdb⟩
            · rw [hdb, hrow₁]
            · rw [hdb, Cluster.view, Finality.execution?_view_of_not_updates hupdates, hrow₁]
      · rw [hhistory] at hes ⊢
        rw [hdb]
        apply ih hes halone

namespace Example

/-- The message is delivered until the status of its execution is committed as completed. -/
def completes : List Turn := [.spawn delivery, .run 0 15 {}]

/-- The rest of the delivery. -/
def finishes : List Turn := [.run 0 100 {}]

/-- The message is delivered again, until its execution is committed as running. -/
def redelivers : List Turn := [.spawn delivery, .run 1 6 {}]

/-- The status of the execution that is committed. -/
def committedStatus (w : Cluster) : Option TaskStatus :=
  (w.db.execution? taskExecutionId).map (·.status)

theorem permitted_delivery (faults : Cluster.Faults) :
  (Turn.spawn delivery).Permitted faults (SpawnsDelivery taskExecutionId)
  := fun _ => .deliver settings message _ rfl

theorem permitted_run_delivery (faults : Cluster.Faults) (t n : ℕ) :
  (Turn.run t n {}).Permitted faults (SpawnsDelivery taskExecutionId)
  := ⟨by simp, by simp⟩

theorem permitted_completes (faults : Cluster.Faults) :
  ∀ turn ∈ completes, turn.Permitted faults (SpawnsDelivery taskExecutionId)
  := by
  simp only [completes, List.forall_mem_cons, List.not_mem_nil]
  exact ⟨permitted_delivery _, permitted_run_delivery _ _ _, by simp⟩

end Example

/-- The status of a completed execution stays while its delivery comes to its end. -/
theorem status_of_finished_delivery :
  ∃ c c', (workers .any (SpawnsDelivery Example.taskExecutionId)).Reachable
      (Example.cluster 0 3) c ∧
    Relation.ReflTransGen (workers .any (SpawnsDelivery Example.taskExecutionId)).Step c c' ∧
    (∃ p ∈ c.threads, p.hasReturned = false) ∧ (∀ p ∈ c'.threads, p.hasReturned = true) ∧
    ∃ row, c'.world.db.execution? Example.taskExecutionId = some row ∧ row.status = .completed
  := by
  have hfinishes : ∀ turn ∈ Example.finishes,
      turn.Permitted .any (SpawnsDelivery Example.taskExecutionId) := by
    simp only [Example.finishes, List.forall_mem_cons, List.not_mem_nil]
    exact ⟨Example.permitted_run_delivery _ _ _, by simp⟩
  obtain ⟨c, c', hc, hc', hp⟩ := Turn.exists_reachable_reaches
    (Example.permitted_completes .any) hfinishes (w := Example.cluster 0 3)
    (p := fun c c' => decide ((∃ p ∈ c.threads, p.hasReturned = false) ∧
      (∀ p ∈ c'.threads, p.hasReturned = true) ∧
      Example.committedStatus c.world = some .completed ∧
      ownsStatus Example.taskExecutionId 0 c.world.history = true ∧
      ∀ e ∈ c'.world.history, e.thread = 0)) (by rfl)
  obtain ⟨hrunning, hreturned, hstatus, howns, halone⟩ := of_decide_eq_true hp
  obtain ⟨row, hrow, hcompleted⟩ := Option.map_eq_some_iff.mp hstatus
  obtain ⟨es, hes⟩ := history_of_reaches (by rintro _ _ _ ⟨⟩ <;> rfl) hc'
  rw [hes] at halone
  obtain ⟨row', hrow', hstatus'⟩ := status_eq_of_ownsStatus rfl hc hrow (by rw [hcompleted]; decide)
    howns hc' hes (fun e he _ => halone e (List.mem_append_left _ he))
  exact ⟨c, c', hc, hc', hrunning, hreturned, row', hrow', hstatus'.trans hcompleted⟩

/-- A message that is delivered again restarts the execution that its first delivery has
completed. -/
theorem exists_reachable_restarted :
  ∃ c c', (workers Example.calm (SpawnsDelivery Example.taskExecutionId)).Reachable
      (Example.cluster 0 3) c ∧
    Relation.ReflTransGen (workers Example.calm (SpawnsDelivery Example.taskExecutionId)).Step
      c c' ∧
    Example.committedStatus c.world = some .completed ∧
    Example.committedStatus c'.world = some .running
  := by
  have hredelivers : ∀ turn ∈ Example.redelivers,
      turn.Permitted Example.calm (SpawnsDelivery Example.taskExecutionId) := by
    simp only [Example.redelivers, List.forall_mem_cons, List.not_mem_nil]
    exact ⟨Example.permitted_delivery _, Example.permitted_run_delivery _ _ _, by simp⟩
  obtain ⟨c, c', hc, hc', hp⟩ := Turn.exists_reachable_reaches
    (Example.permitted_completes Example.calm) hredelivers (w := Example.cluster 0 3)
    (p := fun c c' => decide (Example.committedStatus c.world = some .completed ∧
      Example.committedStatus c'.world = some .running)) (by rfl)
  exact ⟨c, c', hc, hc', of_decide_eq_true hp⟩

end WorkerTemplate
