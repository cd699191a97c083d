import WorkerTemplate.Concurrent.Audit.Protocol

/-!
# The audit of dispatched retries

When an error hook finds a pending attempt of an earlier call, it infers from the new error that the
message of the attempt was sent.  So the audit is only right when it was.
-/

namespace WorkerTemplate

namespace Audit

variable {sent : List AttemptKey} {id : Option ℕ} {key : AttemptKey}

/-- What a thread knows is so. -/
structure Knows (t : ℕ) (c : Knowledge) (w : Cluster) : Prop where
  attempt : c.attempt = attemptOf t w.history
  sent : ∀ key ∈ c.sent, key ∈ sentAttempts w.history
  found : ∀ id, c.found = some id → ∃ key, c.attempt = some key ∧ HasRow w.db id key
  inserted : c.inserted = false → ∀ row, .insertAttempt row ∉ w.txn t

/-- The rows and the open transactions are sound, and what the threads know is so. -/
structure Inv (cs : List Knowledge) (w : Cluster) : Prop where
  rows : SoundRows (sentAttempts w.history) w.db
  txn : ∀ t, ∀ e ∈ w.txn t, SoundEffect (sentAttempts w.history) w.db e
  knows : ∀ t c, cs[t]? = some c → Knows t c w
  idle : ∀ t, cs.length ≤ t → w.txn t = [] ∧ attemptOf t w.history = none

variable {cs : List Knowledge} {c : Knowledge} {w w' : Cluster} {t : ℕ} {faults : Cluster.Faults}
  {o : Op} {r : o.Answer}

/-- A thread works on the attempt of its operation, if this has one, and otherwise on the same
attempt as before. -/
theorem attempt_next (c : Knowledge) (o : Op) (r : o.Answer) :
  (c.next o r).attempt = o.attempt?.or c.attempt
  := by
  cases o with
  | openSession => rfl
  | closeSession => rfl
  | commit => rfl
  | now => rfl
  | emit room event => rfl
  | body message => rfl
  | kiq message =>
      simp only [Knowledge.next]
      split
      · rfl
      · rfl
  | statement s =>
      cases s with
      | selectExecution i tenantId => rfl
      | updateExecution i changes => rfl
      | updateAttempt i d => rfl
      | insertAttempt row =>
          simp only [Knowledge.next, Op.attempt?]
          split
          · rfl
          · rfl
      | selectAttempt filter =>
          cases filter with
          | pending i =>
              rcases r with e | _ | row
              · rfl
              · rfl
              · rfl
          | pendingOrDispatched i n =>
              rcases r with e | _ | row
              · rfl
              · rfl
              · rfl

/-- A row found under the number of an attempt is about that attempt. -/
theorem key_of_holds {row : TaskAttempt} {i : UUID} {n : ℕ}
    (h : (AttemptFilter.pendingOrDispatched i n).holds row = true) :
  row.key = (i, n)
  := by
  simp only [AttemptFilter.holds, Bool.and_eq_true, decide_eq_true_eq] at h
  rw [TaskAttempt.key, h.1.1, h.1.2]

theorem sentAttempts_mono (e : Entry) (h : List Entry) :
  ∀ key ∈ sentAttempts h, key ∈ sentAttempts (e :: h)
  := by
  intro key hkey
  rw [sentAttempts]
  split
  · apply List.mem_append_right _ hkey
  · apply hkey

/-- What a row that a transaction finds tells about the audit. -/
theorem Inv.found (h : Inv cs w) {filter : AttemptFilter} {row : TaskAttempt}
    (hanswers : (w.view t).Answers (.selectAttempt filter) (some row)) :
  filter.holds row = true ∧ HasRow (w.view t) row.id row.key ∧
    (row.dispatchResult = .dispatched → row.key ∈ sentAttempts w.history)
  := by
  obtain ⟨hmem, hholds⟩ := hanswers
  refine ⟨hholds, ⟨row, hmem, rfl, rfl⟩, ?_⟩
  apply (h.rows.view (h.txn t)).dispatched row hmem

theorem finds_of_performs (hstep : w.Performs faults t o r w') :
  Finds o r
  := by
  cases hstep with
  | opens => trivial
  | closes => trivial
  | @answers w s r free answers =>
      cases s with
      | selectExecution i tenantId => trivial
      | updateExecution i changes => trivial
      | updateAttempt i d => trivial
      | insertAttempt row => trivial
      | selectAttempt filter =>
          cases r with
          | none => trivial
          | some row => apply answers.2
  | @fails w s =>
      cases s with
      | selectExecution i tenantId => trivial
      | updateExecution i changes => trivial
      | updateAttempt i d => trivial
      | insertAttempt row => trivial
      | selectAttempt filter => trivial
  | commits => trivial
  | lost => trivial
  | applied => trivial
  | now => trivial
  | accepts => trivial
  | rejects => trivial
  | emits => trivial
  | runs => trivial

/-- The attempts a thread knows to be sent after an operation are sent. -/
theorem Inv.sent_next (h : Inv cs w) (hknows : Knows t c w)
    (hstep : w.Performs faults t o r w') (hmeets : ReconcilesSent w o r) :
  ∀ key ∈ (c.next o r).sent, key ∈ sentAttempts w'.history
  := by
  obtain ⟨es, hhistory, -⟩ := hstep.remembered
  have hold : ∀ key ∈ c.sent, key ∈ sentAttempts w'.history := by
    intro key hkey
    rw [hhistory]
    apply sentAttempts_mono _ _ key (hknows.sent key hkey)
  cases hstep with
  | opens => apply hold
  | closes => apply hold
  | @fails w s =>
      cases s with
      | selectExecution i tenantId => apply hold
      | updateExecution i changes => apply hold
      | updateAttempt i d => apply hold
      | insertAttempt row => apply hold
      | selectAttempt filter =>
          cases filter with
          | pending i => apply hold
          | pendingOrDispatched i n => apply hold
  | commits => apply hold
  | lost => apply hold
  | applied => apply hold
  | now => apply hold
  | rejects => apply hold
  | emits => apply hold
  | runs => apply hold
  | accepts =>
      intro key hkey
      rcases List.mem_append.mp hkey with hkey | hkey
      · apply List.mem_append_left
        rw [hknows.attempt] at hkey
        apply hkey
      · apply hold key hkey
  | @answers w s r free answers =>
      cases s with
      | selectExecution i tenantId => apply hold
      | updateExecution i changes => apply hold
      | updateAttempt i d => apply hold
      | insertAttempt row => apply hold
      | selectAttempt filter =>
          cases r with
          | none =>
              cases filter with
              | pending i => apply hold
              | pendingOrDispatched i n => apply hold
          | some row =>
              obtain ⟨hholds, -, hdispatched⟩ := h.found answers
              cases filter with
              | pending i =>
                  intro key hkey
                  rcases List.mem_cons.mp hkey with rfl | hkey
                  · apply sentAttempts_mono _ _ _ (hmeets _ rfl)
                  · apply hold key hkey
              | pendingOrDispatched i n =>
                  intro key hkey
                  simp only [Knowledge.next, Knowledge.lookUp] at hkey
                  split at hkey
                  case isFalse => exact hold key hkey
                  case isTrue hd =>
                    rcases List.mem_cons.mp hkey with rfl | hkey
                    · have hkey : row.key = (i, n) := key_of_holds hholds
                      rw [← hkey]
                      apply sentAttempts_mono _ _ _ (hdispatched hd)
                    · apply hold key hkey

/-- The row a thread has found after an operation is a committed row of its attempt. -/
theorem Inv.found_next (h : Inv cs w) (hknows : Knows t c w)
    (hstep : w.Performs faults t o r w')
    (hrows : ∀ id key, HasRow w.db id key → HasRow w'.db id key) :
  ∀ id, (c.next o r).found = some id →
    ∃ key, (c.next o r).attempt = some key ∧ HasRow w'.db id key
  := by
  have hold : ∀ id, c.found = some id → ∃ key, c.attempt = some key ∧ HasRow w'.db id key := by
    intro id hid
    obtain ⟨key, hkey, hrow⟩ := hknows.found id hid
    exact ⟨key, hkey, hrows id key hrow⟩
  cases hstep with
  | opens => apply hold
  | closes => apply hold
  | @fails w s =>
      cases s with
      | selectExecution i tenantId => apply hold
      | updateExecution i changes => apply hold
      | updateAttempt i d => apply hold
      | insertAttempt row => simp [Knowledge.next]
      | selectAttempt filter =>
          cases filter with
          | pending i => apply hold
          | pendingOrDispatched i n => simp [Knowledge.next, Knowledge.lookUp]
  | commits => apply hold
  | lost => apply hold
  | applied => apply hold
  | now => apply hold
  | rejects => apply hold
  | emits => apply hold
  | runs => apply hold
  | accepts => apply hold
  | @answers w s r free answers =>
      cases s with
      | selectExecution i tenantId => apply hold
      | updateExecution i changes => apply hold
      | updateAttempt i d => apply hold
      | insertAttempt row => simp [Knowledge.next]
      | selectAttempt filter =>
          cases r with
          | none =>
              cases filter with
              | pending i => apply hold
              | pendingOrDispatched i n => simp [Knowledge.next, Knowledge.lookUp]
          | some row =>
              obtain ⟨hholds, hrow, -⟩ := h.found answers
              cases filter with
              | pending i => apply hold
              | pendingOrDispatched i n =>
                  intro id hid
                  simp only [Knowledge.next, Knowledge.lookUp] at hid ⊢
                  split at hid
                  case isTrue => cases hid
                  case isFalse hinserted =>
                    obtain ⟨rfl⟩ := hid
                    refine ⟨(i, n), rfl, ?_⟩
                    rw [← key_of_holds hholds]
                    apply hrow.of_view
                    apply hknows.inserted
                    simpa using hinserted

/-- A thread that has inserted no row knows so. -/
theorem Knows.inserted_next (hknows : Knows t c w) (hstep : w.Performs faults t o r w') :
  (c.next o r).inserted = false → ∀ row, .insertAttempt row ∉ w'.txn t
  := by
  cases hstep with
  | opens => simp
  | closes => simp
  | fails => simp
  | commits => simp
  | lost => simp
  | applied => simp
  | now => apply hknows.inserted
  | accepts => apply hknows.inserted
  | rejects => apply hknows.inserted
  | emits => apply hknows.inserted
  | runs => apply hknows.inserted
  | @answers w s r free answers =>
      intro hinserted row hrow
      simp only [Cluster.txn_record, Cluster.txn_push, Function.update_self,
        List.mem_append] at hrow
      cases s with
      | insertAttempt row' => cases hinserted
      | selectExecution i tenantId =>
          apply hknows.inserted hinserted row (hrow.resolve_right (by simp [Statement.effects]))
      | updateExecution i changes =>
          apply hknows.inserted hinserted row (hrow.resolve_right (by simp [Statement.effects]))
      | updateAttempt i d =>
          apply hknows.inserted hinserted row (hrow.resolve_right (by simp [Statement.effects]))
      | selectAttempt filter =>
          refine hknows.inserted ?_ row (hrow.resolve_right (by simp [Statement.effects]))
          cases filter with
          | pending i =>
              rcases r with _ | row'
              · apply hinserted
              · apply hinserted
          | pendingOrDispatched i n =>
              rcases r with _ | row'
              · apply hinserted
              · apply hinserted

/-- The effects of the open transactions stay sound. -/
theorem Inv.txn_next (h : Inv cs w) (hknows : Knows t c w) (hallows : protocol.allows c o)
    (hstep : w.Performs faults t o r w')
    (hsent : ∀ key ∈ sentAttempts w.history, key ∈ sentAttempts w'.history)
    (hrows : ∀ id key, HasRow w.db id key → HasRow w'.db id key) :
  ∀ t', ∀ e ∈ w'.txn t', SoundEffect (sentAttempts w'.history) w'.db e
  := by
  intro t' e he
  by_cases ht : t' = t
  · subst ht
    rcases hstep.of_mem_txn he with he | ⟨s, rfl, he⟩
    · apply (h.txn t' e he).mono hsent hrows
    · cases s with
      | selectExecution i tenantId => simp [Statement.effects] at he
      | selectAttempt filter => simp [Statement.effects] at he
      | updateExecution i changes =>
          obtain rfl := List.mem_singleton.mp he
          trivial
      | insertAttempt row =>
          obtain rfl := List.mem_singleton.mp he
          apply hallows
      | updateAttempt id d =>
          obtain rfl := List.mem_singleton.mp he
          obtain ⟨hd, hfound, key, hkey, hkeysent⟩ := hallows
          obtain ⟨key', hkey', hrow⟩ := hknows.found id hfound
          obtain rfl : key' = key := Option.some_injective _ (hkey'.symm.trans hkey)
          exact ⟨hd, key', hsent _ (hknows.sent _ hkeysent), hrows id key' hrow⟩
  · rw [hstep.txn_of_ne ht] at he
    apply (h.txn t' e he).mono hsent hrows

/-- What a thread knows stays so when another thread performs an operation. -/
theorem Knows.other (hknows : Knows t c w) {t' : ℕ} (hstep : w.Performs faults t' o r w')
    (ht : t ≠ t') (hsent : ∀ key ∈ sentAttempts w.history, key ∈ sentAttempts w'.history)
    (hrows : ∀ id key, HasRow w.db id key → HasRow w'.db id key) :
  Knows t c w'
  := by
  obtain ⟨es, hhistory, -⟩ := hstep.remembered
  constructor
  · rw [hhistory, attemptOf, if_neg (Ne.symm ht)]
    apply hknows.attempt
  · intro key hkey
    apply hsent key (hknows.sent key hkey)
  · intro id hid
    obtain ⟨key, hkey, hrow⟩ := hknows.found id hid
    exact ⟨key, hkey, hrows id key hrow⟩
  · rw [hstep.txn_of_ne ht]
    apply hknows.inserted

/-- An operation that the protocol allows keeps the rows sound, and what the threads know stays
so. -/
theorem Inv.performs (h : Inv cs w) (hc : cs[t]? = some c) (hallows : protocol.allows c o)
    (hstep : w.Performs faults t o r w') (hmeets : ReconcilesSent w o r) :
  Inv (cs.set t (c.next o r)) w'
  := by
  have hknows := h.knows t c hc
  obtain ⟨es, hhistory, -⟩ := hstep.remembered
  have hsent : ∀ key ∈ sentAttempts w.history, key ∈ sentAttempts w'.history := by
    rw [hhistory]
    apply sentAttempts_mono
  have hrows : ∀ id key, HasRow w.db id key → HasRow w'.db id key := by
    intro id key hrow
    rcases hstep.db with hdb | hdb
    · rwa [hdb]
    · rw [hdb]
      apply hrow.view
  have hlt : t < cs.length := (List.getElem?_eq_some_iff.mp hc).1
  constructor
  · have hsound : SoundRows (sentAttempts w.history) w'.db := by
      rcases hstep.db with hdb | hdb
      · rw [hdb]
        apply h.rows
      · rw [hdb]
        apply h.rows.view (h.txn t)
    apply hsound.mono hsent
  · apply h.txn_next hknows hallows hstep hsent hrows
  · intro t' c' hc'
    rcases Machine.state_of_set hc' with ⟨rfl, rfl⟩ | ⟨ht, hc'⟩
    · constructor
      · rw [attempt_next, hhistory, attemptOf, if_pos rfl, hknows.attempt]
      · apply h.sent_next hknows hstep hmeets
      · apply h.found_next hknows hstep hrows
      · apply hknows.inserted_next hstep
    · apply (h.knows t' c' hc').other hstep ht hsent hrows
  · intro t' ht'
    rw [List.length_set] at ht'
    have hne : t' ≠ t := by omega
    obtain ⟨hidle, hattempt⟩ := h.idle t' ht'
    constructor
    · rw [hstep.txn_of_ne hne]
      apply hidle
    · rw [hhistory, attemptOf, if_neg (Ne.symm hne)]
      apply hattempt

/-- A crash forgets the open transaction of a thread and nothing else. -/
theorem Inv.release (h : Inv cs w) (t : ℕ) :
  Inv cs (w.release t)
  where
  rows := h.rows
  txn := by
    intro t' e he
    rw [Cluster.txn_release, Function.update_apply] at he
    split at he
    · cases he
    · apply h.txn t' e he
  knows := by
    intro t' c' hc'
    have hknows := h.knows t' c' hc'
    refine ⟨hknows.attempt, hknows.sent, hknows.found, ?_⟩
    intro hinserted row hrow
    rw [Cluster.txn_release, Function.update_apply] at hrow
    split at hrow
    · cases hrow
    · apply hknows.inserted hinserted row hrow
  idle := by
    intro t' ht'
    obtain ⟨hidle, hattempt⟩ := h.idle t' ht'
    refine ⟨?_, hattempt⟩
    rw [Cluster.txn_release, Function.update_apply]
    split
    · rfl
    · apply hidle

/-- A new thread knows nothing that is not so. -/
theorem Inv.spawn (h : Inv cs w) :
  Inv (cs ++ [Knowledge.initial]) w
  where
  rows := h.rows
  txn := h.txn
  knows := by
    intro t c hc
    rcases Machine.state_of_concat hc with hc | ⟨rfl, rfl⟩
    · apply h.knows t c hc
    · obtain ⟨hidle, hattempt⟩ := h.idle cs.length (Nat.le_refl _)
      refine ⟨hattempt.symm, by simp [Knowledge.initial], by simp [Knowledge.initial], ?_⟩
      rw [hidle]
      simp
  idle := by
    intro t ht
    apply h.idle t
    rw [List.length_append] at ht
    omega

/-- Workers whose error hooks reconcile sent attempts only refine the protocol of the
audit. -/
def refinement (faults : Cluster.Faults) :
    ((workers faults SpawnsHook).restrict ReconcilesSent).Refinement protocol where
  final _ := True
  inv := Inv
  exec := by
    rintro cs w w' t c o r h hc hallows ⟨hstep, hmeets⟩
    use c.next o r, ⟨finds_of_performs hstep, rfl⟩
    apply h.performs hc hallows hstep hmeets
  spawn := by
    intro cs w w' p h hspawn
    have hthread (hook : Hook Unit) (result : TaskiqResult) (hhook : Hook.Audited hook) :
        (hook.thread { result }).Follows protocol (fun _ _ => True) Knowledge.initial := by
      apply Hook.follows_thread
      apply hhook _ _ trivial
    cases hspawn with
    | preExecute settings message result =>
        exact ⟨_, hthread _ _ (Hook.tracks_audit.preExecute settings message), h.spawn⟩
    | postExecute settings message result =>
        exact ⟨_, hthread _ _ (Hook.tracks_audit.postExecute settings message), h.spawn⟩
    | onError settings message result exception =>
        exact ⟨_, hthread _ _ (Hook.audited_onError settings message exception), h.spawn⟩
  crash := by
    rintro cs w w' t c h hc ⟨-, rfl⟩
    refine ⟨c, trivial, ?_⟩
    obtain ⟨ht, rfl⟩ := List.getElem?_eq_some_iff.mp hc
    rw [List.set_getElem_self]
    apply h.release

end Audit

/-- As long as error hooks only reconcile attempts whose messages were accepted, every
dispatched attempt is one whose message was accepted. -/
theorem auditSound_of_reconcilesSent {db : Database} {outcomes : ℕ → Option PyException}
    {c : Machine.Config Op.Answer Cluster} (hattempts : db.attempts = [])
    (hc : ((workers .any SpawnsHook).restrict ReconcilesSent).Reachable { db, outcomes } c) :
  AuditSound c.world
  := by
  have hinv : Audit.Inv [] { db, outcomes } := by
    constructor
    · constructor
      · simp [hattempts]
      · simp [hattempts]
    · rintro t e ⟨⟩
    · rintro t c ⟨⟩
    · intro t _
      exact ⟨rfl, rfl⟩
  obtain ⟨cs, haccounts⟩ := (Audit.refinement .any).reachable hinv hc
  apply haccounts.inv.rows.dispatched

/-- The history tells whether the error hooks of a run have reconciled sent attempts only. -/
theorem reachable_reconcilesSent {faults : Cluster.Faults} {w : Cluster}
    {c : Machine.Config Op.Answer Cluster} (hc : (workers faults SpawnsHook).Reachable w c)
    (hsent : ReconciledSent c.world.history) :
  ((workers faults SpawnsHook).restrict ReconcilesSent).Reachable w c
  := by
  apply Machine.reachable_restrict (fun w => ReconciledSent w.history) _ _ _ hc hsent
  · intro t o w r w' hstep htells
    obtain ⟨es, hhistory, -⟩ := hstep.remembered
    rw [hhistory] at htells
    exact htells
  · intro w p w' hspawn htells
    cases hspawn with
    | preExecute => exact htells
    | postExecute => exact htells
    | onError => exact htells
  · rintro t w w' ⟨-, rfl⟩ htells
    exact htells

namespace Example

/-- The worker of a first failure stops when its message has been accepted, and the message is
delivered and fails. -/
def stoppedThenRedelivered : List Turn :=
  [.spawn errorThread, .run 0 11 {}, .crash 0, .spawn errorThread, .run 1 100 {}]

theorem permitted_any_error :
  (Turn.spawn errorThread).Permitted .any SpawnsHook
  := fun _ => .onError _ _ _ _

theorem permitted_any_run (t n : ℕ) (chance : Chance) :
  (Turn.run t n chance).Permitted .any SpawnsHook
  := ⟨fun _ => trivial, fun _ => trivial⟩

end Example

/-- The next error finds the pending attempt of a worker that has stopped after its message was
accepted, and marks it as dispatched. -/
theorem auditSound_of_stopped :
  ∃ c, ((workers .any SpawnsHook).restrict ReconcilesSent).Reachable (Example.cluster 0 3) c ∧
    c.world.history.filterMap (fun e => e.op.reconciled? e.answer)
      = [(Example.taskExecutionId, 1)] ∧
    c.world.db.attempts.map (fun row => (row.attemptNumber, row.dispatchResult))
      = [(1, .dispatched), (2, .dispatched)] ∧
    AuditSound c.world
  := by
  have hpermitted : ∀ turn ∈ Example.stoppedThenRedelivered, turn.Permitted .any SpawnsHook := by
    simp only [Example.stoppedThenRedelivered, List.forall_mem_cons, List.not_mem_nil]
    exact ⟨Example.permitted_any_error, Example.permitted_any_run _ _ _, trivial,
      Example.permitted_any_error, Example.permitted_any_run _ _ _, by simp⟩
  obtain ⟨c, hc, hpast⟩ := Turn.exists_reachable hpermitted (w := Example.cluster 0 3)
    (p := fun c => decide (ReconciledSent c.world.history ∧
      c.world.history.filterMap (fun e => e.op.reconciled? e.answer)
        = [(Example.taskExecutionId, 1)] ∧
      c.world.db.attempts.map (fun row => (row.attemptNumber, row.dispatchResult))
        = [(1, .dispatched), (2, .dispatched)])) (by decide +kernel)
  obtain ⟨hsent, hfound, hrows⟩ := of_decide_eq_true hpast
  have hrestricted := reachable_reconcilesSent hc hsent
  exact ⟨c, hrestricted, hfound, hrows, auditSound_of_reconcilesSent rfl hrestricted⟩

namespace Example

/-- The message of a first failure is rejected, and the message delivered again. -/
def rejectedThenRedelivered : List Turn :=
  [.spawn errorThread, .run 0 100 { accepts := false }, .spawn errorThread, .run 1 100 {}]

end Example

/-- The next error marks the attempt of a rejected message as dispatched. -/
theorem exists_reachable_not_auditSound :
  ∃ c, (workers .any SpawnsHook).Reachable (Example.cluster 0 3) c ∧ ¬ AuditSound c.world
  := by
  have hpermitted : ∀ turn ∈ Example.rejectedThenRedelivered, turn.Permitted .any SpawnsHook := by
    simp only [Example.rejectedThenRedelivered, List.forall_mem_cons, List.not_mem_nil]
    exact ⟨Example.permitted_any_error, Example.permitted_any_run _ _ _,
      Example.permitted_any_error, Example.permitted_any_run _ _ _, by simp⟩
  obtain ⟨c, hc, hsound⟩ := Turn.exists_reachable hpermitted (w := Example.cluster 0 3)
    (p := fun c => decide (¬ AuditSound c.world)) (by rfl)
  exact ⟨c, hc, of_decide_eq_true hsound⟩

end WorkerTemplate
