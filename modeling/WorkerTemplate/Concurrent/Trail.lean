import WorkerTemplate.Concurrent.Trail.Protocol

/-!
# The trail of the workers

However many hooks overlap, and whatever fails, the workers only add to the audit, every row of it
fits its execution, and every message that was offered has its attempt on it.
-/

namespace WorkerTemplate

namespace Trail

variable {terms : UUID → Option (UUID × ℕ)} {w w' : Cluster} {t : ℕ} {c c' : Knowledge}
  {cs : List Knowledge} {faults : Cluster.Faults} {o : Op} {r : o.Answer}

/-- What a thread knows is so. -/
structure Knows (t : ℕ) (c : Knowledge) (w : Cluster) : Prop where
  own : w.txn t = c.own
  found : ∀ id ∈ c.found, w.db.Opens id
  recorded : ∀ i ∈ c.recorded, w.db.OpensFor i

/-- A message that was sent is one of an execution with an open attempt. -/
def Warranted (db : Database) (e : Entry) : Prop :=
  ∀ message, e.sends = some message →
    ∃ i, message.extractTaskExecutionId = some i ∧ db.OpensFor i

/-- The audit fits the executions, the open transactions go on with it, and every message was
sent for an attempt. -/
structure Inv (terms : UUID → Option (UUID × ℕ)) (cs : List Knowledge) (w : Cluster) : Prop where
  terms : ∀ i, w.db.terms i = terms i
  audited : w.db.Audited
  txn : ∀ t, ∀ e ∈ w.txn t, w.db.AuditEffect e
  knows : ∀ t c, cs[t]? = some c → Knows t c w
  idle : ∀ t, cs.length ≤ t → w.txn t = []
  history : ∀ e ∈ w.history, Warranted w.db e

theorem Knows.mono (h : Knows t c w) (hown : w'.txn t = w.txn t) (hle : w.db.AuditLE w'.db) :
  Knows t c w'
  where
  own := hown.trans h.own
  found id hid := (h.found id hid).mono hle
  recorded i hi := (h.recorded i hi).mono hle

theorem Warranted.mono {db db' : Database} {e : Entry} (h : Warranted db e)
    (hle : db.AuditLE db') :
  Warranted db' e
  := by
  intro message hmessage
  obtain ⟨i, hi, hopens⟩ := h message hmessage
  exact ⟨i, hi, hopens.mono hle⟩

/-- The audit goes on over an operation, and still fits the executions. -/
theorem Inv.auditLE (h : Inv terms cs w) (hstep : w.Performs faults t o r w') :
  w.db.AuditLE w'.db ∧ w'.db.Audited ∧ ∀ i, w'.db.terms i = w.db.terms i
  := by
  rcases hstep.db with hdb | hdb
  · rw [hdb]
    exact ⟨.refl _, h.audited, fun _ => rfl⟩
  · rw [hdb, Cluster.view]
    obtain ⟨hle, haudited⟩ := h.audited.view (h.txn t)
    exact ⟨hle, haudited, fun i => Database.terms_view _ _ i⟩

/-- An operation keeps the invariant when what its thread knows after it is so, and a message that
it sends is sent for an attempt. -/
theorem Inv.set (h : Inv terms cs w) (hc : cs[t]? = some c) (hstep : w.Performs faults t o r w')
    (hknows : Knows t c' w') (heffects : ∀ e ∈ c'.own, w'.db.AuditEffect e)
    (hsent : ∀ message, o = .kiq message →
      ∃ i, message.extractTaskExecutionId = some i ∧ w'.db.OpensFor i) :
  Inv terms (cs.set t c') w'
  := by
  obtain ⟨hle, haudited, hterms⟩ := h.auditLE hstep
  have ht : t < cs.length := (List.getElem?_eq_some_iff.mp hc).1
  constructor
  case terms => exact fun i => (hterms i).trans (h.terms i)
  case audited => apply haudited
  case txn =>
    intro t' e he
    by_cases hne : t' = t
    · rw [hne, hknows.own] at he
      apply heffects e he
    · rw [hstep.txn_of_ne hne] at he
      apply (h.txn t' e he).mono hle hterms
  case knows =>
    intro t' c₁ hc₁
    rcases Machine.state_of_set hc₁ with ⟨rfl, rfl⟩ | ⟨hne, hc₁⟩
    · apply hknows
    · apply (h.knows t' c₁ hc₁).mono (hstep.txn_of_ne hne) hle
  case idle =>
    intro t' ht'
    rw [List.length_set] at ht'
    rw [hstep.txn_of_ne (by omega)]
    apply h.idle t' ht'
  case history =>
    obtain ⟨es, hhistory, -⟩ := hstep.remembered
    rw [hhistory]
    intro e he
    rcases List.mem_cons.mp he with rfl | he
    · intro message hmessage
      simp only [Entry.sends] at hmessage
      split at hmessage
      case h_1 =>
        cases hmessage
        apply hsent message rfl
      case h_2 => cases hmessage
    · apply (h.history e he).mono hle

/-- A thread whose transaction is rolled back knows what it knew. -/
theorem Knows.close (h : Knows t c w) (htxn : w'.txn t = []) (hle : w.db.AuditLE w'.db) :
  Knows t c.close w'
  where
  own := htxn
  found id hid := (h.found id hid).mono hle
  recorded i hi := (h.recorded i hi).mono hle

/-- An attempt that a query finds is open. -/
theorem isOpen_of_holds {filter : AttemptFilter} {row : TaskAttempt}
    (h : filter.holds row = true) :
  row.IsOpen
  := by
  cases filter with
  | pending i =>
      simp only [AttemptFilter.holds, Bool.and_eq_true, decide_eq_true_eq] at h
      exact Or.inl h.2
  | pendingOrDispatched i n =>
      simp only [AttemptFilter.holds, Bool.and_eq_true, Bool.or_eq_true, decide_eq_true_eq] at h
      apply h.2

/-- The statements that the protocol allows go on with the audit. -/
theorem Inv.auditEffect (h : Inv terms cs w) (hknows : Knows t c w) {s : Statement}
    (hallows : (protocol terms).allows c (.statement s)) :
  ∀ e ∈ s.effects, w.db.AuditEffect e
  := by
  intro e he
  cases s with
  | selectExecution i tenantId => cases he
  | selectAttempt filter => cases he
  | updateExecution i changes =>
      obtain rfl := List.mem_singleton.mp he
      trivial
  | insertAttempt row =>
      obtain rfl := List.mem_singleton.mp he
      obtain ⟨terms', hterms, hfits⟩ := hallows
      exact ⟨terms', (h.terms _).trans hterms, hfits⟩
  | updateAttempt id d =>
      obtain rfl := List.mem_singleton.mp he
      exact ⟨hallows.1, hknows.found id hallows.2⟩

/-- A row that is read of an execution has the terms of the execution. -/
theorem Inv.reads (h : Inv terms cs w) {j : UUID} {tenantId : Option UUID} {row : TaskExecution}
    (hanswers : (w.view t).Answers (.selectExecution j tenantId) (some row)) :
  row.id = j ∧ terms j = some row.terms
  := by
  have hrow : (w.view t).execution? j = some row := by
    have hanswer : some row = (w.view t).answer (.selectExecution j tenantId) := hanswers
    cases tenantId with
    | none => apply hanswer.symm
    | some tenantId => apply (Option.filter_eq_some_iff.mp hanswer.symm).1
  use Database.id_of_execution? hrow
  rw [← h.terms, ← Database.terms_view w.db (w.txn t)]
  change ((w.view t).execution? j).map _ = _
  rw [hrow]
  rfl

/-- A statement that is answered moves what its thread knows as the protocol says. -/
theorem Inv.answers (h : Inv terms cs w) (hc : cs[t]? = some c) {s : Statement} {r : s.Answer}
    (hallows : (protocol terms).allows c (.statement s)) (hfree : ¬ w.Blocked t s)
    (hanswers : (w.view t).Answers s r) :
  ∃ c', (protocol terms).moves c (.statement s) (.ok r) c' ∧
    Inv terms (cs.set t c') ((w.push t s).record t (.statement s) (.ok r) [])
  := by
  have hknows := h.knows t c hc
  have hstep : w.Performs .any t (.statement s) (.ok r)
      ((w.push t s).record t (.statement s) (.ok r) []) := .answers hfree hanswers
  have heffects : ∀ e ∈ c.own ++ s.effects, w.db.AuditEffect e := by
    intro e he
    rcases List.mem_append.mp he with he | he
    · rw [← hknows.own] at he
      apply h.txn t e he
    · apply h.auditEffect hknows hallows e he
  have hown : (w.push t s).txn t = c.own ++ s.effects := by
    rw [Cluster.txn_push, Function.update_self, hknows.own]
  have hpush : Inv terms (cs.set t { c with own := c.own ++ s.effects })
      ((w.push t s).record t (.statement s) (.ok r) []) :=
    h.set hc hstep ⟨hown, hknows.found, hknows.recorded⟩ heffects (by rintro message ⟨⟩)
  cases s with
  | updateExecution i changes => exact ⟨_, rfl, hpush⟩
  | insertAttempt row => exact ⟨_, rfl, hpush⟩
  | updateAttempt id d => exact ⟨_, rfl, hpush⟩
  | selectExecution j tenantId =>
      cases r with
      | none => exact ⟨_, rfl, hpush⟩
      | some row =>
          obtain ⟨hid, hterms⟩ := h.reads hanswers
          use c, ⟨hid, hterms, rfl⟩
          simpa [Statement.effects] using hpush
  | selectAttempt filter =>
      cases r with
      | none => exact ⟨_, rfl, hpush⟩
      | some row =>
          obtain ⟨hmem, hholds⟩ := hanswers
          obtain ⟨row', hrow', hid, hi, hopen⟩ := h.audited.exists_mem_of_view (h.txn t)
            (hknows.own ▸ hallows) hmem (isOpen_of_holds hholds)
          simp only [Statement.effects, List.append_nil] at heffects hown
          have hfound : Knows t (c.find row)
              ((w.push t (.selectAttempt filter)).record t (.statement (.selectAttempt filter))
                (.ok (some row)) []) := by
            constructor
            · apply hown
            · intro id hmem'
              rcases List.mem_cons.mp hmem' with rfl | hmem'
              · exact ⟨row', hrow', hid, hopen⟩
              · apply hknows.found id hmem'
            · intro i hmem'
              rcases List.mem_cons.mp hmem' with rfl | hmem'
              · exact ⟨row', hrow', hi, hopen⟩
              · apply hknows.recorded i hmem'
          use c.find row, ⟨hholds, rfl⟩
          apply h.set hc hstep hfound heffects
          rintro message ⟨⟩

/-- A commit that returns tells its thread which attempts are committed. -/
theorem Inv.commits (h : Inv terms cs w) (hc : cs[t]? = some c) :
  Inv terms (cs.set t c.commit) ((w.commit t).record t .commit (.ok ()) (w.txn t))
  := by
  have hknows := h.knows t c hc
  have hstep : w.Performs .any t .commit (.ok ())
      ((w.commit t).record t .commit (.ok ()) (w.txn t)) := .commits
  obtain ⟨hle, -, -⟩ := h.auditLE hstep
  apply h.set hc hstep _ (by rintro e ⟨⟩) (by rintro message ⟨⟩)
  constructor
  · simp [Knowledge.commit]
  · intro id hid
    apply (hknows.found id hid).mono hle
  · intro i hi
    rcases List.mem_append.mp hi with hi | hi
    · obtain ⟨e, he, hrecords⟩ := List.mem_filterMap.mp hi
      cases e with
      | updateExecution j changes => cases hrecords
      | updateAttempt id d => cases hrecords
      | insertAttempt row =>
          simp only [Effect.records] at hrecords
          split at hrecords
          case isTrue hpending =>
            cases hrecords
            rw [← hknows.own] at he
            apply h.audited.opensFor_view (h.txn t) he (Or.inl hpending)
          case isFalse => cases hrecords
    · apply (hknows.recorded i hi).mono hle

/-- An operation that the protocol allows keeps the invariant, and moves what its thread knows as
the protocol says. -/
theorem Inv.performs (h : Inv terms cs w) (hc : cs[t]? = some c)
    (hallows : (protocol terms).allows c o) (hstep : w.Performs faults t o r w') :
  ∃ c', (protocol terms).moves c o r c' ∧ Inv terms (cs.set t c') w'
  := by
  have hknows := h.knows t c hc
  have hle := (h.auditLE hstep).1
  have hown : ∀ e ∈ c.own, w.db.AuditEffect e := by
    intro e he
    rw [← hknows.own] at he
    apply h.txn t e he
  have hclose (htxn : w'.txn t = []) (hkiq : ∀ message, o ≠ .kiq message) :
      Inv terms (cs.set t c.close) w' :=
    h.set hc hstep (hknows.close htxn hle) (by rintro e ⟨⟩)
      (fun message hmessage => absurd hmessage (hkiq message))
  have hsends (message : TaskiqMessage) (hmessage : o = .kiq message) (hdb : w'.db = w.db) :
      ∃ i, message.extractTaskExecutionId = some i ∧ w'.db.OpensFor i := by
    subst hmessage
    obtain ⟨i, hi, hextract⟩ := hallows
    rw [hdb]
    exact ⟨i, hextract, hknows.recorded i hi⟩
  have hsame (hdb : w'.db = w.db) (htxn : w'.txn t = w.txn t) : Inv terms (cs.set t c) w' :=
    h.set hc hstep (hknows.mono htxn hle) (hdb ▸ hown)
      (fun message hmessage => hsends message hmessage hdb)
  cases hstep with
  | opens => exact ⟨_, rfl, hclose (by simp) (by simp)⟩
  | closes => exact ⟨_, rfl, hclose (by simp) (by simp)⟩
  | answers free answers => apply h.answers hc hallows free answers
  | @fails w s =>
      refine ⟨c.close, ?_, hclose (by simp) (by simp)⟩
      cases s with
      | selectExecution i tenantId => rfl
      | selectAttempt filter => rfl
      | updateExecution i changes => rfl
      | insertAttempt row => rfl
      | updateAttempt id d => rfl
  | commits => exact ⟨_, rfl, h.commits hc⟩
  | lost => exact ⟨_, rfl, hclose (by simp) (by simp)⟩
  | applied => exact ⟨_, rfl, hclose (by simp) (by simp)⟩
  | now time => exact ⟨_, rfl, hsame rfl rfl⟩
  | accepts => exact ⟨_, rfl, hsame rfl rfl⟩
  | rejects => exact ⟨_, rfl, hsame rfl rfl⟩
  | emits r => exact ⟨_, rfl, hsame rfl rfl⟩
  | runs => exact ⟨_, rfl, hsame rfl rfl⟩

theorem Inv.release (h : Inv terms cs w) (hc : cs[t]? = some c) :
  Inv terms (cs.set t c.close) (w.release t)
  := by
  have hstep : w.Performs .any t .closeSession () ((w.release t).record t .closeSession () []) :=
    .closes
  have hclose : Knows t c.close ((w.release t).record t .closeSession () []) :=
    (h.knows t c hc).close (by simp) (.refl _)
  have hset := h.set hc hstep hclose (by rintro e ⟨⟩) (by rintro message ⟨⟩)
  exact ⟨hset.terms, hset.audited, hset.txn, fun t' c' hc' => ⟨(hset.knows t' c' hc').own,
    (hset.knows t' c' hc').found, (hset.knows t' c' hc').recorded⟩, hset.idle, h.history⟩

/-- A thread that is new knows nothing. -/
theorem Inv.spawn (h : Inv terms cs w) :
  Inv terms (cs ++ [.initial]) w
  where
  terms := h.terms
  audited := h.audited
  txn := h.txn
  knows := by
    intro t c hc
    rcases Machine.state_of_concat hc with hc | ⟨rfl, rfl⟩
    · apply h.knows t c hc
    · exact ⟨h.idle _ le_rfl, by rintro id ⟨⟩, by rintro i ⟨⟩⟩
  idle := by
    intro t ht
    rw [List.length_append, List.length_singleton] at ht
    apply h.idle t (by omega)
  history := h.history

/-- The workers refine the protocol of the trail. -/
def refinement (terms : UUID → Option (UUID × ℕ)) (faults : Cluster.Faults)
    (sets : TaskStatus → Prop) :
    (workers faults (SpawnsWork sets)).Refinement (protocol terms) where
  final _ := True
  inv := Inv terms
  exec := by
    intro cs w w' t c o r h hc hallows hstep
    apply h.performs hc hallows hstep
  spawn := by
    intro cs w w' p h hspawn
    obtain ⟨rfl, hfollows⟩ := (Hook.works_trail terms sets).follows hspawn trivial
    exact ⟨.initial, hfollows, h.spawn⟩
  crash := by
    rintro cs w w' t c h hc ⟨-, rfl⟩
    exact ⟨c.close, trivial, h.release hc⟩

variable {db : Database} {outcomes : ℕ → Option PyException} {sets : TaskStatus → Prop}
  {c c' : Machine.Config Op.Answer Cluster}

/-- Every reachable configuration of the workers is accounted for. -/
theorem exists_accounts (hdb : db.Audited)
    (hc : (workers faults (SpawnsWork sets)).Reachable { db, outcomes } c) :
  ∃ cs, (refinement db.terms faults sets).Accounts cs c
  := by
  apply Machine.Refinement.reachable _ _ hc
  constructor
  · intro i
    rfl
  · apply hdb
  · rintro t e ⟨⟩
  · rintro t c ⟨⟩
  · intro t _
    rfl
  · rintro e ⟨⟩

/-- The audit goes on over a step of the workers. -/
theorem auditLE_of_step {cs : List Knowledge}
    (h : (refinement terms faults sets).Accounts cs c)
    (hstep : (workers faults (SpawnsWork sets)).Step c c') :
  c.world.db.AuditLE c'.world.db
  := by
  have hinv : Inv terms cs c.world := h.inv
  cases hstep with
  | exec thread exec => apply (hinv.auditLE exec).1
  | spawn spawn =>
      obtain ⟨rfl, -⟩ := (Hook.works_trail terms sets).follows (c := .initial) spawn trivial
      apply Database.AuditLE.refl
  | crash thread crash =>
      obtain ⟨-, rfl⟩ := crash
      apply Database.AuditLE.refl

end Trail

variable {faults : Cluster.Faults} {sets : TaskStatus → Prop} {db : Database}
  {outcomes : ℕ → Option PyException} {c c' : Machine.Config Op.Answer Cluster}

/-- However the work overlaps and whatever fails, every row of the audit fits the execution it is
about, and no two rows have one primary key. -/
theorem audited_of_reachable (hdb : db.Audited)
    (hc : (workers faults (SpawnsWork sets)).Reachable { db, outcomes } c) :
  c.world.db.Audited
  := by
  obtain ⟨cs, h⟩ := Trail.exists_accounts hdb hc
  apply h.inv.audited

namespace Example

/-- A call of `on_error` up to the commit of its pending attempt. -/
def recording : List Turn := [.spawn errorThread, .run 0 9 {}]

/-- The rest of the call. -/
def sending : List Turn := [.run 0 100 {}]

theorem permitted_recording :
  ∀ turn ∈ recording, turn.Permitted .any (SpawnsWork fun _ => True)
  := by
  have hspawn : (Turn.spawn errorThread).Permitted .any (SpawnsWork fun _ => True) :=
    fun _ => .hook settings message _ (.onError exception)
  have hrun (t n : ℕ) : (Turn.run t n {}).Permitted .any (SpawnsWork fun _ => True) :=
    ⟨fun _ => trivial, fun _ => trivial⟩
  simp only [recording, List.forall_mem_cons, List.not_mem_nil]
  exact ⟨hspawn, hrun _ _, by simp⟩

theorem permitted_sending : ∀ turn ∈ sending, turn.Permitted .any (SpawnsWork fun _ => True) := by
  rintro turn hturn
  obtain rfl := List.mem_singleton.mp hturn
  exact ⟨fun _ => trivial, fun _ => trivial⟩

end Example

/-- The audit of an execution that is retried fits the execution. -/
theorem audited_of_reachable_retried :
  ∃ c, (workers .any (SpawnsWork fun _ => True)).Reachable (Example.cluster 0 1) c ∧
    c.world.db.attempts.length = 1 ∧ c.world.db.Audited
  := by
  obtain ⟨c, hc, hlength⟩ := Turn.exists_reachable Example.permitted_recording
    (w := Example.cluster 0 1) (p := fun c => decide (c.world.db.attempts.length = 1))
    (by decide +kernel)
  exact ⟨c, hc, of_decide_eq_true hlength, audited_of_reachable (Database.audited_of_nil rfl) hc⟩

/-- The audit is append-only: whatever the workers do, and however their work is interleaved and
fails, a row stays where it is and as it is, but for a pending one that is marked as
dispatched. -/
theorem auditLE_of_reaches (hdb : db.Audited)
    (hc : (workers faults (SpawnsWork sets)).Reachable { db, outcomes } c)
    (hc' : Relation.ReflTransGen (workers faults (SpawnsWork sets)).Step c c') :
  c.world.db.AuditLE c'.world.db
  := by
  induction hc' with
  | refl => apply Database.AuditLE.refl
  | tail hreach hstep ih =>
      obtain ⟨cs, h⟩ := Trail.exists_accounts hdb (hc.trans hreach)
      apply ih.trans (Trail.auditLE_of_step h hstep)

/-- The audit goes on while an attempt is sent that was recorded as pending. -/
theorem auditLE_of_reaches_sent :
  ∃ c c', (workers .any (SpawnsWork fun _ => True)).Reachable (Example.cluster 0 1) c ∧
    Relation.ReflTransGen (workers .any (SpawnsWork fun _ => True)).Step c c' ∧
    (c.world.db.attempts.map (·.dispatchResult) = [.pending] ∧
      c'.world.db.attempts.map (·.dispatchResult) = [.dispatched]) ∧
    c.world.db.AuditLE c'.world.db
  := by
  obtain ⟨c, c', hc, hc', hresults⟩ := Turn.exists_reachable_reaches Example.permitted_recording
    Example.permitted_sending (w := Example.cluster 0 1)
    (p := fun c c' => decide (c.world.db.attempts.map (·.dispatchResult) = [.pending] ∧
      c'.world.db.attempts.map (·.dispatchResult) = [.dispatched]))
    (by decide +kernel)
  exact ⟨c, c', hc, hc', of_decide_eq_true hresults,
    auditLE_of_reaches (Database.audited_of_nil rfl) hc hc'⟩

/-- No message is sent before its attempt is on the audit: in every reachable state, a message
that was offered to the broker is one of an execution with an open attempt that is committed. -/
theorem opensFor_of_sends (hdb : db.Audited)
    (hc : (workers faults (SpawnsWork sets)).Reachable { db, outcomes } c) {e : Entry}
    (he : e ∈ c.world.history) {message : TaskiqMessage} (hmessage : e.sends = some message) :
  ∃ i, message.extractTaskExecutionId = some i ∧ c.world.db.OpensFor i
  := by
  obtain ⟨cs, h⟩ := Trail.exists_accounts hdb hc
  apply h.inv.history e he message hmessage

/-- A message of a retried execution is sent for an attempt that is committed. -/
theorem opensFor_of_sends_retried :
  ∃ c, (workers .any (SpawnsWork fun _ => True)).Reachable (Example.cluster 0 1) c ∧
    ∃ e ∈ c.world.history, ∃ message, e.sends = some message ∧
      ∃ i, message.extractTaskExecutionId = some i ∧ c.world.db.OpensFor i
  := by
  obtain ⟨c, c', hc, hc', hsent⟩ := Turn.exists_reachable_reaches Example.permitted_recording
    Example.permitted_sending (w := Example.cluster 0 1)
    (p := fun _ c' => c'.world.history.any (fun e => e.sends.isSome))
    (by decide +kernel)
  obtain ⟨e, he, hsome⟩ := List.any_eq_true.mp hsent
  obtain ⟨message, hmessage⟩ := Option.isSome_iff_exists.mp hsome
  exact ⟨c', hc.trans hc', e, he, message, hmessage,
    opensFor_of_sends (Database.audited_of_nil rfl) (hc.trans hc') he hmessage⟩

end WorkerTemplate
