import WorkerTemplate.Concurrent.Increments.Decisions

/-!
# Increments of the retry count

An error hook that decides to retry raises the retry count it has loaded, and nothing keeps
another hook from committing its own decision in between.  The count is the number of
decisions exactly when every hook that decided to retry had read the count after all the
decisions committed before its own.
-/

namespace WorkerTemplate

namespace Increments

variable {i : UUID} {n₀ t : ℕ} {c : State} {cs : List State} {w w' : Cluster}

/-- A commit of a decision to retry raises the retry count to what the decisions make it, or
leaves it below. -/
theorem Inv.commit_recorded (h : Inv i n₀ cs w) (hc : cs[t]? = some c) {pending : Option ℕ}
    (hstage : c.stage = .recorded pending) :
  Inv i n₀ (cs.set t c.commit) ((w.commit t).record t .commit (.ok ()) (w.txn t))
  := by
  have hdoes := h.does t c hc
  have hrecorded := hdoes.stage
  rw [hstage] at hrecorded
  obtain ⟨hundecided, hany, ⟨b, hb, hraises⟩, hrows⟩ := hrecorded
  obtain ⟨k, hk, hle, hcount, hcurrent⟩ := hdoes.read b hb
  have hnew : t ∉ decisions i w.history := hdoes.decided hundecided
  have hcommit : c.commit = { c with stage := .idle, decided := true, pending } := by
    simp [State.commit, hstage]
  have hdecides : Entry.decides i
      { thread := t, op := .commit, answer := .ok (), effects := w.txn t } = true := hany
  have hdecisions : decisions i ((w.commit t).record t .commit (.ok ()) (w.txn t)).history
      = t :: decisions i w.history := decisions_cons_of_decides hdecides w.history
  have hpending : ∀ n, HasPending i n w.db → HasPending i n (w.view t) :=
    fun n hn => hn.view (h.marks t)
  constructor
  · obtain ⟨row, hrow, -⟩ := h.count
    obtain ⟨row', hrow', hcount'⟩ := retryCount_view hrow (w.txn t)
    have hraised : row'.retryCount = b + 1 := by
      rw [hcount', hraises]
      rfl
    have hupToDate : UpToDate i ((w.commit t).record t .commit (.ok ()) (w.txn t)).history
        ↔ k = (decisions i w.history).length ∧ UpToDate i w.history := by
      change (_ → readAfter i t w.history = _) ∧ UpToDate i w.history ↔ _
      rw [hk, Option.some_inj]
      apply and_congr_left' ⟨fun heq => heq hdecides, fun heq _ => heq⟩
    refine ⟨row', hrow', ?_, ?_⟩
    · rw [hraised, hdecisions, List.length_cons]
      omega
    · rw [hraised, hdecisions, List.length_cons, hupToDate]
      constructor
      · intro heq
        have hkn : k = (decisions i w.history).length := by omega
        exact ⟨hkn, (hcurrent hkn).mp (by omega)⟩
      · rintro ⟨hkn, huptodate⟩
        have hbk := (hcurrent hkn).mpr huptodate
        omega
  · rw [hdecisions]
    apply List.nodup_cons.mpr ⟨hnew, h.nodup⟩
  · intro t' e he
    simp only [Cluster.txn_record, Cluster.txn_commit, Function.update_apply] at he
    split at he
    · cases he
    · apply h.marks t' e he
  · intro t' c' hc'
    rcases Machine.state_of_set hc' with ⟨rfl, rfl⟩ | ⟨hne, hc'⟩
    · rw [hcommit]
      constructor
      · rintro ⟨⟩
      · intro n hn
        obtain ⟨row, hmem, hholds⟩ := hrows n hn
        apply hasPending_view_of_mem hmem hholds (h.marks t')
      · simp [AtStage, raises]
      · intro hnone
        cases hnone.symm.trans hb
      · intro b' hb'
        obtain ⟨rfl⟩ := hb.symm.trans hb'
        refine ⟨k, ?_, ?_, hcount, ?_⟩
        · simp [readAfter, hk]
        · rw [hdecisions, List.length_cons]
          omega
        · rw [hdecisions, List.length_cons]
          omega
    · apply (h.does t' c' hc').of_decides rfl hdecides (Ne.symm hne) (by simp [hne]) hpending
  · intro t' ht'
    rw [List.length_set] at ht'
    have hlt : t < cs.length := (List.getElem?_eq_some_iff.mp hc).1
    have hne : t' ≠ t := by omega
    obtain ⟨hidle, hread, hundecided'⟩ := h.idle t' ht'
    refine ⟨?_, ?_, ?_⟩
    · simpa [hne] using hidle
    · rw [Cluster.history_record, Cluster.history_commit, readAfter_cons_of_ne (Ne.symm hne)]
      apply hread
    · rw [hdecisions, List.mem_cons, not_or]
      exact ⟨hne, hundecided'⟩

/-- The invariant is kept by an operation that commits nothing. -/
theorem Inv.of_same_db (h : Inv i n₀ cs w) (hc : cs[t]? = some c) {c' : State} {e : Entry}
    (hhistory : w'.history = e :: w.history) (he : e.effects = []) (ht : e.thread = t)
    (hdb : w'.db = w.db) (htxn : ∀ t', t' ≠ t → w'.txn t' = w.txn t')
    (hmarks : ∀ e ∈ w'.txn t, Marks e) (hdoes : Does i n₀ t c' w') :
  Inv i n₀ (cs.set t c') w'
  := by
  have hdecides : e.decides i = false := by simp [Entry.decides, he]
  apply h.of_not_decides hc hhistory hdecides ht _ _ htxn hmarks hdoes
  · intro row hrow
    exact ⟨row, by rw [hdb, hrow], rfl⟩
  · intro n hn
    rwa [hdb]

/-- The end of a transaction that commits nothing keeps the invariant. -/
theorem Inv.of_release (h : Inv i n₀ cs w) (hc : cs[t]? = some c) {c' : State} {e : Entry}
    (hhistory : w'.history = e :: w.history) (he : e.effects = []) (ht : e.thread = t)
    (hdb : w'.db = w.db) (htxn : w'.txn = Function.update w.txn t []) (hdoes : Does i n₀ t c' w') :
  Inv i n₀ (cs.set t c') w'
  := by
  apply h.of_same_db hc hhistory he ht hdb _ _ hdoes
  · intro t' hne
    simp [htxn, hne]
  · simp [htxn]

/-- An operation outside of the database keeps the invariant. -/
theorem Inv.of_outside (h : Inv i n₀ cs w) (hc : cs[t]? = some c) {e : Entry}
    (hhistory : w'.history = e :: w.history) (he : e.effects = []) (ht : e.thread = t)
    (hread : readAfter i t (e :: w.history) = readAfter i t w.history)
    (hdb : w'.db = w.db) (htxn : w'.txn = w.txn) :
  Inv i n₀ (cs.set t c) w'
  := by
  have hdecides : e.decides i = false := by simp [Entry.decides, he]
  have hdoes := h.does t c hc
  apply h.of_same_db hc hhistory he ht hdb
  · intro t' _
    rw [htxn]
  · rw [htxn]
    apply h.marks
  · refine hdoes.keep hhistory hdecides hread ?_ rfl rfl rfl ?_
    · intro n hn
      rwa [hdb]
    · rw [htxn]
      apply hdoes.stage

/-- A commit that decides nothing keeps the invariant. -/
theorem Inv.commit_idle (h : Inv i n₀ cs w) (hc : cs[t]? = some c) (hstage : c.stage = .idle) :
  Inv i n₀ (cs.set t c) ((w.commit t).record t .commit (.ok ()) (w.txn t))
  := by
  have hdoes := h.does t c hc
  have hidle := hdoes.stage
  rw [hstage] at hidle
  obtain ⟨hraises, hany⟩ := hidle
  have hpending : ∀ n, HasPending i n w.db → HasPending i n (w.view t) :=
    fun n hn => hn.view (h.marks t)
  refine h.of_not_decides hc rfl hany rfl ?_ hpending ?_ ?_ ?_
  · intro row hrow
    obtain ⟨row', hrow', hcount⟩ := retryCount_view hrow (w.txn t)
    rw [hraises] at hcount
    exact ⟨row', hrow', hcount⟩
  · intro t' hne
    simp [hne]
  · simp
  · refine hdoes.keep rfl hany (by simp [readAfter]) hpending rfl rfl rfl ?_
    rw [hstage]
    simp [AtStage, raises]

/-- An operation that the protocol allows keeps the invariant, when nothing fails. -/
theorem Inv.performs (h : Inv i n₀ cs w) (hc : cs[t]? = some c) {faults : Cluster.Faults}
    (hfaults : ¬ faults.failures) {o : Op} {r : o.Answer} (hallows : (protocol i).allows c o)
    (hstep : w.Performs faults t o r w') :
  (protocol i).moves c o r (c.next o r) ∧ Inv i n₀ (cs.set t (c.next o r)) w'
  := by
  have hdoes := h.does t c hc
  cases hstep with
  | fails failures => exact absurd failures hfaults
  | lost failures => exact absurd failures hfaults
  | applied failures => exact absurd failures hfaults
  | @answers w s r free answers =>
      use h.moves_answers hdoes hallows answers
      refine h.of_same_db hc rfl rfl rfl rfl ?_ ?_ (h.does_answers hdoes hallows answers)
      · intro t' hne
        simp [hne]
      · intro e he
        simp only [Cluster.txn_record, Cluster.txn_push, Function.update_self,
          List.mem_append] at he
        rcases he with he | he
        · apply h.marks t e he
        · rintro id d rfl
          cases s with
          | selectExecution j tenantId => simp [Statement.effects] at he
          | selectAttempt filter => simp [Statement.effects] at he
          | updateExecution j changes => simp [Statement.effects] at he
          | insertAttempt row => simp [Statement.effects] at he
          | updateAttempt id' d' =>
              simp only [Statement.effects, List.mem_singleton, Effect.updateAttempt.injEq] at he
              rw [he.2]
              apply hallows
  | commits =>
      use ⟨rfl, trivial⟩
      cases hstage : c.stage with
      | raised => exact absurd hstage hallows
      | recorded pending => apply h.commit_recorded hc hstage
      | idle =>
          change Inv i n₀ (cs.set t c.commit) _
          rw [Hook.commit_of_idle hstage]
          apply h.commit_idle hc hstage
  | opens =>
      use ⟨rfl, trivial⟩
      refine h.of_release hc rfl rfl rfl rfl rfl ?_
      constructor
      · apply hdoes.decided
      · apply hdoes.pending
      · simp [State.next, AtStage, raises]
      · simp [readAfter]
      · rintro b ⟨⟩
  | closes =>
      use ⟨rfl, trivial⟩
      refine h.of_release hc rfl rfl rfl rfl rfl ?_
      refine hdoes.keep rfl rfl (by simp [readAfter]) (fun _ hn => hn) rfl rfl rfl ?_
      simp [State.next, AtStage, raises]
  | now time => exact ⟨⟨rfl, trivial⟩, h.of_outside hc rfl rfl rfl (by simp [readAfter]) rfl rfl⟩
  | accepts => exact ⟨⟨rfl, trivial⟩, h.of_outside hc rfl rfl rfl (by simp [readAfter]) rfl rfl⟩
  | rejects => exact ⟨⟨rfl, trivial⟩, h.of_outside hc rfl rfl rfl (by simp [readAfter]) rfl rfl⟩
  | emits r => exact ⟨⟨rfl, trivial⟩, h.of_outside hc rfl rfl rfl (by simp [readAfter]) rfl rfl⟩
  | runs => exact ⟨⟨rfl, trivial⟩, h.of_outside hc rfl rfl rfl (by simp [readAfter]) rfl rfl⟩

/-- A crash takes back the open transaction of a thread. -/
theorem Inv.crash (h : Inv i n₀ cs w) (hc : cs[t]? = some c) :
  Inv i n₀ (cs.set t { c with stage := .idle }) (w.release t)
  where
  count := h.count
  nodup := h.nodup
  marks := by
    intro t' e he
    rw [Cluster.txn_release, Function.update_apply] at he
    split at he
    · cases he
    · apply h.marks t' e he
  does := by
    intro t' c' hc'
    rcases Machine.state_of_set hc' with ⟨rfl, rfl⟩ | ⟨hne, hc'⟩
    · have hdoes := h.does t' c hc
      exact ⟨hdoes.decided, hdoes.pending, by simp [AtStage, raises], hdoes.unread, hdoes.read⟩
    · have hdoes := h.does t' c' hc'
      refine ⟨hdoes.decided, hdoes.pending, ?_, hdoes.unread, hdoes.read⟩
      rw [Cluster.txn_release, Function.update_of_ne hne]
      apply hdoes.stage
  idle := by
    intro t' ht'
    rw [List.length_set] at ht'
    obtain ⟨hidle, hread, hundecided⟩ := h.idle t' ht'
    refine ⟨?_, hread, hundecided⟩
    rw [Cluster.txn_release, Function.update_apply]
    split
    · rfl
    · apply hidle

/-- A new thread has not decided anything. -/
theorem Inv.spawn (h : Inv i n₀ cs w) :
  Inv i n₀ (cs ++ [{ loaded := none }]) w
  where
  count := h.count
  nodup := h.nodup
  marks := h.marks
  does := by
    intro t c hc
    rcases Machine.state_of_concat hc with hc | ⟨rfl, rfl⟩
    · apply h.does t c hc
    · obtain ⟨hidle, hread, hundecided⟩ := h.idle cs.length (Nat.le_refl _)
      refine ⟨fun _ => hundecided, ?_, ?_, fun _ => hread, ?_⟩
      · rintro n ⟨⟩
      · simp [hidle, AtStage, raises]
      · rintro b ⟨⟩
  idle := by
    intro t ht
    apply h.idle t
    rw [List.length_append] at ht
    omega

/-- Workers that call `on_error` for an execution refine the protocol of the increments, when
nothing fails. -/
def refinement (i : UUID) (n₀ : ℕ) (faults : Cluster.Faults) (hfaults : ¬ faults.failures) :
    (workers faults (SpawnsOnError i)).Refinement (protocol i) where
  final _ := True
  inv := Inv i n₀
  exec := by
    intro cs w w' t c o r h hc hallows hstep
    use c.next o r
    apply h.performs hc hfaults hallows hstep
  spawn := by
    rintro cs w w' p h ⟨settings, message, result, exception, hid⟩
    refine ⟨{ loaded := none }, ?_, h.spawn⟩
    apply Hook.follows_thread
    apply Hook.obeys_onError_increments settings exception hid rfl
  crash := by
    rintro cs w w' t c h hc ⟨-, rfl⟩
    exact ⟨_, trivial, h.crash hc⟩

end Increments

/-- The retry count of an execution is at most what the committed decisions to retry make it.
It is exactly that when every decision was made about a count read after the decisions
before, and then it never decreases. -/
theorem retryCount_eq_iff_upToDate {i : UUID} {row : TaskExecution} {db : Database}
    {outcomes : ℕ → Option PyException} {faults : Cluster.Faults}
    {c : Machine.Config Op.Answer Cluster} (hrow : db.execution? i = some row)
    (hfaults : ¬ faults.failures)
    (hc : (workers faults (SpawnsOnError i)).Reachable { db, outcomes } c) :
  (decisions i c.world.history).Nodup ∧ ∃ row', c.world.db.execution? i = some row' ∧
    row'.retryCount ≤ row.retryCount + (decisions i c.world.history).length ∧
    (row'.retryCount = row.retryCount + (decisions i c.world.history).length
      ↔ UpToDate i c.world.history) ∧
    ∀ c', Relation.ReflTransGen (workers faults (SpawnsOnError i)).Step c c' →
      UpToDate i c'.world.history →
        ∃ row'', c'.world.db.execution? i = some row'' ∧ row'.retryCount ≤ row''.retryCount
  := by
  have hinit : Increments.Inv i row.retryCount [] { db, outcomes } := by
    constructor
    · exact ⟨row, hrow, le_rfl, iff_of_true rfl trivial⟩
    · apply List.nodup_nil
    · rintro t e ⟨⟩
    · rintro t c ⟨⟩
    · intro t _
      exact ⟨rfl, rfl, by simp [decisions]⟩
  have hreach {c : Machine.Config Op.Answer Cluster}
      (hc : (workers faults (SpawnsOnError i)).Reachable { db, outcomes } c) :
      ∃ cs, Increments.Inv i row.retryCount cs c.world := by
    obtain ⟨cs, haccounts⟩ :=
      (Increments.refinement i row.retryCount faults hfaults).reachable hinit hc
    exact ⟨cs, haccounts.inv⟩
  obtain ⟨cs, hinv⟩ := hreach hc
  obtain ⟨row', hrow', hle, hiff⟩ := hinv.count
  refine ⟨hinv.nodup, row', hrow', hle, hiff, ?_⟩
  intro c' hc' hupToDate
  obtain ⟨cs', hinv'⟩ := hreach (hc.trans hc')
  obtain ⟨row'', hrow'', -, hiff'⟩ := hinv'.count
  obtain ⟨es, hes⟩ := history_of_reaches (by rintro _ _ _ ⟨⟩; rfl) hc'
  refine ⟨row'', hrow'', ?_⟩
  rw [hiff'.mpr hupToDate, hes]
  have hlength : (decisions i c.world.history).length
      ≤ (decisions i (es ++ c.world.history)).length := by
    simp [decisions]
  omega

namespace Example

theorem permitted_errorThread :
  (Turn.spawn errorThread).Permitted calm (SpawnsOnError taskExecutionId)
  := fun _ => .onError settings message _ exception rfl

theorem permitted_run (t n : ℕ) :
  (Turn.run t n {}).Permitted calm (SpawnsOnError taskExecutionId)
  := ⟨by simp, by simp⟩

end Example

/-- Two errors one after the other are counted. -/
theorem retryCount_of_consecutive :
  ∃ c, (workers Example.calm (SpawnsOnError Example.taskExecutionId)).Reachable
      (Example.cluster 0 3) c ∧
    ∃ row, c.world.db.execution? Example.taskExecutionId = some row ∧ row.retryCount = 2
  := by
  have hpermitted : ∀ turn ∈ Example.consecutive,
      turn.Permitted Example.calm (SpawnsOnError Example.taskExecutionId) := by
    simp only [Example.consecutive, List.forall_mem_cons, List.not_mem_nil]
    exact ⟨Example.permitted_errorThread, Example.permitted_run _ _, Example.permitted_errorThread,
      Example.permitted_run _ _, by simp⟩
  obtain ⟨c, hc, hupToDate⟩ := Turn.exists_reachable hpermitted (w := Example.cluster 0 3)
    (p := fun c => decide ((decisions Example.taskExecutionId c.world.history).length = 2 ∧
      UpToDate Example.taskExecutionId c.world.history)) (by rfl)
  obtain ⟨hlength, hupToDate⟩ := of_decide_eq_true hupToDate
  have hfound : (Example.cluster 0 3).db.execution? Example.taskExecutionId
      = some (Example.row 0 3) := rfl
  obtain ⟨-, row, hrow, -, hiff, -⟩ := retryCount_eq_iff_upToDate hfound id hc
  refine ⟨c, hc, row, hrow, ?_⟩
  rw [hiff.mpr hupToDate, hlength]
  rfl

/-- The decision of an error hook is lost when another hook commits its own between the
reading and the writing of the count. -/
theorem exists_reachable_lost_increment :
  ∃ c, (workers Example.calm (SpawnsOnError Example.taskExecutionId)).Reachable
      (Example.cluster 0 3) c ∧
    (∀ p ∈ c.threads, p.hasReturned = true) ∧
    (c.world.db.execution? Example.taskExecutionId).map (·.retryCount)
      ≠ some (0 + (decisions Example.taskExecutionId c.world.history).length)
  := by
  have hpermitted : ∀ turn ∈ Example.overlapping,
      turn.Permitted Example.calm (SpawnsOnError Example.taskExecutionId) := by
    simp only [Example.overlapping, List.forall_mem_cons, List.not_mem_nil]
    exact ⟨Example.permitted_errorThread, Example.permitted_run _ _, Example.permitted_errorThread,
      Example.permitted_run _ _, Example.permitted_run _ _, by simp⟩
  obtain ⟨c, hc, hlost⟩ := Turn.exists_reachable hpermitted (w := Example.cluster 0 3)
    (p := fun c => decide ((∀ p ∈ c.threads, p.hasReturned = true) ∧
      (c.world.db.execution? Example.taskExecutionId).map (·.retryCount)
        ≠ some (0 + (decisions Example.taskExecutionId c.world.history).length))) (by rfl)
  exact ⟨c, hc, of_decide_eq_true hlost⟩

end WorkerTemplate
