import WorkerTemplate.Concurrent.Telling.Errors

/-!
# Events that tell the truth

No event announces a status that its execution never had, however the sessions of many workers
overlap, and whatever fails.
-/

namespace WorkerTemplate

open Statuses

namespace Telling

variable {i : UUID} {first : TaskStatus} {cs : List Knowledge} {c c' : Knowledge} {w w' : Cluster}
  {t : ℕ} {faults : Cluster.Faults} {o : Op} {r : o.Answer}

/-- Every event about an execution announces a status that the execution has had before. -/
def Truthful (i : UUID) (first : TaskStatus) (h : List Entry) : Prop :=
  ∀ e earlier, e :: earlier <:+ h → ∀ room event, e.op = .emit room event → event.taskId = i →
    ∃ status ∈ statuses i first earlier, status.value = event.status

/-- What a thread knows is so. -/
structure Knows (i : UUID) (first : TaskStatus) (t : ℕ) (c : Knowledge) (w : Cluster) : Prop where
  own : wrote i (w.txn t) = c.own
  held : ∀ status ∈ c.held, status ∈ statuses i first w.history

/-- The row has the last one of its statuses, and the events so far told the truth. -/
structure Inv (i : UUID) (first : TaskStatus) (cs : List Knowledge) (w : Cluster) : Prop where
  row : ∃ row, w.db.execution? i = some row ∧
    (statuses i first w.history).head? = some row.status
  told : Truthful i first w.history
  knows : ∀ t c, cs[t]? = some c → Knows i first t c w
  idle : ∀ t, cs.length ≤ t → w.txn t = []

/-- A past that is true stays true, and an event may be told when it is true. -/
theorem Truthful.cons {h : List Entry} {e : Entry} (htold : Truthful i first h)
    (he : ∀ room event, e.op = .emit room event → event.taskId = i →
      ∃ status ∈ statuses i first h, status.value = event.status) :
  Truthful i first (e :: h)
  := by
  intro e' earlier hsuffix
  rcases List.suffix_cons_iff.mp hsuffix with heq | hsuffix
  · cases heq
    apply he
  · apply htold e' earlier hsuffix

/-- The row has the last one of its statuses after a step, and what has happened stays. -/
theorem Inv.row_of_performs (h : Inv i first cs w) (hstep : w.Performs faults t o r w') :
  (∃ row, w'.db.execution? i = some row ∧
      (statuses i first w'.history).head? = some row.status) ∧ w.history <:+ w'.history
  := by
  obtain ⟨row, hrow, hlast⟩ := h.row
  obtain ⟨es, hhistory, hdb⟩ := hstep.remembered
  rw [hhistory]
  refine ⟨?_, List.suffix_cons _ _⟩
  rcases hdb with ⟨rfl, hdb⟩ | ⟨-, rfl, hdb⟩
  · rw [hdb]
    exact ⟨row, hrow, hlast⟩
  · have hview := status_view (i := i) w.db (w.txn t)
    rw [hrow, Option.map_some, Option.map_eq_some_iff] at hview
    obtain ⟨row', hrow', hstatus⟩ := hview
    rw [hdb]
    use row', hrow'
    rw [hstatus, statuses]
    cases wrote i (w.txn t) with
    | none => apply hlast
    | some status => rfl

theorem Knows.mono (h : Knows i first t c w) (hown : w'.txn t = w.txn t)
    (hsuffix : w.history <:+ w'.history) :
  Knows i first t c w'
  where
  own := hown ▸ h.own
  held status hstatus := (statuses_suffix hsuffix).subset (h.held status hstatus)

theorem Knows.close (h : Knows i first t c w) (hown : w'.txn t = [])
    (hsuffix : w.history <:+ w'.history) :
  Knows i first t c.close w'
  where
  own := by rw [hown]; rfl
  held status hstatus := (statuses_suffix hsuffix).subset (h.held status hstatus)

/-- An operation keeps the invariant when what its thread knows after it is so, and the operation
is no event that is not true. -/
theorem Inv.set (h : Inv i first cs w) (hc : cs[t]? = some c)
    (hstep : w.Performs faults t o r w') (hallows : (protocol i).allows c o)
    (hknows : Knows i first t c' w') :
  Inv i first (cs.set t c') w'
  := by
  obtain ⟨hrow, hsuffix⟩ := h.row_of_performs hstep
  constructor
  · apply hrow
  · obtain ⟨es, hhistory, -⟩ := hstep.remembered
    rw [hhistory]
    apply h.told.cons
    rintro room event rfl hi
    obtain ⟨status, hstatus, hvalue⟩ := hallows hi
    exact ⟨status, (h.knows t c hc).held status hstatus, hvalue⟩
  · intro t' c₁ hc₁
    rcases Machine.state_of_set hc₁ with ⟨rfl, rfl⟩ | ⟨hne, hc₁⟩
    · apply hknows
    · apply (h.knows t' c₁ hc₁).mono (hstep.txn_of_ne hne) hsuffix
  · intro t' ht'
    have ht : t < cs.length := (List.getElem?_eq_some_iff.mp hc).1
    rw [List.length_set] at ht'
    rw [hstep.txn_of_ne (by omega)]
    apply h.idle t' ht'

/-- What a transaction reads of the execution is what it gave it, or what is committed. -/
theorem Inv.reads (h : Inv i first cs w) (hc : cs[t]? = some c) :
  ∃ row, (w.view t).execution? i = some row ∧ (∀ status ∈ c.own, row.status = status) ∧
    (c.own = none → row.status ∈ statuses i first w.history)
  := by
  obtain ⟨row, hrow, hlast⟩ := h.row
  have hview := status_view (i := i) w.db (w.txn t)
  rw [hrow, Option.map_some, Option.map_eq_some_iff, (h.knows t c hc).own] at hview
  obtain ⟨row', hrow', hstatus⟩ := hview
  use row', hrow'
  rw [hstatus]
  constructor
  · intro status hown
    rw [Option.mem_def.mp hown]
    rfl
  · intro hown
    rw [hown]
    apply List.mem_of_mem_head? hlast

/-- A statement that is answered moves what its thread knows as the protocol says. -/
theorem Inv.answers (h : Inv i first cs w) (hc : cs[t]? = some c) {s : Statement} {r : s.Answer}
    (hfree : ¬ w.Blocked t s) (hanswers : (w.view t).Answers s r) :
  ∃ c', (protocol i).moves c (.statement s) (.ok r) c' ∧
    Inv i first (cs.set t c') ((w.push t s).record t (.statement s) (.ok r) [])
  := by
  have hstep : w.Performs .any t (.statement s) (.ok r)
      ((w.push t s).record t (.statement s) (.ok r) []) := .answers hfree hanswers
  have hknows := h.knows t c hc
  have hset {c' : Knowledge} (hown : c'.own = (wrote i s.effects).or c.own)
      (hheld : ∀ status ∈ c'.held, status ∈ statuses i first w.history) :
      Inv i first (cs.set t c') ((w.push t s).record t (.statement s) (.ok r) []) := by
    apply h.set hc hstep trivial
    constructor
    · simp only [Cluster.txn_record, Cluster.txn_push, Function.update_self]
      rw [wrote_append, hknows.own, hown]
    · apply hheld
  have hwrite : Inv i first (cs.set t (c.write i s.effects))
      ((w.push t s).record t (.statement s) (.ok r) []) := hset rfl hknows.held
  cases s with
  | selectAttempt filter => exact ⟨_, rfl, hwrite⟩
  | insertAttempt row => exact ⟨_, rfl, hwrite⟩
  | updateAttempt id d => exact ⟨_, rfl, hwrite⟩
  | updateExecution j changes => exact ⟨_, rfl, hwrite⟩
  | selectExecution j tenantId =>
      obtain ⟨row', hrow', hown, hread⟩ := h.reads hc
      have hanswer : r = (w.view t).answer (.selectExecution j tenantId) := hanswers
      cases r with
      | none =>
          refine ⟨c, ⟨?_, rfl⟩, hset rfl hknows.held⟩
          rintro rfl rfl
          cases hrow'.symm.trans hanswer.symm
      | some row =>
          have hrow : (w.view t).execution? j = some row := by
            cases tenantId with
            | none => apply hanswer.symm
            | some tenantId => apply (Option.filter_eq_some_iff.mp hanswer.symm).1
          have hid : row.id = j := Database.id_of_execution? hrow
          refine ⟨c.read i row, ⟨hid, rfl, ?_⟩, hset (c.own_read row) ?_⟩
          · rintro rfl
            cases hrow'.symm.trans hrow
            apply hown
          · intro status hstatus
            rw [Knowledge.read] at hstatus
            split at hstatus
            case isTrue hc' =>
              obtain ⟨rfl, hnone⟩ := hc'
              subst hid
              cases hrow'.symm.trans hrow
              rcases List.mem_cons.mp hstatus with rfl | hstatus
              · apply hread hnone
              · apply hknows.held status hstatus
            case isFalse => apply hknows.held status hstatus

/-- An operation that the protocol allows keeps the invariant, and moves what its thread knows as
the protocol says. -/
theorem Inv.performs (h : Inv i first cs w) (hc : cs[t]? = some c)
    (hallows : (protocol i).allows c o) (hstep : w.Performs faults t o r w') :
  ∃ c', (protocol i).moves c o r c' ∧ Inv i first (cs.set t c') w'
  := by
  have hknows := h.knows t c hc
  have hsuffix := (h.row_of_performs hstep).2
  have hclose (htxn : w'.txn t = []) : Inv i first (cs.set t c.close) w' :=
    h.set hc hstep hallows (hknows.close htxn hsuffix)
  have hsame (htxn : w'.txn t = w.txn t) : Inv i first (cs.set t c) w' :=
    h.set hc hstep hallows (hknows.mono htxn hsuffix)
  have hsettle (htxn : w'.txn t = [])
      (hown : ∀ status ∈ c.own, status ∈ statuses i first w'.history) :
      Inv i first (cs.set t c.settle) w' := by
    apply h.set hc hstep hallows
    constructor
    · rw [htxn]
      rfl
    · intro status hstatus
      rcases List.mem_append.mp hstatus with hstatus | hstatus
      · apply hown status (Option.mem_toList.mp hstatus)
      · apply (statuses_suffix hsuffix).subset (hknows.held status hstatus)
  cases hstep with
  | opens => exact ⟨_, rfl, hclose (by simp)⟩
  | closes => exact ⟨_, rfl, hclose (by simp)⟩
  | answers free answers => apply h.answers hc free answers
  | @fails w s =>
      refine ⟨c.close, ?_, hclose (by simp)⟩
      cases s with
      | selectExecution j tenantId => rfl
      | selectAttempt filter => rfl
      | updateExecution j changes => rfl
      | insertAttempt row => rfl
      | updateAttempt id d => rfl
  | commits =>
      refine ⟨c.settle, rfl, hsettle (by simp) ?_⟩
      intro status hown
      rw [Cluster.history_record, statuses, hknows.own]
      apply List.mem_append_left _ (Option.mem_toList.mpr hown)
  | lost => exact ⟨_, rfl, hclose (by simp)⟩
  | applied => exact ⟨_, rfl, hclose (by simp)⟩
  | now time => exact ⟨_, rfl, hsame rfl⟩
  | accepts => exact ⟨_, rfl, hsame rfl⟩
  | rejects => exact ⟨_, rfl, hsame rfl⟩
  | emits r => exact ⟨_, rfl, hsame rfl⟩
  | runs => exact ⟨_, rfl, hsame rfl⟩

theorem Inv.release (h : Inv i first cs w) (hc : cs[t]? = some c) :
  Inv i first (cs.set t c.close) (w.release t)
  where
  row := h.row
  told := h.told
  knows t' c₁ hc₁ := by
    have hsuffix : w.history <:+ (w.release t).history := List.suffix_rfl
    rcases Machine.state_of_set hc₁ with ⟨rfl, rfl⟩ | ⟨hne, hc₁⟩
    · apply (h.knows t' c hc).close (by simp) hsuffix
    · apply (h.knows t' c₁ hc₁).mono (by simp [hne]) hsuffix
  idle t' ht' := by
    have ht : t < cs.length := (List.getElem?_eq_some_iff.mp hc).1
    rw [List.length_set] at ht'
    rw [Cluster.txn_release, Function.update_of_ne (by omega)]
    apply h.idle t' ht'

/-- A thread that is new knows nothing. -/
theorem Inv.spawn (h : Inv i first cs w) :
  Inv i first (cs ++ [.initial]) w
  where
  row := h.row
  told := h.told
  knows t c hc := by
    rcases Machine.state_of_concat hc with hc | ⟨rfl, rfl⟩
    · apply h.knows t c hc
    · constructor
      · rw [h.idle _ le_rfl]
        rfl
      · rintro status ⟨⟩
  idle t ht := by
    rw [List.length_append, List.length_singleton] at ht
    apply h.idle t (by omega)

/-- The workers refine the protocol of the events of an execution. -/
def refinement (i : UUID) (first : TaskStatus) (faults : Cluster.Faults) :
    (workers faults (SpawnsWork (fun _ => True))).Refinement (protocol i) where
  final _ := True
  inv := Inv i first
  exec := by
    intro cs w w' t c o r h hc hallows hstep
    apply h.performs hc hallows hstep
  spawn := by
    intro cs w w' p h hspawn
    obtain ⟨rfl, hfollows⟩ := (Hook.works_telling i).follows hspawn (c := .initial) trivial
    exact ⟨.initial, hfollows, h.spawn⟩
  crash := by
    rintro cs w w' t c h hc ⟨-, rfl⟩
    exact ⟨c.close, trivial, h.release hc⟩

end Telling

/-- Every event about an execution announces a status that its row had before the event, however
the work overlaps, and whatever fails. -/
theorem truthful_of_reachable {i : UUID} {row : TaskExecution} {db : Database}
    {outcomes : ℕ → Option PyException} {faults : Cluster.Faults}
    {c : Machine.Config Op.Answer Cluster} (hrow : db.execution? i = some row)
    (hc : (workers faults (SpawnsWork (fun _ => True))).Reachable { db, outcomes } c) :
  (∃ row', c.world.db.execution? i = some row' ∧
      (statuses i row.status c.world.history).head? = some row'.status) ∧
    Telling.Truthful i row.status c.world.history
  := by
  have hinv : Telling.Inv i row.status [] { db, outcomes } := by
    constructor
    · exact ⟨row, hrow, rfl⟩
    · rintro e earlier hsuffix
      cases List.suffix_nil.mp hsuffix
    · rintro t c ⟨⟩
    · intro t _
      rfl
  obtain ⟨cs, h⟩ := (Telling.refinement i row.status faults).reachable hinv hc
  exact ⟨h.inv.row, h.inv.told⟩

/-- The status that an operation has announced. -/
def Entry.announced (e : Entry) : Option String :=
  match e.op with
  | .emit _ event => some event.status
  | _ => none

/-- Two calls of `on_error` that overlap announce the retry that each of them has recorded. -/
theorem truthful_of_overlapping :
  ∃ c, (workers .any (SpawnsWork (fun _ => True))).Reachable (Example.cluster 0 2) c ∧
    c.world.history.filterMap Entry.announced = ["retrying", "retrying"] ∧
    statuses Example.taskExecutionId .running c.world.history =
      [.retrying, .retrying, .running] ∧
    Telling.Truthful Example.taskExecutionId .running c.world.history
  := by
  have hpermitted : ∀ turn ∈ Example.overlapping,
      turn.Permitted .any (SpawnsWork (fun _ => True)) := by
    have hspawn : (Turn.spawn Example.errorThread).Permitted .any (SpawnsWork (fun _ => True)) :=
      fun _ => .hook Example.settings Example.message _ (.onError Example.exception)
    have hrun (t n : ℕ) : (Turn.run t n {}).Permitted .any (SpawnsWork (fun _ => True)) :=
      ⟨fun _ => trivial, fun _ => trivial⟩
    simp only [Example.overlapping, List.forall_mem_cons, List.not_mem_nil]
    exact ⟨hspawn, hrun _ _, hspawn, hrun _ _, hrun _ _, by simp⟩
  obtain ⟨c, hc, hpast⟩ := Turn.exists_reachable hpermitted (w := Example.cluster 0 2)
    (p := fun c => decide
      (c.world.history.filterMap Entry.announced = ["retrying", "retrying"] ∧
        statuses Example.taskExecutionId .running c.world.history =
          [.retrying, .retrying, .running])) (by decide +kernel)
  obtain ⟨hannounced, hstatuses⟩ := of_decide_eq_true hpast
  have hrow : (Example.cluster 0 2).db.execution? Example.taskExecutionId
      = some (Example.row 0 2) := rfl
  exact ⟨c, hc, hannounced, hstatuses, (truthful_of_reachable hrow hc).2⟩

end WorkerTemplate
