import WorkerTemplate.Concurrent.Increments.Protocol

/-!
# The decisions of the error hooks

What the protocol says that an error hook knows of the retry count is so in the cluster, and the
decisions that were committed have raised it.
-/

namespace WorkerTemplate

namespace Increments

variable {i : UUID} {n : ℕ} {db : Database}

/-- The retry count of the execution that effects leave, if they set one. -/
def raises (i : UUID) : List Effect → Option ℕ
  | [] => none
  | .updateExecution j c :: es => (raises i es).or (if j = i then c.retryCount else none)
  | .insertAttempt _ :: es => raises i es
  | .updateAttempt _ _ :: es => raises i es

theorem raises_append (es es' : List Effect) :
  raises i (es ++ es') = (raises i es').or (raises i es)
  := by
  induction es with
  | nil => simp [raises]
  | cons e es ih =>
      cases e with
      | updateExecution j c => simp [raises, ih, Option.or_assoc]
      | insertAttempt row => simp [raises, ih]
      | updateAttempt id d => simp [raises, ih]

/-- The retry count a transaction leaves. -/
theorem retryCount_view {row : TaskExecution} (hrow : db.execution? i = some row)
    (es : List Effect) :
  ∃ row', (db.view es).execution? i = some row' ∧
    row'.retryCount = (raises i es).getD row.retryCount
  := by
  induction es generalizing db row with
  | nil => exact ⟨row, hrow, rfl⟩
  | cons e es ih =>
      cases e with
      | insertAttempt row' => exact ih hrow
      | updateAttempt id d => exact ih hrow
      | updateExecution j c =>
          have hrow' : (db.apply (.updateExecution j c)).execution? i
              = some (if i = j then row.set c else row) := by
            rw [Database.execution?_updateExecution, hrow]
            split
            · rfl
            · rfl
          obtain ⟨row'', hrow'', hcount⟩ := ih hrow'
          refine ⟨row'', hrow'', ?_⟩
          rw [hcount]
          simp only [raises, eq_comm (a := i) (b := j)]
          cases raises i es with
          | some n => rfl
          | none =>
              split
              · rfl
              · rfl

/-- A pending attempt of the execution was committed under a number, and may be dispatched by
now. -/
def HasPending (i : UUID) (n : ℕ) (db : Database) : Prop :=
  ∃ row ∈ db.attempts, (AttemptFilter.pendingOrDispatched i n).holds row = true

/-- An effect marks attempts as dispatched only. -/
def Marks (e : Effect) : Prop := ∀ id d, e = .updateAttempt id d → d = .dispatched

theorem HasPending.apply (h : HasPending i n db) {e : Effect} (he : Marks e) :
  HasPending i n (db.apply e)
  := by
  obtain ⟨row, hrow, hholds⟩ := h
  cases e with
  | updateExecution j c => exact ⟨row, hrow, hholds⟩
  | insertAttempt row' => exact ⟨row, by simp [hrow], hholds⟩
  | updateAttempt id d =>
      obtain rfl := he id d rfl
      refine ⟨if row.id = id then row.resolve .dispatched else row, ?_, ?_⟩
      · rw [Database.attempts_updateAttempt]
        apply List.mem_map_of_mem hrow
      · split
        · simp only [AttemptFilter.holds, Bool.and_eq_true] at hholds ⊢
          exact ⟨hholds.1, by simp [TaskAttempt.resolve]⟩
        · apply hholds

theorem HasPending.view (h : HasPending i n db) {es : List Effect} (hes : ∀ e ∈ es, Marks e) :
  HasPending i n (db.view es)
  := by
  induction es generalizing db with
  | nil => apply h
  | cons e es ih =>
      apply ih
      · apply h.apply
        apply hes e (List.mem_cons_self ..)
      · intro e' he'
        apply hes e' (List.mem_cons_of_mem _ he')

/-- A transaction that inserts a pending attempt leaves it pending or dispatched. -/
theorem hasPending_view_of_mem {es : List Effect} {row : TaskAttempt}
    (hrow : .insertAttempt row ∈ es)
    (hholds : (AttemptFilter.pendingOrDispatched i n).holds row = true) (hes : ∀ e ∈ es, Marks e) :
  HasPending i n (db.view es)
  := by
  induction es generalizing db with
  | nil => cases hrow
  | cons e es ih =>
      have hes' : ∀ e' ∈ es, Marks e' := fun e' he' => hes e' (List.mem_cons_of_mem _ he')
      rcases List.mem_cons.mp hrow with rfl | hrow
      · apply HasPending.view _ hes'
        exact ⟨{ row with id := some db.freshAttemptId }, by simp, hholds⟩
      · apply ih hrow hes'

variable {n₀ t : ℕ} {c : State} {cs : List State} {w w' : Cluster}

/-- The retry count a session has read: it was read after `k` decisions, and is up to date
when none was committed since. -/
def ReadCount (i : UUID) (n₀ t : ℕ) (w : Cluster) (b : ℕ) : Prop :=
  ∃ k, readAfter i t w.history = some k ∧ k ≤ (decisions i w.history).length ∧ b ≤ n₀ + k ∧
    (k = (decisions i w.history).length → (b = n₀ + k ↔ UpToDate i w.history))

/-- The open transaction of a thread is at a stage of a decision to retry. -/
def AtStage (i : UUID) (c : State) (es : List Effect) : Stage → Prop
  | .idle => raises i es = none ∧ es.any (Effect.decides i) = false
  | .raised =>
      c.decided = false ∧ es.any (Effect.decides i) = false ∧
        ∃ b, c.loaded = some b ∧ raises i es = some (b + 1)
  | .recorded pending =>
      c.decided = false ∧ es.any (Effect.decides i) = true ∧
        (∃ b, c.loaded = some b ∧ raises i es = some (b + 1)) ∧
        ∀ n, pending = some n → ∃ row, .insertAttempt row ∈ es ∧
          (AttemptFilter.pendingOrDispatched i n).holds row = true

/-- What a thread does about retrying is what its state says. -/
structure Does (i : UUID) (n₀ t : ℕ) (c : State) (w : Cluster) : Prop where
  decided : c.decided = false → t ∉ decisions i w.history
  pending : ∀ n, c.pending = some n → HasPending i n w.db
  stage : AtStage i c (w.txn t) c.stage
  unread : c.loaded = none → readAfter i t w.history = none
  read : ∀ b, c.loaded = some b → ReadCount i n₀ t w b

/-- The retry count is at most what the decisions make it, and less exactly when a decision
was not up to date. -/
structure Inv (i : UUID) (n₀ : ℕ) (cs : List State) (w : Cluster) : Prop where
  count : ∃ row, w.db.execution? i = some row ∧
    row.retryCount ≤ n₀ + (decisions i w.history).length ∧
    (row.retryCount = n₀ + (decisions i w.history).length ↔ UpToDate i w.history)
  nodup : (decisions i w.history).Nodup
  marks : ∀ t, ∀ e ∈ w.txn t, Marks e
  does : ∀ t c, cs[t]? = some c → Does i n₀ t c w
  idle : ∀ t, cs.length ≤ t →
    w.txn t = [] ∧ readAfter i t w.history = none ∧ t ∉ decisions i w.history

theorem decisions_cons_of_not {e : Entry} (he : e.decides i = false) (h : List Entry) :
  decisions i (e :: h) = decisions i h
  := by
  simp [decisions, he]

theorem decisions_cons_of_decides {e : Entry} (he : e.decides i = true) (h : List Entry) :
  decisions i (e :: h) = e.thread :: decisions i h
  := by
  simp [decisions, he]

theorem upToDate_cons_of_not {e : Entry} (he : e.decides i = false) (h : List Entry) :
  UpToDate i (e :: h) ↔ UpToDate i h
  := by
  simp [UpToDate, he]

theorem readAfter_cons_of_ne {e : Entry} (hne : e.thread ≠ t) (h : List Entry) :
  readAfter i t (e :: h) = readAfter i t h
  := by
  rw [readAfter, if_neg hne]

/-- The other threads go on as before after an operation that commits no decision. -/
theorem Does.of_not_decides {t' : ℕ} (h : Does i n₀ t' c w) {e : Entry}
    (hhistory : w'.history = e :: w.history) (he : e.decides i = false) (hne : e.thread ≠ t')
    (htxn : w'.txn t' = w.txn t') (hpending : ∀ n, HasPending i n w.db → HasPending i n w'.db) :
  Does i n₀ t' c w'
  := by
  have hread : readAfter i t' w'.history = readAfter i t' w.history := by
    rw [hhistory, readAfter_cons_of_ne hne]
  have hdecisions : decisions i w'.history = decisions i w.history := by
    rw [hhistory, decisions_cons_of_not he]
  constructor
  · rw [hdecisions]
    apply h.decided
  · intro n hn
    apply hpending n (h.pending n hn)
  · rw [htxn]
    apply h.stage
  · rw [hread]
    apply h.unread
  · intro b hb
    obtain ⟨k, hk, hle, hcount, hcurrent⟩ := h.read b hb
    refine ⟨k, hread.trans hk, ?_, hcount, ?_⟩
    · rwa [hdecisions]
    · rw [hdecisions, hhistory, upToDate_cons_of_not he]
      apply hcurrent

/-- The other threads go on as before after a decision was committed, with a count that is
out of date. -/
theorem Does.of_decides {t' : ℕ} (h : Does i n₀ t' c w) {e : Entry}
    (hhistory : w'.history = e :: w.history) (he : e.decides i = true) (hne : e.thread ≠ t')
    (htxn : w'.txn t' = w.txn t') (hpending : ∀ n, HasPending i n w.db → HasPending i n w'.db) :
  Does i n₀ t' c w'
  := by
  have hread : readAfter i t' w'.history = readAfter i t' w.history := by
    rw [hhistory, readAfter_cons_of_ne hne]
  have hdecisions : decisions i w'.history = e.thread :: decisions i w.history := by
    rw [hhistory, decisions_cons_of_decides he]
  constructor
  · intro hdecided
    rw [hdecisions, List.mem_cons, not_or]
    exact ⟨Ne.symm hne, h.decided hdecided⟩
  · intro n hn
    apply hpending n (h.pending n hn)
  · rw [htxn]
    apply h.stage
  · rw [hread]
    apply h.unread
  · intro b hb
    obtain ⟨k, hk, hle, hcount, -⟩ := h.read b hb
    refine ⟨k, hread.trans hk, ?_, hcount, ?_⟩
    · rw [hdecisions, List.length_cons]
      omega
    · rw [hdecisions, List.length_cons]
      omega

/-- The invariant is kept by an operation that commits no decision and sets no retry count. -/
theorem Inv.of_not_decides (h : Inv i n₀ cs w) (hc : cs[t]? = some c) {c' : State} {e : Entry}
    (hhistory : w'.history = e :: w.history) (he : e.decides i = false) (ht : e.thread = t)
    (hdb : ∀ row, w.db.execution? i = some row →
      ∃ row', w'.db.execution? i = some row' ∧ row'.retryCount = row.retryCount)
    (hpending : ∀ n, HasPending i n w.db → HasPending i n w'.db)
    (htxn : ∀ t', t' ≠ t → w'.txn t' = w.txn t') (hmarks : ∀ e ∈ w'.txn t, Marks e)
    (hdoes : Does i n₀ t c' w') :
  Inv i n₀ (cs.set t c') w'
  := by
  have hdecisions : decisions i w'.history = decisions i w.history := by
    rw [hhistory, decisions_cons_of_not he]
  constructor
  · obtain ⟨row, hrow, hle, hcurrent⟩ := h.count
    obtain ⟨row', hrow', hcount⟩ := hdb row hrow
    refine ⟨row', hrow', ?_, ?_⟩
    · rwa [hcount, hdecisions]
    · rw [hcount, hdecisions, hcurrent, hhistory, upToDate_cons_of_not he]
  · rw [hdecisions]
    apply h.nodup
  · intro t' e' he'
    by_cases htt : t' = t
    · subst htt
      apply hmarks e' he'
    · rw [htxn t' htt] at he'
      apply h.marks t' e' he'
  · intro t' c'' hc''
    rcases Machine.state_of_set hc'' with ⟨rfl, rfl⟩ | ⟨hne, hc''⟩
    · apply hdoes
    · apply (h.does t' c'' hc'').of_not_decides hhistory he _ (htxn t' hne) hpending
      rw [ht]
      apply Ne.symm hne
  · intro t' ht'
    rw [List.length_set] at ht'
    have hlt : t < cs.length := (List.getElem?_eq_some_iff.mp hc).1
    have hne : t' ≠ t := by omega
    obtain ⟨hidle, hread, hundecided⟩ := h.idle t' ht'
    refine ⟨(htxn t' hne).trans hidle, ?_, ?_⟩
    · rw [hhistory, readAfter_cons_of_ne (by rw [ht]; exact Ne.symm hne)]
      apply hread
    · rwa [hdecisions]

/-- A thread that neither reads the execution nor decides only changes its stage. -/
theorem Does.keep (h : Does i n₀ t c w) {c' : State} {e : Entry}
    (hhistory : w'.history = e :: w.history) (he : e.decides i = false)
    (hread : readAfter i t (e :: w.history) = readAfter i t w.history)
    (hpending : ∀ n, HasPending i n w.db → HasPending i n w'.db)
    (hloaded : c'.loaded = c.loaded) (hdecided : c'.decided = c.decided)
    (hpending' : c'.pending = c.pending) (hstage : AtStage i c' (w'.txn t) c'.stage) :
  Does i n₀ t c' w'
  := by
  have hdecisions : decisions i w'.history = decisions i w.history := by
    rw [hhistory, decisions_cons_of_not he]
  constructor
  · rw [hdecisions, hdecided]
    apply h.decided
  · intro n hn
    apply hpending n (h.pending n (hpending'.symm.trans hn))
  · apply hstage
  · rw [hhistory, hread, hloaded]
    apply h.unread
  · intro b hb
    obtain ⟨k, hk, hle, hcount, hcurrent⟩ := h.read b (hloaded.symm.trans hb)
    refine ⟨k, ?_, ?_, hcount, ?_⟩
    · rw [hhistory, hread, hk]
    · rwa [hdecisions]
    · rw [hdecisions, hhistory, upToDate_cons_of_not he]
      apply hcurrent

/-- An effect that sets no retry count and records no decision leaves a stage as it is. -/
theorem AtStage.append {es : List Effect} {stage : Stage} (h : AtStage i c es stage)
    {es' : List Effect} (hraises : raises i es' = none)
    (hdecides : es'.any (Effect.decides i) = false) :
  AtStage i c (es ++ es') stage
  := by
  have hraises' : raises i (es ++ es') = raises i es := by
    rw [raises_append, hraises, Option.none_or]
  have hdecides' : (es ++ es').any (Effect.decides i) = es.any (Effect.decides i) := by
    rw [List.any_append, hdecides, Bool.or_false]
  cases stage with
  | idle =>
      rw [AtStage, hraises', hdecides']
      apply h
  | raised =>
      rw [AtStage, hraises', hdecides']
      apply h
  | recorded pending =>
      rw [AtStage, hraises', hdecides']
      obtain ⟨hdecided, hany, hcount, hrow⟩ := h
      refine ⟨hdecided, hany, hcount, ?_⟩
      intro n hn
      obtain ⟨row, hmem, hholds⟩ := hrow n hn
      exact ⟨row, List.mem_append_left _ hmem, hholds⟩

/-- A session reads the committed count unless it has raised it. -/
theorem Inv.read_select (h : Inv i n₀ cs w) (hdoes : Does i n₀ t c w) (hloaded : c.loaded = none)
    {row : TaskExecution} (hrow : (w.view t).execution? i = some row) :
  row.retryCount ≤ n₀ + (decisions i w.history).length ∧
    (row.retryCount = n₀ + (decisions i w.history).length ↔ UpToDate i w.history)
  := by
  obtain ⟨row', hrow', hle, hcurrent⟩ := h.count
  obtain ⟨row'', hrow'', hcount⟩ := retryCount_view hrow' (w.txn t)
  obtain rfl : row'' = row := Option.some_injective _ (hrow''.symm.trans hrow)
  have hraises : raises i (w.txn t) = none := by
    have hstage := hdoes.stage
    cases hc : c.stage with
    | idle =>
        rw [hc] at hstage
        apply hstage.1
    | raised =>
        rw [hc] at hstage
        obtain ⟨-, -, b, hb, -⟩ := hstage
        cases hloaded.symm.trans hb
    | recorded pending =>
        rw [hc] at hstage
        obtain ⟨-, -, ⟨b, hb, -⟩, -⟩ := hstage
        cases hloaded.symm.trans hb
  rw [hraises] at hcount
  rw [hcount]
  exact ⟨hle, hcurrent⟩

/-- A statement by which a thread reads no count only changes its stage. -/
theorem Does.answers (hdoes : Does i n₀ t c w) {s : Statement} {r : s.Answer} {c' : State}
    (hread : readAfter i t ({ thread := t, op := .statement s, answer := .ok r } :: w.history)
      = readAfter i t w.history)
    (hloaded : c'.loaded = c.loaded) (hdecided : c'.decided = c.decided)
    (hpending : c'.pending = c.pending) (hstage : AtStage i c' (w.txn t ++ s.effects) c'.stage) :
  Does i n₀ t c' ((w.push t s).record t (.statement s) (.ok r) [])
  := by
  have hstage' : AtStage i c' (((w.push t s).record t (.statement s) (.ok r) []).txn t)
      c'.stage := by
    simpa using hstage
  exact hdoes.keep rfl rfl hread (fun _ hn => hn) hloaded hdecided hpending hstage'

/-- A thread that has raised the count records its decision. -/
theorem Does.insertAttempt (hdoes : Does i n₀ t c w) {row : TaskAttempt}
    {r : (Statement.insertAttempt row).Answer}
    (hallows : (protocol i).allows c (.statement (.insertAttempt row))) :
  Does i n₀ t (c.next (.statement (.insertAttempt row)) (.ok r))
    ((w.push t (.insertAttempt row)).record t (.statement (.insertAttempt row)) (.ok r) [])
  := by
  obtain ⟨hid, hraised⟩ := hallows
  by_cases hretrying : row.statusAfter = .retrying
  · have hstage := hdoes.stage
    rw [hraised hretrying] at hstage
    obtain ⟨hdecided, hany, b, hb, hraises⟩ := hstage
    have hnext : c.next (.statement (.insertAttempt row)) (.ok r)
        = { c with
            stage := .recorded
              (if row.dispatchResult = .pending then some row.attemptNumber else none) } := by
      simp [State.next, hretrying]
    rw [hnext]
    refine hdoes.answers (by simp [readAfter]) rfl rfl rfl ?_
    refine ⟨hdecided, ?_, ⟨b, hb, ?_⟩, ?_⟩
    · simp [Statement.effects, Effect.decides, hid, hretrying]
    · rw [raises_append, hraises]
      rfl
    · intro n hn
      split at hn
      case isFalse => cases hn
      case isTrue hpending =>
        obtain ⟨rfl⟩ := hn
        refine ⟨row, by simp [Statement.effects], ?_⟩
        simp [AttemptFilter.holds, hid, hpending]
  · have hnext : c.next (.statement (.insertAttempt row)) (.ok r) = c := by
      simp [State.next, hretrying]
    rw [hnext]
    refine hdoes.answers (by simp [readAfter]) rfl rfl rfl ?_
    apply hdoes.stage.append rfl
    simp [Statement.effects, Effect.decides, hretrying]

/-- A thread raises the count that it has loaded, once. -/
theorem Does.updateExecution (hdoes : Does i n₀ t c w) {j : UUID} {changes : ExecutionChanges}
    {r : (Statement.updateExecution j changes).Answer}
    (hallows : (protocol i).allows c (.statement (.updateExecution j changes))) :
  Does i n₀ t (c.next (.statement (.updateExecution j changes)) (.ok r))
    ((w.push t (.updateExecution j changes)).record t (.statement (.updateExecution j changes))
      (.ok r) [])
  := by
  obtain ⟨rfl, hnone | ⟨hdecided, hidle, b, hb, hcount⟩⟩ := hallows
  · have hnext : c.next (.statement (.updateExecution j changes)) (.ok r) = c := by
      simp [State.next, hnone]
    rw [hnext]
    refine hdoes.answers (by simp [readAfter]) rfl rfl rfl ?_
    apply hdoes.stage.append
    · simp [Statement.effects, raises, hnone]
    · rfl
  · have hnext : c.next (.statement (.updateExecution j changes)) (.ok r)
        = { c with stage := .raised } := by
      simp [State.next, hcount]
    rw [hnext]
    refine hdoes.answers (by simp [readAfter]) rfl rfl rfl ?_
    have hstage := hdoes.stage
    rw [hidle] at hstage
    obtain ⟨hraises, hany⟩ := hstage
    refine ⟨hdecided, ?_, b, hb, ?_⟩
    · rw [List.any_append, hany]
      rfl
    · rw [raises_append, hraises]
      simp [Statement.effects, raises, hcount]

/-- A thread that reads the execution stays at its stage. -/
theorem Does.atStage_selectExecution (hdoes : Does i n₀ t c w) (row : TaskExecution) :
  AtStage i (c.next (.statement (.selectExecution i none)) (.ok (some row))) (w.txn t) c.stage
  := by
  have hstage := hdoes.stage
  cases hc : c.stage with
  | idle => rwa [hc] at hstage
  | raised =>
      rw [hc] at hstage
      obtain ⟨hdecided, hany, b, hb, hraises⟩ := hstage
      exact ⟨hdecided, hany, b, by simp [State.next, hb], hraises⟩
  | recorded pending =>
      rw [hc] at hstage
      obtain ⟨hdecided, hany, ⟨b, hb, hraises⟩, hpending⟩ := hstage
      exact ⟨hdecided, hany, ⟨b, by simp [State.next, hb], hraises⟩, hpending⟩

/-- A thread loads the count that it reads first. -/
theorem Inv.does_selectExecution (h : Inv i n₀ cs w) (hdoes : Does i n₀ t c w)
    {row : TaskExecution} (hrow : (w.view t).execution? i = some row) :
  Does i n₀ t (c.next (.statement (.selectExecution i none)) (.ok (some row)))
    ((w.push t (.selectExecution i none)).record t (.statement (.selectExecution i none))
      (.ok (some row)) [])
  := by
  have hstage := hdoes.atStage_selectExecution row
  cases hloaded : c.loaded with
  | some b =>
      obtain ⟨k, hk, -⟩ := hdoes.read b hloaded
      refine hdoes.answers ?_ ?_ rfl rfl ?_
      · simp [readAfter, hk]
      · simp [State.next, hloaded]
      · rw [Statement.effects, List.append_nil]
        apply hstage
  | none =>
      obtain ⟨hle, hcurrent⟩ := h.read_select hdoes hloaded hrow
      have hnext : (c.next (.statement (.selectExecution i none)) (.ok (some row))).loaded
          = some row.retryCount := by
        simp [State.next, hloaded]
      constructor
      · apply hdoes.decided
      · apply hdoes.pending
      · rw [Cluster.txn_record, Cluster.txn_push, Function.update_self, Statement.effects,
          List.append_nil]
        apply hstage
      · intro hnone
        cases hnone.symm.trans hnext
      · intro b hb
        obtain ⟨rfl⟩ := hnext.symm.trans hb
        refine ⟨(decisions i w.history).length, ?_, le_rfl, hle, ?_⟩
        · simp [readAfter, hdoes.unread hloaded]
        · intro _
          rw [hcurrent]
          exact (upToDate_cons_of_not rfl _).symm

/-- A statement that the protocol allows keeps a thread doing what its state says. -/
theorem Inv.does_answers (h : Inv i n₀ cs w) (hdoes : Does i n₀ t c w) {s : Statement}
    {r : s.Answer} (hallows : (protocol i).allows c (.statement s))
    (hanswers : (w.view t).Answers s r) :
  Does i n₀ t (c.next (.statement s) (.ok r))
    ((w.push t s).record t (.statement s) (.ok r) [])
  := by
  cases s with
  | selectAttempt filter =>
      refine hdoes.answers (by simp [readAfter]) rfl rfl rfl ?_
      apply hdoes.stage.append rfl rfl
  | updateAttempt id d =>
      refine hdoes.answers (by simp [readAfter]) rfl rfl rfl ?_
      apply hdoes.stage.append rfl rfl
  | insertAttempt row => apply hdoes.insertAttempt hallows
  | updateExecution j changes => apply hdoes.updateExecution hallows
  | selectExecution j tenantId =>
      obtain ⟨rfl, rfl⟩ := hallows
      obtain ⟨row₀, hrow₀, -⟩ := h.count
      obtain ⟨row, hrow, -⟩ := retryCount_view hrow₀ (w.txn t)
      obtain rfl : r = some row := Eq.trans hanswers hrow
      apply h.does_selectExecution hdoes hrow

/-- What the database answers is what the protocol says. -/
theorem Inv.moves_answers (h : Inv i n₀ cs w) (hdoes : Does i n₀ t c w) {s : Statement}
    {r : s.Answer} (hallows : (protocol i).allows c (.statement s))
    (hanswers : (w.view t).Answers s r) :
  (protocol i).moves c (.statement s) (.ok r) (c.next (.statement s) (.ok r))
  := by
  use rfl
  cases s with
  | updateExecution j changes => trivial
  | insertAttempt row => trivial
  | updateAttempt id d => trivial
  | selectExecution j tenantId =>
      obtain ⟨rfl, rfl⟩ := hallows
      obtain ⟨row₀, hrow₀, -⟩ := h.count
      obtain ⟨row, hrow, -⟩ := retryCount_view hrow₀ (w.txn t)
      obtain rfl : r = some row := Eq.trans hanswers hrow
      exact ⟨row, rfl, Database.id_of_execution? hrow⟩
  | selectAttempt filter =>
      cases filter with
      | pending j => trivial
      | pendingOrDispatched j n =>
          cases r with
          | some row => trivial
          | none =>
              rintro rfl hpending
              obtain ⟨row, hrow, hholds⟩ := (hdoes.pending n hpending).view (h.marks t)
              have hnot := hanswers row hrow
              rw [hholds] at hnot
              cases hnot

end Increments

end WorkerTemplate
