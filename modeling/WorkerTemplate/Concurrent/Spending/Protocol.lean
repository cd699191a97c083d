import WorkerTemplate.Concurrent.Work
import WorkerTemplate.Concurrent.Schedule
import WorkerTemplate.Middleware.Decision

/-!
# What a transaction spends

A transaction that increments the retry count of an execution records an attempt, and it increments
a count that it has read.  Most parts of the hooks do neither.
-/

namespace WorkerTemplate

/-- An audit row of an execution records a retry. -/
def TaskAttempt.retries (row : TaskAttempt) (i : UUID) : Bool :=
  row.taskExecutionId = i && row.statusAfter = .retrying

/-- The number of retries of an execution that are on the audit. -/
def Database.retries (db : Database) (i : UUID) : ℕ := db.attempts.countP (fun row => row.retries i)

namespace Spending

variable {i : UUID} {db : Database} {es : List Effect}

/-- Some effects leave the retry count of the execution alone. -/
def Unspent (i : UUID) (es : List Effect) : Prop :=
  ∀ changes, .updateExecution i changes ∈ es → changes.retryCount = none

/-- Some effects that spend a retry of the execution record one. -/
def Balanced (i : UUID) (es : List Effect) : Prop :=
  Unspent i es ∨ ∃ row, .insertAttempt row ∈ es ∧ row.retries i = true

/-! ### Transactions -/

theorem unspent_nil (i : UUID) : Unspent i [] := by rintro changes ⟨⟩

theorem Unspent.append {es' : List Effect} (h : Unspent i es) (h' : Unspent i es') :
  Unspent i (es ++ es')
  := by
  intro changes hchanges
  rcases List.mem_append.mp hchanges with hchanges | hchanges
  · apply h changes hchanges
  · apply h' changes hchanges

/-- The retries on the audit after an effect: one more when a retry is recorded, and otherwise as
many as before. -/
theorem retries_apply (db : Database) (e : Effect) :
  (db.apply e).retries i =
    db.retries i + match e with
      | .insertAttempt row => if row.retries i then 1 else 0
      | _ => 0
  := by
  cases e with
  | updateExecution j changes => rfl
  | insertAttempt row =>
      rw [Database.retries, Database.attempts_insertAttempt, List.countP_append,
        List.countP_singleton]
      rfl
  | updateAttempt id d =>
      rw [Database.retries, Database.attempts_updateAttempt, List.countP_map]
      apply List.countP_congr
      intro row _
      simp only [Function.comp]
      split
      · rfl
      · rfl

/-- No transaction takes a retry from the audit. -/
theorem retries_le_view (db : Database) (es : List Effect) :
  db.retries i ≤ (db.view es).retries i
  := by
  induction es generalizing db with
  | nil => rfl
  | cons e es ih =>
      have hle : db.retries i ≤ (db.apply e).retries i := by
        rw [retries_apply]
        apply Nat.le_add_right
      apply hle.trans (ih (db.apply e))

/-- A transaction that records a retry adds it to the audit. -/
theorem retries_lt_view (db : Database) {row : TaskAttempt} (hrow : .insertAttempt row ∈ es)
    (hretries : row.retries i = true) :
  db.retries i < (db.view es).retries i
  := by
  induction es generalizing db with
  | nil => cases hrow
  | cons e es ih =>
      rcases List.mem_cons.mp hrow with rfl | hrow
      · have hlt : db.retries i < (db.apply (.insertAttempt row)).retries i := by
          rw [retries_apply]
          simp [hretries]
        apply hlt.trans_le (retries_le_view _ es)
      · have hle : db.retries i ≤ (db.apply e).retries i := by
          rw [retries_apply]
          apply Nat.le_add_right
        apply hle.trans_lt (ih (db.apply e) hrow)

/-- A transaction that only writes retry counts up to a bound keeps the count within the bound. -/
theorem exists_execution?_view {row : TaskExecution} {n : ℕ} (hrow : db.execution? i = some row)
    (hle : row.retryCount ≤ n)
    (hes : ∀ changes, .updateExecution i changes ∈ es → ∀ m ∈ changes.retryCount, m ≤ n) :
  ∃ row', (db.view es).execution? i = some row' ∧ row'.retryCount ≤ n
  := by
  induction es generalizing db row with
  | nil => exact ⟨row, hrow, hle⟩
  | cons e es ih =>
      have hes' : ∀ changes, .updateExecution i changes ∈ es →
          ∀ m ∈ changes.retryCount, m ≤ n :=
        fun changes hchanges => hes changes (List.mem_cons_of_mem _ hchanges)
      cases e with
      | insertAttempt row' => apply @ih (db.apply (.insertAttempt row')) row hrow hle hes'
      | updateAttempt id d => apply @ih (db.apply (.updateAttempt id d)) row hrow hle hes'
      | updateExecution j changes =>
          by_cases hj : i = j
          · subst hj
            have hset : (db.apply (.updateExecution i changes)).execution? i
                = some (row.set changes) := by
              rw [Database.execution?_updateExecution_self, hrow]
              rfl
            apply ih hset _ hes'
            simp only [TaskExecution.set]
            cases hcount : changes.retryCount with
            | none => apply hle
            | some m => apply hes changes (List.mem_cons_self ..) m hcount
          · apply ih _ hle hes'
            rw [Database.execution?_updateExecution, if_neg hj, hrow]

/-! ### The protocol -/

/-- What a thread knows of the retries of the execution. -/
structure Knowledge where
  /-- The effects of its open transaction. -/
  own : List Effect := []
  /-- A number of retries that are on the audit, or were spent before. -/
  seen : ℕ := 0

/-- A new thread knows nothing. -/
def Knowledge.initial : Knowledge := {}

/-- The transaction of a thread is over. -/
def Knowledge.close (c : Knowledge) : Knowledge := { c with own := [] }

/-- The protocol of the retries of an execution: a retry count that is written is at most one more
than one that was read, and it is committed together with an attempt. -/
def protocol (i : UUID) : Protocol Op.Answer Knowledge where
  allows c o :=
    match o with
    | .statement (.updateExecution j changes) =>
        j = i → ∀ n ∈ changes.retryCount, n ≤ c.seen + 1
    | .commit => Balanced i c.own
    | _ => True
  moves c o r c' :=
    match o, r with
    | .openSession, _ => c' = c.close
    | .closeSession, _ => c' = c.close
    | .commit, _ => c' = c.close
    | .statement (.selectExecution j _), .ok (some row) =>
        row.id = j ∧ c'.own = c.own ∧ c.seen ≤ c'.seen ∧
          (j = i → Unspent i c.own → row.retryCount ≤ c'.seen)
    | .statement s, .ok _ => c' = { c with own := c.own ++ s.effects }
    | .statement _, .error _ => c' = c.close
    | _, _ => c' = c

/-- A thread that has seen some retries has spent none in its transaction. -/
structure Sparing (i : UUID) (n : ℕ) (c : Knowledge) : Prop where
  seen : n ≤ c.seen
  unspent : Unspent i c.own

/-- The effects of an operation. -/
def effects : Op → List Effect
  | .statement s => s.effects
  | _ => []

/-- An operation adds its effects to the open transaction or ends the transaction, and its thread
does not forget retries. -/
theorem own_of_moves {o : Op} {r : o.Answer} {c c' : Knowledge} (h : (protocol i).moves c o r c') :
  (c'.own = [] ∨ c'.own = c.own ++ effects o) ∧ c.seen ≤ c'.seen
  := by
  have hclose (hc' : c' = c.close) :
      (c'.own = [] ∨ c'.own = c.own ++ effects o) ∧ c.seen ≤ c'.seen := by
    subst hc'
    exact ⟨Or.inl rfl, le_rfl⟩
  have hsame (hc' : c' = c) (ho : effects o = []) :
      (c'.own = [] ∨ c'.own = c.own ++ effects o) ∧ c.seen ≤ c'.seen := by
    subst hc'
    exact ⟨Or.inr (by rw [ho, List.append_nil]), le_rfl⟩
  cases o with
  | openSession => apply hclose h
  | closeSession => apply hclose h
  | commit => apply hclose h
  | now => apply hsame h rfl
  | kiq message => apply hsame h rfl
  | emit room event => apply hsame h rfl
  | body message => apply hsame h rfl
  | statement st =>
      have hpush (hc' : c' = { c with own := c.own ++ st.effects }) :
          (c'.own = [] ∨ c'.own = c.own ++ effects (.statement st)) ∧ c.seen ≤ c'.seen := by
        subst hc'
        exact ⟨Or.inr rfl, le_rfl⟩
      cases st with
      | selectExecution k tenantId =>
          rcases r with e | _ | row
          · apply hclose h
          · apply hpush h
          · obtain ⟨-, hown, hseen, -⟩ := h
            exact ⟨Or.inr (hown.trans (List.append_nil _).symm), hseen⟩
      | selectAttempt filter =>
          rcases r with e | _
          · apply hclose h
          · apply hpush h
      | updateExecution k changes =>
          rcases r with e | _
          · apply hclose h
          · apply hpush h
      | insertAttempt row =>
          rcases r with e | _
          · apply hclose h
          · apply hpush h
      | updateAttempt id d =>
          rcases r with e | _
          · apply hclose h
          · apply hpush h

end Spending

namespace Hook

open Spending

variable {α : Type} {i j : UUID} {n : ℕ} {s : Invocation} {c : Knowledge}

/-- An operation that spends no retry keeps what its thread has seen, and the objects of its
hook. -/
theorem maintains_perform_spending {o : Op} (ho : Unspent i (effects o)) (I : Invocation → Prop) :
  Maintains (Spending.protocol i) (fun s c => I s ∧ Sparing i n c) (perform o)
  := by
  apply maintains_perform
  · rintro _ c ⟨-, -, hc⟩
    cases o with
    | commit => exact Or.inl hc
    | statement st =>
        cases st with
        | updateExecution k changes =>
            rintro rfl m hm
            rw [ho changes (List.mem_singleton_self _)] at hm
            cases hm
        | selectExecution k tenantId => trivial
        | selectAttempt filter => trivial
        | insertAttempt row => trivial
        | updateAttempt id d => trivial
    | openSession => trivial
    | closeSession => trivial
    | now => trivial
    | kiq message => trivial
    | emit room event => trivial
    | body message => trivial
  · rintro s' c r c' ⟨hI, hseen, hc⟩ hmoves
    obtain ⟨hown, hle⟩ := own_of_moves hmoves
    refine ⟨hI, hseen.trans hle, ?_⟩
    rcases hown with hown | hown
    · rw [hown]
      apply unspent_nil
    · rw [hown]
      apply hc.append ho

/-- A part of a hook that spends no retry of the execution. -/
abbrev Frugal (i : UUID) (h : Hook α) : Prop :=
  Maintains (Spending.protocol i) (fun _ c => Sparing i 0 c) h

theorem frugal_perform {o : Op} (ho : Unspent i (effects o)) :
  Frugal i (perform o)
  := by
  intro s c hc
  apply (maintains_perform_spending ho (fun _ => True) s c ⟨trivial, hc⟩).mono
  rintro r s' c' ⟨-, hc'⟩
  apply hc'

theorem frugal_modify (f : Invocation → Invocation) :
  Frugal i (modify f)
  := maintains_modify (fun _ _ h => h)

theorem frugal_execute {st : Statement} (ho : Unspent i st.effects) :
  Frugal i (execute st)
  := maintains_execute (frugal_perform ho)

theorem frugal_commit :
  Frugal i commit
  := maintains_commit (frugal_perform (unspent_nil i))

/-- Setting a status other than retrying spends no retry. -/
theorem frugal_updateTaskStatus (k : UUID) {status : TaskStatus} (hstatus : status ≠ .retrying)
    (fields : StatusUpdate) :
  Frugal i (updateTaskStatus k status fields)
  := by
  have hload : Frugal i (getTaskExecution k none) := by
    apply (frugal_execute (unspent_nil i)).bind
    rintro (_ | row)
    · apply maintains_pure
    · apply maintains_get.bind
      intro s
      split
      · apply maintains_pure
      · apply (frugal_modify _).bind
        intro _
        apply maintains_pure
  have hrefresh (task : TaskExecution) : Frugal i (refresh task) := by
    apply (frugal_execute (unspent_nil i)).bind
    rintro (_ | row)
    · apply maintains_pure
    · apply (frugal_modify _).bind
      intro _
      apply maintains_pure
  apply hload.bind
  rintro (_ | task)
  · apply maintains_pure
  · apply (frugal_perform (unspent_nil i)).bind
    intro now
    have hupdate : Unspent i (Statement.effects (.updateExecution task.id
        (task.changes (task.assign status fields now)))) := by
      intro changes hchanges
      cases List.mem_singleton.mp hchanges
      rw [TaskExecution.retryCount_changes_assign, if_neg hstatus]
    apply (frugal_execute hupdate).bind
    intro _
    apply (hrefresh task).bind
    intro _
    apply maintains_pure

theorem frugal_withSession {body : Hook α} (hbody : Frugal i body) :
  Frugal i (withSession body)
  := hbody.withSession (frugal_perform (unspent_nil i)) (frugal_perform (unspent_nil i))
      (fun _ _ h => h)

theorem frugal_emitStatusEvent (settings : Settings) (message : TaskiqMessage)
    (status : TaskStatus) (statusMessage errorDetail : Option String) :
  Frugal i (emitStatusEvent settings message status statusMessage errorDetail)
  := maintains_emitStatusEvent (fun _ _ => frugal_perform (unspent_nil i)) _ _ _ _ _

theorem frugal_setStatus (k : UUID) {status : TaskStatus} (hstatus : status ≠ .retrying)
    (fields : StatusUpdate) :
  Frugal i (setStatus k status fields)
  := by
  apply frugal_withSession
  apply (frugal_updateTaskStatus k hstatus fields).bind
  intro _
  apply frugal_commit

theorem frugal_preExecute (settings : Settings) (message : TaskiqMessage) :
  Frugal i (preExecute settings message)
  := by
  rw [preExecute]
  apply Maintains.createDbRetry
  split
  · apply maintains_pure
  · apply (frugal_setStatus _ (by simp) _).bind
    intro _
    apply frugal_emitStatusEvent

theorem frugal_postExecute (settings : Settings) (message : TaskiqMessage) :
  Frugal i (postExecute settings message)
  := by
  rw [postExecute]
  apply Maintains.createDbRetry
  split
  · apply maintains_pure
  · apply maintains_get.bind
    intro s
    apply Maintains.ite
    · apply maintains_pure
    · apply Maintains.ite
      · apply maintains_pure
      · apply Maintains.ite
        · apply (frugal_setStatus _ (by simp) _).bind
          intro _
          apply frugal_emitStatusEvent
        · apply (frugal_setStatus _ (by simp) _).bind
          intro _
          apply frugal_emitStatusEvent

end Hook

end WorkerTemplate
