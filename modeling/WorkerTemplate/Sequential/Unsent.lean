import WorkerTemplate.Sequential.Call

/-!
# Calls that send nothing

A call of `on_error` for an execution whose retries are blocked, shadowed or exhausted
records its decision once.  In every later pass it finds its own write in the row, and
has nothing left to do.
-/

namespace WorkerTemplate

/-- A decision that is new depends on the row and not on the record of the call. -/
theorem Settings.resolveRetryDecision_of_new (settings : Settings) (ctx : ErrorContext)
    (attempt : OnErrorAttempt) (h : attempt.recognizes ctx.task = false) :
  settings.resolveRetryDecision ctx attempt = settings.resolveRetryDecision ctx {}
  := by
  have hempty : OnErrorAttempt.recognizes {} ctx.task = false := by
    cases ctx.task with
    | none => rfl
    | some row => rfl
  simp only [resolveRetryDecision, h, hempty, Bool.false_eq_true, if_false]

/-- A call of `on_error` for an execution whose retries are not allowed, with the row and the
database it finds. -/
structure UnsentCall where
  settings : Settings
  message : TaskiqMessage
  exception : PyException
  row : TaskExecution
  db : Database
  sent : List TaskiqMessage
  result : TaskiqResult
  execution : message.extractTaskExecutionId = some row.id
  found : db.execution? row.id = some row
  refused : ¬ (settings.retryGateAllows message.taskName row.tenantId = true ∧
    row.retryCount < row.maxRetries)

namespace UnsentCall

variable (u : UnsentCall)

/-- What the helpers of a pass share when it has loaded a row. -/
def context (row : TaskExecution) : ErrorContext :=
  .ofRow u.settings u.message u.exception u.row.id row

/-- The decision of the call. -/
def decision : RetryDecision := u.settings.resolveRetryDecision (u.context u.row) {}

/-- The row after the decision has been recorded. -/
def decidedRow (now : Time) : TaskExecution :=
  u.row.assign u.decision.status ((u.context u.row).update u.decision.statusMsg) now

/-- The database is as the call found it, or holds its decision once. -/
inductive Records (attempt : OnErrorAttempt) (db : Database) : Prop where
  | untouched (hdb : db = u.db)
  | decided (now : Time) (hdb : db = u.db.decided (u.context u.row) u.decision u.row now)
      (hrecognizes : attempt.recognizes (some (u.decidedRow now)) = true)

/-- The state of the call between two passes. -/
structure State (s : Invocation) (w : World) : Prop where
  records : u.Records s.attempt w.db
  sent : w.sent = u.sent
  error : s.result.error = u.result.error

/-- The database holds the decision of the call. -/
def Decided (db : Database) : Prop :=
  ∃ now, db = u.db.decided (u.context u.row) u.decision u.row now

/-- The row the call found is not like the one it decides on: it is running, or its retry count
is going to be raised. -/
def Unmistakable : Prop := u.row.status = .running ∨ u.decision.status = .retrying

/-- The record of the call does not take the row the call found for its own write. -/
def Unmistaken (attempt : OnErrorAttempt) : Prop := attempt.recognizes (some u.row) = false

/-- What a pass whose transaction has a fate does to the record, the result and the
database. -/
structure Moves (fate : Fate) (s : Invocation) (db : Database) (s' : Invocation)
    (db' : Database) : Prop where
  unmistaken : u.Unmistakable → u.Unmistaken s.attempt → u.Unmistaken s'.attempt
  decided : u.Unmistakable → u.Unmistaken s.attempt → (∀ k, fate ≠ .lost k) → u.Decided db'
  lost : ∀ k, fate = .lost k → db' = db
  /-- Only a pass that returns marks the result, if its own decision is shadowed. -/
  result : ∀ row, db.execution? u.row.id = some row →
    s'.result = { s.result with
      shadowRetry := s.result.shadowRetry || (decide (fate = .commits) &&
        (u.settings.resolveRetryDecision (u.context row) {}).retryShadowed) }

variable {u}

/-- A record of the decision does not recognize the row the call found. -/
theorem Unmistakable.unmistaken (h : u.Unmistakable) {attempt : OnErrorAttempt}
    (hstatus : attempt.recordedStatus = some u.decision.status)
    (hcount : attempt.recordedRetryCount
      = some (if u.decision.status = .retrying then u.row.retryCount + 1 else u.row.retryCount)) :
  u.Unmistaken attempt
  := by
  rw [Unmistaken, Bool.eq_false_iff, Ne, OnErrorAttempt.recognizes_iff, hstatus, hcount]
  rintro ⟨hstatus', hcount', -⟩
  rw [Option.some.injEq] at hstatus' hcount'
  rcases h with hrunning | hretrying
  · have hctx : (u.context u.row).task = some u.row := rfl
    rw [decision, u.settings.status_resolveRetryDecision {} hctx rfl, hrunning] at hstatus'
    split at hstatus'
    · cases hstatus'
    · cases hstatus'
  · rw [if_pos hretrying] at hcount'
    omega

/-- The row of the call is the one it found, or the one it decided on, which is
recognized. -/
theorem Records.row {attempt : OnErrorAttempt} {db : Database} (h : u.Records attempt db) :
  ∃ row, db.execution? u.row.id = some row ∧ row.tenantId = u.row.tenantId ∧
    row.maxRetries = u.row.maxRetries ∧ u.row.retryCount ≤ row.retryCount ∧
    (attempt.recognizes (some row) = true ∨ (db = u.db ∧ row = u.row))
  := by
  cases h with
  | untouched hdb =>
      refine ⟨u.row, ?_, rfl, rfl, le_rfl, Or.inr ⟨hdb, rfl⟩⟩
      rw [hdb, u.found]
  | decided now hdb hrecognizes =>
      refine ⟨u.decidedRow now, ?_, rfl, rfl, ?_, Or.inl hrecognizes⟩
      · rw [hdb]
        apply Database.execution?_decided now u.found
      · simp only [decidedRow, TaskExecution.assign]
        split
        · apply Nat.le_succ
        · apply le_rfl

/-- The retries of the call are not allowed in any of its passes. -/
theorem retryAllowed_of_row {row : TaskExecution} (htenant : row.tenantId = u.row.tenantId)
    (hmax : row.maxRetries = u.row.maxRetries) (hle : u.row.retryCount ≤ row.retryCount)
    (attempt : OnErrorAttempt) :
  (u.settings.resolveRetryDecision (u.context row) attempt).retryAllowed = false
  := by
  have hctx : (u.context row).task = some row := rfl
  rw [u.settings.retryAllowed_resolveRetryDecision attempt hctx, Bool.eq_false_iff, Ne,
    Bool.and_eq_true, decide_eq_true_eq, htenant, hmax]
  rintro ⟨hlt, hgate⟩
  apply u.refused ⟨hgate, hle.trans_lt hlt⟩

/-- A call goes on in the same state when its recording was lost. -/
theorem Records.recordedOrLeft {attempt attempt' : OnErrorAttempt} {db : Database}
    {result result' : TaskiqResult} (h : u.Records attempt db) {row : TaskExecution}
    (hrow : db.execution? u.row.id = some row)
    (hleft : Hook.RecordedOrLeft (u.context row)
      (u.settings.resolveRetryDecision (u.context row) attempt) attempt result attempt' result') :
  u.Records attempt' db
  := by
  cases h with
  | untouched hdb => exact .untouched hdb
  | decided now hdb hrecognizes =>
      obtain ⟨-, rfl | ⟨hnew, -⟩⟩ := hleft
      · exact .decided now hdb hrecognizes
      · have hctx : (u.context row).task = some row := rfl
        rw [hdb, Database.execution?_decided now u.found] at hrow
        obtain ⟨rfl⟩ := hrow
        rw [u.settings.retryAlreadyRecorded_resolveRetryDecision attempt hctx] at hnew
        cases hrecognizes.symm.trans hnew

/-- The row the call found is not recognized after a recording that was lost. -/
theorem Records.unmistaken_of_left {attempt attempt' : OnErrorAttempt} {db : Database}
    {result result' : TaskiqResult} (h : u.Records attempt db) (hun : u.Unmistakable)
    (hnot : u.Unmistaken attempt) {row : TaskExecution} (hrow : db.execution? u.row.id = some row)
    (hleft : Hook.RecordedOrLeft (u.context row)
      (u.settings.resolveRetryDecision (u.context row) attempt) attempt result attempt' result') :
  u.Unmistaken attempt'
  := by
  have hctx : (u.context row).task = some row := rfl
  obtain ⟨-, rfl | ⟨hnew, ⟨hstatus, hcount, hmessage⟩ | ⟨hstatus, hcount, -⟩⟩⟩ := hleft
  · apply hnot
  · rw [Unmistaken, Bool.eq_false_iff, Ne, OnErrorAttempt.recognizes_iff] at hnot ⊢
    rwa [hstatus, hcount, hmessage]
  · rw [u.settings.retryAlreadyRecorded_resolveRetryDecision attempt hctx] at hnew
    obtain ⟨row', hrow', -, -, -, hrecords⟩ := h.row
    obtain rfl : row' = row := Option.some_injective _ (hrow'.symm.trans hrow)
    obtain ⟨-, rfl⟩ := hrecords.resolve_left (by simp [hnew])
    rw [u.settings.resolveRetryDecision_of_new _ attempt hnew] at hstatus hcount
    apply hun.unmistaken hstatus hcount

/-- A decision that is recorded already is committed as it is. -/
theorem exec_recordFailure_unsent_of_recorded {s : Invocation} {w : World}
    (h : u.Records s.attempt w.db) (hown : w.own = []) (hw : w.Up) {row : TaskExecution}
    (hrow : w.db.execution? u.row.id = some row) {decision : RetryDecision}
    (hrecorded : decision.retryAlreadyRecorded = s.attempt.recognizes (some row))
    (hold : decision.retryAlreadyRecorded = true) :
  ∃ r s' w', Hook.exec (Hook.recordFailure (u.context row) decision) s w = ((r, s'), w') ∧
    u.Records s'.attempt w'.db ∧ w'.sent = w.sent ∧ s'.result = s.result ∧ w'.plan = w.plan ∧
    ((∃ a, r = .ok a) ↔ w.fate = .commits) ∧
    (u.Unmistakable → u.Unmistaken s.attempt → u.Unmistaken s'.attempt ∧ u.Decided w'.db)
  := by
  have hview : w.view = w.db := by rw [World.view, hown, Database.view_nil]
  have hdecided : u.Unmistaken s.attempt → u.Decided w.view := by
    intro hnot
    rw [hview]
    cases h with
    | decided now hdb _ => exact ⟨now, hdb⟩
    | untouched hdb =>
        rw [hdb, u.found] at hrow
        obtain rfl := Option.some_injective _ hrow
        rw [Unmistaken, ← hrecorded, hold] at hnot
        cases hnot
  rw [Hook.recordFailure, hold]
  rcases hw.commits_or_applied with hfate | hfate
  · refine ⟨_, _, _, Hook.exec_bind_ok (Hook.exec_commit hfate), ?_, rfl, rfl, rfl, ?_,
      fun _ hnot => ⟨hnot, hdecided hnot⟩⟩
    · change u.Records s.attempt w.view
      rwa [hview]
    · exact ⟨fun _ => hfate, fun _ => ⟨_, rfl⟩⟩
  · refine ⟨_, _, _, Hook.exec_bind_error (Hook.exec_commit_applied hfate), ?_, rfl, rfl, rfl, ?_,
      fun _ hnot => ⟨hnot, hdecided hnot⟩⟩
    · change u.Records s.attempt w.view
      rwa [hview]
    · simp [hfate]

/-- The decision of the call is recorded where the row is the one the call found. -/
theorem exec_recordFailure_unsent_of_new {s : Invocation} {w : World} (hown : w.own = [])
    (hw : w.Up) (hmap : s.identityMap u.row.id = some u.row) (hdb : w.db = u.db)
    (hnew : u.decision.retryAlreadyRecorded = false) :
  ∃ r s' w', Hook.exec (Hook.recordFailure (u.context u.row) u.decision) s w = ((r, s'), w') ∧
    u.Records s'.attempt w'.db ∧ w'.sent = w.sent ∧ s'.result = s.result ∧ w'.plan = w.plan ∧
    ((∃ a, r = .ok a) ↔ w.fate = .commits) ∧
    (u.Unmistakable → u.Unmistaken s.attempt → u.Unmistaken s'.attempt ∧ u.Decided w'.db)
  := by
  have hview : w.view = u.db := by rw [World.view, hown, Database.view_nil, hdb]
  have hview' : w.view.execution? (u.context u.row).taskExecutionId = some u.row := by
    rw [hview]
    apply u.found
  have hctx : (u.context u.row).task = some u.row := rfl
  have hdecided : (w.decided (u.context u.row) u.decision u.row).view
      = u.db.decided (u.context u.row) u.decision u.row w.clock := by
    rw [World.view_decided, hview]
  have hrecord : u.Records (s.attempt.record u.decision u.row)
      (w.decided (u.context u.row) u.decision u.row).view := by
    rw [hdecided]
    apply Records.decided w.clock rfl
    rw [OnErrorAttempt.recognizes_iff]
    exact ⟨rfl, rfl, rfl⟩
  have hmoves : u.Unmistakable → u.Unmistaken s.attempt →
      u.Unmistaken (s.attempt.record u.decision u.row) ∧
        u.Decided (w.decided (u.context u.row) u.decision u.row).view :=
    fun hun _ => ⟨hun.unmistaken rfl rfl, w.clock, hdecided⟩
  rw [Hook.recordFailure, hnew]
  simp only [Bool.not_false, if_true]
  rw [Hook.exec_bind_ok (Hook.exec_recordInitialErrorStatus hw hctx hmap hview')]
  rcases hw.commits_or_applied with hfate | hfate
  · have hfate' := (World.fate_decided w (u.context u.row) u.decision u.row).trans hfate
    refine ⟨_, _, _, Hook.exec_bind_ok (Hook.exec_commit hfate'), hrecord, rfl, rfl, rfl, ?_,
      hmoves⟩
    exact ⟨fun _ => hfate, fun _ => ⟨_, rfl⟩⟩
  · have hfate' := (World.fate_decided w (u.context u.row) u.decision u.row).trans hfate
    refine ⟨_, _, _, Hook.exec_bind_error (Hook.exec_commit_applied hfate'), hrecord, rfl, rfl,
      rfl, ?_, hmoves⟩
    simp [hfate]

/-- Acting on the decision leaves a database that holds it, if the transaction is not lost. -/
theorem exec_recordDecision_unsent {s : Invocation} {w : World} (h : u.Records s.attempt w.db)
    (hown : w.own = []) (hw : w.Up) {row : TaskExecution}
    (hmap : s.identityMap u.row.id = some row) (hrow : w.db.execution? u.row.id = some row)
    {decision : RetryDecision}
    (hdecision : decision = u.settings.resolveRetryDecision (u.context row) s.attempt) :
  ∃ r s' w', Hook.exec (Hook.recordDecision (u.context row) decision) s w = ((r, s'), w') ∧
    u.Records s'.attempt w'.db ∧ w'.sent = w.sent ∧ s'.result = s.result ∧ w'.plan = w.plan ∧
    ((∃ a, r = .ok a) ↔ w.fate = .commits) ∧
    (u.Unmistakable → u.Unmistaken s.attempt → u.Unmistaken s'.attempt ∧ u.Decided w'.db)
  := by
  have hctx : (u.context row).task = some row := rfl
  obtain ⟨row', hrow', htenant, hmax, hle, hrecords⟩ := h.row
  obtain rfl : row' = row := Option.some_injective _ (hrow'.symm.trans hrow)
  have hallowed := retryAllowed_of_row htenant hmax hle s.attempt
  have hrecorded := u.settings.retryAlreadyRecorded_resolveRetryDecision s.attempt hctx
  rw [← hdecision] at hallowed hrecorded
  rw [Hook.recordDecision, hallowed, if_neg Bool.false_ne_true]
  cases hnew : decision.retryAlreadyRecorded with
  | true => apply exec_recordFailure_unsent_of_recorded h hown hw hrow hrecorded hnew
  | false =>
      obtain ⟨hdb, rfl⟩ := hrecords.resolve_left (by simp [← hrecorded, hnew])
      obtain rfl : decision = u.decision := by
        rw [hdecision]
        apply u.settings.resolveRetryDecision_of_new
        apply hrecorded.symm.trans hnew
      apply exec_recordFailure_unsent_of_new hown hw hmap hdb hnew

/-- A transaction that is lost moves nothing but the record. -/
theorem Moves.of_lost {s s' : Invocation} {db : Database} {k : ℕ}
    (hunmistaken : u.Unmistakable → u.Unmistaken s.attempt → u.Unmistaken s'.attempt)
    (hresult : s'.result = s.result) :
  u.Moves (.lost k) s db s' db
  where
  unmistaken := hunmistaken
  decided _ _ hfate := absurd rfl (hfate k)
  lost _ _ := rfl
  result _ _ := by simp [hresult]

/-- The session of a pass whose transaction is not lost leaves a database that holds the decision
of the call at most once. -/
theorem exec_errorSession_unsent_of_up {s : Invocation} {w : World} (h : u.State s w)
    (hown : w.own = []) (hmap : s.identityMap u.row.id = none) (hw : w.Up) :
  ∃ r s' w', Hook.exec (Hook.errorSession u.settings u.message u.exception u.row.id) s w
      = ((r, s'), w') ∧ u.State s' w' ∧ w'.plan = w.plan ∧
      ((∃ a, r = .ok a) ↔ w.fate = .commits) ∧ u.Moves w.fate s w.db s' w'.db
  := by
  have hview : w.view = w.db := by rw [World.view, hown, Database.view_nil]
  obtain ⟨row, hrow, htenant, hmax, hle, hrecords⟩ := h.records.row
  have hview' : w.view.execution? u.row.id = some row := by rwa [hview]
  have hcontext : u.context row = .ofRow u.settings u.message u.exception u.row.id row := rfl
  have hctx : (u.context row).task = some row := rfl
  have hid : row.id = u.row.id := Database.id_of_execution? hrow
  have hlost (k : ℕ) : w.fate ≠ .lost k := by
    rcases hw.commits_or_applied with hfate | hfate
    · simp [hfate]
    · simp [hfate]
  obtain ⟨r, s', w', hrun, hrecords', hsent, hresult, hplan, hr, hmoves⟩ :=
    exec_recordDecision_unsent (s := s.keep row) h.records hown hw
      (Invocation.identityMap_keep_of_id s row hid) hrow rfl
  simp only [Invocation.attempt_keep, Invocation.result_keep] at hrun hresult hmoves
  rw [Hook.exec_errorSession hw u.settings u.message u.exception hmap hview' hcontext rfl]
  have hmoves' (s'' : Invocation) (hattempt : s''.attempt = s'.attempt)
      (hresult' : s''.result = { s.result with
        shadowRetry := s.result.shadowRetry || (decide (w.fate = .commits) &&
          (u.settings.resolveRetryDecision (u.context row) s.attempt).retryShadowed) }) :
      u.Moves w.fate s w.db s'' w'.db := by
    constructor
    · intro hun hnot
      rw [hattempt]
      exact (hmoves hun hnot).1
    · intro hun hnot _
      exact (hmoves hun hnot).2
    · intro k hfate
      exact absurd hfate (hlost k)
    · intro row' hrow'
      obtain rfl : row' = row := Option.some_injective _ (hrow'.symm.trans hrow)
      rw [hresult', u.settings.retryShadowed_resolveRetryDecision s.attempt hctx,
        u.settings.retryShadowed_resolveRetryDecision {} hctx]
  cases r with
  | error e =>
      have hfate : w.fate ≠ .commits := by simpa using hr
      refine ⟨_, _, _, Hook.exec_bind_error hrun, ⟨hrecords', hsent.trans h.sent, ?_⟩, hplan, ?_,
        hmoves' s' rfl ?_⟩
      · rw [hresult]
        apply h.error
      · rw [← hr]
      · simp [hresult, hfate]
  | ok emitted =>
      have hfate : w.fate = .commits := hr.mp ⟨emitted, rfl⟩
      rw [Hook.exec_bind_ok hrun]
      split
      case isTrue hshadowed =>
        refine ⟨_, _, _, rfl, ⟨hrecords', hsent.trans h.sent, ?_⟩, hplan, ?_, hmoves' _ rfl ?_⟩
        · change s'.result.error = _
          rw [hresult]
          apply h.error
        · rw [← hr]
        · simp [hshadowed, hfate, hresult]
      case isFalse hshadowed =>
        refine ⟨_, _, _, rfl, ⟨hrecords', hsent.trans h.sent, ?_⟩, hplan, ?_, hmoves' s' rfl ?_⟩
        · rw [hresult]
          apply h.error
        · rw [← hr]
        · simp [hshadowed, hresult]

/-- The session of a pass whose transaction is lost moves nothing but the record. -/
theorem exec_errorSession_unsent_of_lost {s : Invocation} {w : World} (h : u.State s w)
    (hown : w.own = []) (hmap : s.identityMap u.row.id = none) {k : ℕ} (hfate : w.fate = .lost k) :
  ∃ r s' w', Hook.exec (Hook.errorSession u.settings u.message u.exception u.row.id) s w
      = ((r, s'), w') ∧ u.State s' w' ∧ w'.plan = w.plan ∧
      ((∃ a, r = .ok a) ↔ w.fate = .commits) ∧ u.Moves w.fate s w.db s' w'.db
  := by
  have hview : w.view = w.db := by rw [World.view, hown, Database.view_nil]
  obtain ⟨row, hrow, -⟩ := h.records.row
  have hview' : w.view.execution? u.row.id = some row := by rwa [hview]
  cases k with
  | zero =>
      refine ⟨.error .driver, s, w, ?_, h, rfl, by simp [hfate], ?_⟩
      · rw [Hook.errorSession, Hook.getTaskExecution,
          Hook.exec_bind_error (Hook.exec_bind_error (Hook.exec_execute_lost_zero hfate _))]
      · rw [hfate]
        apply Moves.of_lost (fun _ => id) rfl
  | succ k =>
      obtain ⟨s', hget, hattempt, hresult⟩ :=
        Hook.exec_getTaskExecution_lost hfate (Or.inl hmap) hview'
      obtain ⟨e, s'', w', hrun, hleft, hagrees⟩ :=
        Hook.doomed_recordDecision (u.context row)
          (u.settings.resolveRetryDecision (u.context row) s.attempt) s.attempt s.result s'
          { w with fate := .lost k } k ⟨hresult, Or.inl hattempt⟩ rfl
      rw [Hook.errorSession, Hook.exec_bind_ok hget, Hook.exec_bind_ok (Hook.exec_get _ _),
        hattempt]
      refine ⟨_, _, _, Hook.exec_bind_error hrun, ⟨?_, hagrees.sent.trans h.sent, ?_⟩,
        hagrees.plan, by simp [hfate], ?_⟩
      · rw [hagrees.db]
        apply h.records.recordedOrLeft hrow hleft
      · rw [hleft.1]
        apply h.error
      · rw [hagrees.db, hfate]
        apply Moves.of_lost _ hleft.1
        intro hun hnot
        apply h.records.unmistaken_of_left hun hnot hrow hleft

/-- The session of a pass leaves a database that holds the decision of the call at most
once. -/
theorem exec_errorSession_unsent {s : Invocation} {w : World} (h : u.State s w)
    (hown : w.own = []) (hmap : s.identityMap u.row.id = none) :
  ∃ r s' w', Hook.exec (Hook.errorSession u.settings u.message u.exception u.row.id) s w
      = ((r, s'), w') ∧ u.State s' w' ∧ w'.plan = w.plan ∧
      ((∃ a, r = .ok a) ↔ w.fate = .commits) ∧ u.Moves w.fate s w.db s' w'.db
  := by
  by_cases hw : w.Up
  · apply exec_errorSession_unsent_of_up h hown hmap hw
  · obtain ⟨k, hfate⟩ := World.lost_of_not_up hw
    apply exec_errorSession_unsent_of_lost h hown hmap hfate

/-- A pass returns when its transaction commits. -/
theorem exec_errorPass_unsent {s : Invocation} {w : World} (h : u.State s w) :
  ∃ r s' w', Hook.exec (Hook.errorPass u.settings u.message u.exception u.row.id) s w
      = ((r, s'), w') ∧ u.State s' w' ∧ w'.plan = (fun p => w.plan (p + 1)) ∧
      ((∃ a, r = .ok a) ↔ (w.plan 0).fate 0 = .commits) ∧
      u.Moves ((w.plan 0).fate 0) s w.db s' w'.db
  := by
  have hopened : u.State { s with identityMap := fun _ => none } w.opened :=
    ⟨h.records, h.sent, h.error⟩
  obtain ⟨r, s', w', hrun, hstate, hplan, hr, hmoves⟩ := exec_errorSession_unsent hopened rfl rfl
  change _ ↔ (w.plan 0).fate 0 = .commits at hr
  have hmoves' : u.Moves ((w.plan 0).fate 0) s w.db s' w'.db :=
    ⟨hmoves.unmistaken, hmoves.decided, hmoves.lost, hmoves.result⟩
  have hsession := Hook.exec_withSession (s := s) (w := w)
    (Hook.errorSession u.settings u.message u.exception u.row.id)
  rw [hrun] at hsession
  cases r with
  | error e =>
      refine ⟨.error e, s', w'.closed, ?_, ⟨hstate.records, hstate.sent, hstate.error⟩, hplan, ?_,
        hmoves'⟩
      · rw [Hook.errorPass, Hook.exec_bind_error hsession]
      · simpa using hr
  | ok emitted =>
      obtain ⟨status, statusMsg⟩ := emitted
      refine ⟨.ok (), s', w'.closed.published (statusEvent u.settings u.message status
        (some statusMsg) (some s!"{u.exception.typeName}: {u.settings.text u.exception}")),
        ?_, ?_, ?_, ?_,
          ?_⟩
      · rw [Hook.errorPass, Hook.exec_bind_ok hsession]
        apply Hook.exec_emitStatusEvent
      · constructor
        · rw [World.db_published]
          apply hstate.records
        · rw [World.sent_published]
          apply hstate.sent
        · apply hstate.error
      · rw [World.plan_published]
        apply hplan
      · simpa using hr
      · rw [World.db_published]
        apply hmoves'

/-- Every call leaves a database that holds its decision at most once, and neither sends a
message nor leaves the outcome to a receiver. -/
theorem exec_createDbRetry_unsent (n : ℕ) {s : Invocation} {w : World} (h : u.State s w) :
  ∃ r s' w', Hook.exec (Hook.createDbRetry (n + 1)
      (Hook.errorPass u.settings u.message u.exception u.row.id)) s w = ((r, s'), w') ∧
    u.State s' w'
  := by
  induction n generalizing s w with
  | zero =>
      obtain ⟨r, s', w', hrun, hstate, -⟩ := exec_errorPass_unsent h
      exact ⟨r, s', w', hrun, hstate⟩
  | succ n ih =>
      obtain ⟨r, s', w', hrun, hstate, -⟩ := exec_errorPass_unsent h
      cases r with
      | ok a => exact ⟨_, s', w', Hook.exec_createDbRetry_ok (n + 1) hrun, hstate⟩
      | error e =>
          rw [Hook.exec_createDbRetry_error n hrun]
          apply ih hstate

/-- The calls of an error hook are the calls of its passes. -/
theorem exec_onError_state {s : Invocation} {w : World} (h : u.State { s with attempt := {} } w) :
  ∃ r s' w', Hook.exec (Hook.onError u.settings u.message u.exception) s w = ((r, s'), w') ∧
    u.State s' w'
  := by
  obtain ⟨r, s', w', hrun, hstate⟩ := exec_createDbRetry_unsent 2 h
  refine ⟨r, s', w', ?_, hstate⟩
  rw [Hook.onError, u.execution]
  simp only []
  rw [Hook.modifyAttempt, Hook.exec_bind_ok (Hook.exec_modify _ _ _)]
  apply hrun

end UnsentCall

namespace Hook

/-- A call of `on_error` for an execution whose retries are not allowed sends nothing, leaves
the result to itself, and raises the retry count by at most one. -/
theorem exec_onError_unsent {settings : Settings} {message : TaskiqMessage}
    (exception : PyException) {i : UUID} {row : TaskExecution} (s : Invocation) {w : World}
    (hid : message.extractTaskExecutionId = some i) (hrow : w.db.execution? i = some row)
    (hrefused : ¬ (settings.retryGateAllows message.taskName row.tenantId = true ∧
      row.retryCount < row.maxRetries)) :
  ∃ r s' w', exec (onError settings message exception) s w = ((r, s'), w') ∧
    w'.sent = w.sent ∧ s'.result.error = s.result.error ∧
    ∃ row', w'.db.execution? i = some row' ∧
      (row'.retryCount = row.retryCount ∨ row'.retryCount = row.retryCount + 1)
  := by
  obtain rfl : row.id = i := Database.id_of_execution? hrow
  let u : UnsentCall :=
    { settings, message, exception, row
      db := w.db
      sent := w.sent
      result := s.result
      execution := hid
      found := hrow
      refused := hrefused }
  have hstate : u.State { s with attempt := {} } w := ⟨.untouched rfl, rfl, rfl⟩
  obtain ⟨r, s', w', hrun, hstate'⟩ := UnsentCall.exec_onError_state hstate
  refine ⟨r, s', w', hrun, hstate'.sent, hstate'.error, ?_⟩
  cases hstate'.records with
  | untouched hdb => exact ⟨row, by rw [hdb]; exact hrow, Or.inl rfl⟩
  | decided now hdb _ =>
      refine ⟨u.decidedRow now, by rw [hdb]; exact Database.execution?_decided now hrow, ?_⟩
      simp only [UnsentCall.decidedRow, TaskExecution.assign]
      split
      · exact Or.inr rfl
      · exact Or.inl rfl

end Hook

end WorkerTemplate
