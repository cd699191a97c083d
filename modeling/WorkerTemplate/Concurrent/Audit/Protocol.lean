import WorkerTemplate.Concurrent.Budget

/-!
# What a thread knows of the audit

A thread works on the attempt it has last recorded as pending or looked up, and a message it sends
is sent for this attempt.  An error hook marks an attempt as dispatched after it has sent the
message of the attempt, when it finds that the attempt was marked before, or when it finds a
pending attempt of an earlier call.
-/

namespace WorkerTemplate

/-- An attempt of an execution, by its number. -/
abbrev AttemptKey : Type := UUID × ℕ

/-- The attempt a row of the audit is about. -/
def TaskAttempt.key (row : TaskAttempt) : AttemptKey := (row.taskExecutionId, row.attemptNumber)

/-- The attempt an operation records as pending or looks up. -/
def Op.attempt? : Op → Option AttemptKey
  | .statement (.insertAttempt row) =>
      if row.dispatchResult = .pending then some row.key else none
  | .statement (.selectAttempt (.pendingOrDispatched i n)) => some (i, n)
  | _ => none

/-- Whether an operation was the sending of a message that was accepted. -/
def Entry.isAccepted : Entry → Bool
  | ⟨_, .kiq _, accepted, _⟩ => accepted
  | _ => false

/-- The attempt a thread works on after a history. -/
def attemptOf (t : ℕ) : List Entry → Option AttemptKey
  | [] => none
  | e :: h => if e.thread = t then e.op.attempt?.or (attemptOf t h) else attemptOf t h

/-- The attempts for which the broker has accepted a message. -/
def sentAttempts : List Entry → List AttemptKey
  | [] => []
  | e :: h =>
      if e.isAccepted then (attemptOf e.thread h).toList ++ sentAttempts h else sentAttempts h

/-- Every dispatched attempt of the audit is one whose message was accepted. -/
def AuditSound (w : Cluster) : Prop :=
  ∀ row ∈ w.db.attempts, row.dispatchResult = .dispatched → row.key ∈ sentAttempts w.history

instance (w : Cluster) : Decidable (AuditSound w) :=
  inferInstanceAs (Decidable (∀ _ ∈ _, _ → _))

/-- The pending attempt that an error hook finds when it records its own retry. -/
def Op.reconciled? : (o : Op) → o.Answer → Option AttemptKey
  | .statement (.selectAttempt (.pending _)), .ok (some row) => some row.key
  | _, _ => none

/-- A pending attempt that an error hook finds when it records its own retry is one whose
message was accepted. -/
def ReconcilesSent (w : Cluster) (o : Op) (r : o.Answer) : Prop :=
  ∀ key ∈ o.reconciled? r, key ∈ sentAttempts w.history

/-- The pending attempts that error hooks have found were ones whose messages had been
accepted. -/
def ReconciledSent : List Entry → Prop
  | [] => True
  | e :: h => (∀ key ∈ e.op.reconciled? e.answer, key ∈ sentAttempts h) ∧ ReconciledSent h

instance decidableReconciledSent : DecidablePred ReconciledSent
  | [] => isTrue trivial
  | e :: h =>
      have := decidableReconciledSent h
      inferInstanceAs (Decidable ((∀ key ∈ e.op.reconciled? e.answer, _) ∧ _))

namespace Audit

/-- What a thread knows of the audit. -/
structure Knowledge where
  /-- The attempt the thread works on. -/
  attempt : Option AttemptKey := none
  /-- Attempts whose messages were accepted. -/
  sent : List AttemptKey := []
  /-- The primary key of a committed row of the attempt. -/
  found : Option (Option ℕ) := none
  /-- The open transaction has inserted a row. -/
  inserted : Bool := false

/-- A new thread knows nothing. -/
def Knowledge.initial : Knowledge := {}

/-- What a thread knows after a lookup of an attempt. -/
def Knowledge.lookUp (c : Knowledge) (key : AttemptKey) :
    Except OperationalError (Option TaskAttempt) → Knowledge
  | .ok (some row) =>
      { c with
        attempt := some key
        sent := if row.dispatchResult = .dispatched then key :: c.sent else c.sent
        found := if c.inserted then none else some row.id }
  | _ => { c with attempt := some key, found := none }

/-- What a thread knows after an operation. -/
def Knowledge.next (c : Knowledge) : (o : Op) → o.Answer → Knowledge
  | .openSession, _ => { c with inserted := false }
  | .closeSession, _ => { c with inserted := false }
  | .commit, _ => { c with inserted := false }
  | .kiq _, accepted => if accepted then { c with sent := c.attempt.toList ++ c.sent } else c
  | .statement (.insertAttempt row), _ =>
      { c with
        attempt := if row.dispatchResult = .pending then some row.key else c.attempt
        found := none
        inserted := true }
  | .statement (.selectAttempt (.pendingOrDispatched i n)), r => c.lookUp (i, n) r
  | .statement (.selectAttempt (.pending _)), .ok (some row) =>
      { c with sent := row.key :: c.sent }
  | .statement (.selectAttempt (.pending _)), _ => c
  | .statement (.selectExecution _ _), _ => c
  | .statement (.updateExecution _ _), _ => c
  | .statement (.updateAttempt _ _), _ => c
  | .now, _ => c
  | .emit _ _, _ => c
  | .body _, _ => c

/-- An attempt that is found satisfies the query. -/
def Finds : (o : Op) → o.Answer → Prop
  | .statement (.selectAttempt filter), .ok (some row) => filter.holds row = true
  | _, _ => True

/-- The protocol of the audit: no row is inserted as dispatched, and only a committed row whose
message was accepted is marked. -/
def protocol : Protocol Op.Answer Knowledge where
  allows c o :=
    match o with
    | .statement (.insertAttempt row) => row.dispatchResult ≠ .dispatched
    | .statement (.updateAttempt id d) =>
        d = .dispatched ∧ c.found = some id ∧ ∃ key, c.attempt = some key ∧ key ∈ c.sent
    | _ => True
  moves c o r c' := Finds o r ∧ c' = c.next o r

end Audit

namespace Hook

open Audit

variable {α : Type} {s : Invocation} {c : Knowledge}

/-- A hook that keeps the protocol of the audit whatever its thread knows. -/
abbrev Audited (h : Hook α) : Prop := Maintains Audit.protocol (fun _ _ => True) h

theorem audited_perform {o : Op} (h : ∀ c, Audit.protocol.allows c o) :
  Audited (perform o)
  := by
  apply maintains_perform
  · intro _ c _
    apply h
  · intro _ _ _ _ _ _
    trivial

theorem audited_modify (f : Invocation → Invocation) :
  Audited (modify f)
  := maintains_modify (fun _ _ _ => trivial)

/-- Setting a status does not touch the audit. -/
theorem tracks_audit :
  Tracks Audit.protocol (fun _ _ => True)
  where
  openSession := audited_perform (fun _ => trivial)
  closeSession := audited_perform (fun _ => trivial)
  commit := audited_perform (fun _ => trivial)
  now := audited_perform (fun _ => trivial)
  select _ _ := audited_perform (fun _ => trivial)
  update _ _ := audited_perform (fun _ => trivial)
  emit _ _ := audited_perform (fun _ => trivial)
  identityMap _ _ _ _ := trivial

theorem audited_commit :
  Audited commit
  := maintains_commit tracks_audit.commit

/-- A thread that knows that the message of an attempt was accepted may mark the attempt. -/
theorem obeys_markTaskAttemptDispatched_audit {i : UUID} {n : ℕ} (hsent : (i, n) ∈ c.sent)
    (hinserted : c.inserted = false) :
  Obeys Audit.protocol (markTaskAttemptDispatched i n) (fun _ _ _ => True) s c
  := by
  rw [markTaskAttemptDispatched, getLatestPendingOrDispatchedTaskAttempt, obeys_bind, obeys_execute]
  use trivial
  rintro (e | _ | row) _ ⟨-, rfl⟩
  · trivial
  · trivial
  · rw [next_ok]
    simp only []
    split
    case isFalse => trivial
    case isTrue hpending =>
      rw [obeys_bind, obeys_execute]
      constructor
      · refine ⟨rfl, ?_, (i, n), rfl, ?_⟩
        · simp [Knowledge.next, Knowledge.lookUp, hinserted]
        · simp only [Knowledge.next, Knowledge.lookUp, hpending, reduceCtorEq, if_false]
          apply hsent
      · rintro (e | _) _ _
        · trivial
        · trivial

theorem obeys_markDispatched_audit {i : UUID} {n : ℕ} (hsent : (i, n) ∈ c.sent)
    (hinserted : c.inserted = false) (notFound : String) :
  Obeys Audit.protocol (markDispatched i n notFound) (fun _ _ _ => True) s c
  := by
  have hend : Audited (do
      commit
      modifyResult fun result => { result with error := some .noResultError }) := by
    apply audited_commit.bind
    intro _
    apply audited_modify
  apply (obeys_markTaskAttemptDispatched_audit hsent hinserted).bind_maintains
  intro marked
  apply Maintains.ite
  · apply (maintains_throw _).bind
    intro _
    apply hend
  · apply hend

/-- A thread sends the message of the attempt that the record of its call names. -/
def Sends (ctx : ErrorContext) (decision : RetryDecision) (s : Invocation) (c : Knowledge) : Prop :=
  c.attempt = some (ctx.taskExecutionId, s.attempt.attemptNumberOr decision.attemptNumber) ∧
    c.inserted = false

/-- A message is sent for an attempt, and the same attempt is marked. -/
theorem obeys_dispatchRetry_audit {ctx : ErrorContext} {decision : RetryDecision}
    (h : Sends ctx decision s c) :
  Obeys Audit.protocol (dispatchRetry ctx decision) (fun _ _ _ => True) s c
  := by
  obtain ⟨hattempt, hinserted⟩ := h
  rw [dispatchRetry, requeue, obeys_bind, obeys_perform]
  use trivial
  rintro requeued _ ⟨-, rfl⟩
  rw [next_ok]
  split
  case isTrue hrequeued =>
    rw [obeys_bind, obeys_get, next_ok]
    apply Obeys.bind_maintains
    · apply obeys_markDispatched_audit
      · simp [Knowledge.next, hrequeued, hattempt]
      · simpa [Knowledge.next, hrequeued] using hinserted
    · intro _
      apply maintains_pure
  case isFalse hrejected =>
    have hend : Audited (do
        commit
        pure (TaskStatus.failed, "Task failed (retry dispatch error)")) := by
      apply audited_commit.bind
      intro _
      apply maintains_pure
    apply (tracks_audit.updateTaskStatus _ _ _).bind _ s _ trivial
    intro _
    apply (audited_modify _).bind
    intro _
    cases ctx.task with
    | none => apply hend
    | some task =>
        apply Maintains.bind
        · apply maintains_execute
          apply audited_perform
          intro _
          simp [Audit.protocol]
        · intro _
          apply hend

/-- An attempt found as dispatched is one whose message was accepted; a pending one is
sent. -/
theorem obeys_recoverRetry_audit (hinserted : c.inserted = false) (ctx : ErrorContext)
    (decision : RetryDecision) :
  Obeys Audit.protocol (recoverRetry ctx decision) (fun _ _ _ => True) s c
  := by
  rw [recoverRetry, obeys_bind, obeys_get, next_ok, obeys_bind, getTaskAttemptDispatchState,
    getLatestPendingOrDispatchedTaskAttempt, obeys_execute]
  use trivial
  rintro (e | _ | row) _ ⟨hfinds, rfl⟩
  · trivial
  · trivial
  · rw [next_ok]
    simp only []
    split
    case isTrue hdispatched =>
      have hnumber : row.attemptNumber
          = s.attempt.attemptNumberOr decision.attemptNumber := by
        simp only [Finds, AttemptFilter.holds, Bool.and_eq_true, decide_eq_true_eq] at hfinds
        apply hfinds.1.2
      apply Obeys.bind_maintains
      · apply obeys_markDispatched_audit
        · simp [Knowledge.next, Knowledge.lookUp, hdispatched, hnumber]
        · apply hinserted
      · intro _
        apply maintains_pure
    case isFalse hpending =>
      rw [obeys_bind, obeys_commit]
      use trivial
      rintro (e | _) _ ⟨-, rfl⟩
      · trivial
      · apply obeys_dispatchRetry_audit
        exact ⟨rfl, rfl⟩

/-- A pending attempt that is found is one whose message was accepted. -/
theorem obeys_reconcilePending_audit (hinserted : c.inserted = false) (i : UUID) :
  Obeys Audit.protocol (reconcilePending i) (fun _ _ _ => True) s c
  := by
  rw [reconcilePending, obeys_bind, getLatestPendingTaskAttempt, obeys_execute]
  use trivial
  rintro (e | _ | row) _ ⟨hfinds, rfl⟩
  · trivial
  · trivial
  · rw [next_ok]
    simp only []
    apply Obeys.bind_maintains
    · apply obeys_markTaskAttemptDispatched_audit
      · simp only [Finds, AttemptFilter.holds, Bool.and_eq_true, decide_eq_true_eq] at hfinds
        simp [Knowledge.next, TaskAttempt.key, hfinds.1]
      · apply hinserted
    · intro marked
      apply Maintains.ite
      · apply maintains_throw
      · apply maintains_pure

theorem audited_recordTaskAttempt (i tenantId : UUID) (n : ℕ) (before after : TaskStatus)
    (errorDetail : Option String) {d : TaskDispatchResult} (h : d ≠ .dispatched) :
  Audited (recordTaskAttempt i tenantId n before after errorDetail d)
  := by
  apply maintains_execute
  apply audited_perform
  intro _
  apply h

theorem audited_recordInitialErrorStatus (ctx : ErrorContext) (decision : RetryDecision) :
  Audited (recordInitialErrorStatus ctx decision)
  := by
  apply (tracks_audit.updateTaskStatus _ _ _).bind
  intro _
  apply (audited_modify _).bind
  intro _
  cases ctx.task with
  | none => apply maintains_pure
  | some task =>
      apply Maintains.ite
      · apply audited_recordTaskAttempt
        split
        · simp
        · simp
      · apply Maintains.ite
        · apply (audited_modify _).bind
          intro _
          apply audited_recordTaskAttempt
          simp
        · apply maintains_pure

/-- A thread that has recorded a retry works on the attempt of the retry. -/
theorem obeys_recordInitialErrorStatus_audit {ctx : ErrorContext} {decision : RetryDecision}
    (htask : ctx.task.isSome) (hallowed : decision.retryAllowed = true) :
  Obeys Audit.protocol (recordInitialErrorStatus ctx decision)
    (fun r s' c' => r = .ok () → s'.attempt.attemptNumber = some decision.attemptNumber ∧
      c'.attempt = some (ctx.taskExecutionId, decision.attemptNumber)) s c
  := by
  obtain ⟨task, htask⟩ := Option.isSome_iff_exists.mp htask
  rw [recordInitialErrorStatus, obeys_bind]
  apply (tracks_audit.updateTaskStatus _ _ _ s c trivial).mono
  rintro (e | _) s' c' _
  · rintro ⟨⟩
  · rw [next_ok]
    simp only [htask, hallowed, Bool.not_true, Bool.and_false, Bool.false_eq_true, if_false,
      if_true]
    rw [obeys_bind, modifyAttempt, obeys_modify, next_ok, obeys_bind, modifyAttempt, obeys_modify,
      next_ok, recordTaskAttempt, obeys_execute]
    use by simp [Audit.protocol]
    rintro (e | _) _ ⟨-, rfl⟩
    · rintro ⟨⟩
    · intro _
      exact ⟨rfl, rfl⟩

/-- A pass keeps the protocol of the audit when its transaction has inserted no row yet. -/
theorem obeys_recordDecision_audit (hinserted : c.inserted = false) {ctx : ErrorContext}
    {decision : RetryDecision} (htask : decision.retryAllowed = true → ctx.task.isSome) :
  Obeys Audit.protocol (recordDecision ctx decision) (fun _ _ _ => True) s c
  := by
  rw [recordDecision]
  split
  case isTrue hallowed =>
    split
    · apply obeys_recoverRetry_audit hinserted
    · rw [recordRetry, obeys_bind]
      apply (obeys_reconcilePending_audit hinserted _).mono
      rintro (e | _) s' c' _
      · trivial
      · rw [next_ok, obeys_bind]
        apply (obeys_recordInitialErrorStatus_audit (htask hallowed) hallowed).mono
        rintro (e | _) s'' c'' hrecorded
        · trivial
        · obtain ⟨hnumber, hattempt⟩ := hrecorded rfl
          rw [next_ok, obeys_bind, obeys_commit]
          use trivial
          rintro (e | _) _ ⟨-, rfl⟩
          · trivial
          · apply obeys_dispatchRetry_audit
            refine ⟨?_, rfl⟩
            rw [OnErrorAttempt.attemptNumberOr_of_eq hnumber]
            apply hattempt
  case isFalse =>
    have hend : Audited (do
        commit
        pure (decision.status, decision.statusMsg)) := by
      apply audited_commit.bind
      intro _
      apply maintains_pure
    apply Maintains.ite _ _ s c trivial
    · apply (audited_recordInitialErrorStatus ctx decision).bind
      intro _
      apply hend
    · apply hend

/-- A pass keeps the protocol of the audit in a session that was just opened. -/
theorem obeys_errorSession_audit (hinserted : c.inserted = false) (settings : Settings)
    (message : TaskiqMessage) (exception : PyException) (i : UUID) :
  Obeys Audit.protocol (errorSession settings message exception i) (fun _ _ _ => True) s c
  := by
  -- Loading the execution does not touch the audit.
  have hload : Maintains Audit.protocol (fun _ c' => c'.inserted = false)
      (getTaskExecution i none) := by
    intro s c hinserted
    apply obeys_getTaskExecution trivial
    · rintro e _ ⟨-, rfl⟩
      apply hinserted
    · rintro _ ⟨-, rfl⟩
      apply hinserted
    · rintro row _ ⟨-, rfl⟩
      exact ⟨fun _ _ => hinserted, fun _ => hinserted⟩
  rw [errorSession, obeys_bind]
  apply (hload s c hinserted).mono
  rintro (e | task) s' c' hinserted'
  · trivial
  · rw [next_ok, obeys_bind, obeys_get, next_ok]
    apply Obeys.bind_maintains
    · apply obeys_recordDecision_audit hinserted'
      apply Settings.task_isSome_of_retryAllowed
    · intro emitted
      apply Maintains.ite
      · apply (audited_modify _).bind
        intro _
        apply maintains_pure
      · apply maintains_pure

theorem audited_onError (settings : Settings) (message : TaskiqMessage)
    (exception : PyException) :
  Audited (onError settings message exception)
  := by
  have hsession (i : UUID) :
      Audited (withSession (errorSession settings message exception i)) := by
    intro s c _
    apply obeys_withSession trivial
    rintro _ ⟨-, rfl⟩
    apply (obeys_errorSession_audit rfl settings message exception i).mono
    intro _ _ _ _
    exact ⟨trivial, fun _ _ => trivial⟩
  rw [onError]
  split
  · apply maintains_pure
  · apply (audited_modify _).bind
    intro _
    apply Maintains.createDbRetry
    apply (hsession _).bind
    rintro ⟨status, statusMsg⟩
    apply maintains_emitStatusEvent tracks_audit.emit

end Hook

/-! ### Rows of the audit -/

namespace Audit

variable {db : Database} {sent sent' : List AttemptKey} {id : Option ℕ} {key : AttemptKey}

/-- A row with a primary key is about an attempt. -/
def HasRow (db : Database) (id : Option ℕ) (key : AttemptKey) : Prop :=
  ∃ row ∈ db.attempts, row.id = id ∧ row.key = key

/-- The rows of a database have different primary keys, and the dispatched ones are about
attempts in `sent`. -/
structure SoundRows (sent : List AttemptKey) (db : Database) : Prop where
  nodup : (db.attempts.map (·.id)).Nodup
  dispatched : ∀ row ∈ db.attempts, row.dispatchResult = .dispatched → row.key ∈ sent

/-- An effect inserts no row as dispatched, and only marks committed rows about attempts in
`sent`. -/
def SoundEffect (sent : List AttemptKey) (db : Database) : Effect → Prop
  | .updateExecution _ _ => True
  | .insertAttempt row => row.dispatchResult ≠ .dispatched
  | .updateAttempt id d => d = .dispatched ∧ ∃ key ∈ sent, HasRow db id key

/-- No effect takes a row away. -/
theorem HasRow.apply (h : HasRow db id key) (e : Effect) :
  HasRow (db.apply e) id key
  := by
  obtain ⟨row, hrow, hid, hkey⟩ := h
  cases e with
  | updateExecution i c => exact ⟨row, hrow, hid, hkey⟩
  | insertAttempt row' => exact ⟨row, by simp [hrow], hid, hkey⟩
  | updateAttempt j d =>
      refine ⟨if row.id = j then row.resolve d else row, ?_, ?_, ?_⟩
      · rw [Database.attempts_updateAttempt]
        apply List.mem_map_of_mem hrow
      · split
        · apply hid
        · apply hid
      · split
        · apply hkey
        · apply hkey

theorem HasRow.view (h : HasRow db id key) (es : List Effect) :
  HasRow (db.view es) id key
  := by
  induction es generalizing db with
  | nil => apply h
  | cons e es ih => apply ih (h.apply e)

/-- A row a transaction reads is committed when the transaction has inserted none. -/
theorem HasRow.of_view {es : List Effect} (h : HasRow (db.view es) id key)
    (hes : ∀ row, .insertAttempt row ∉ es) :
  HasRow db id key
  := by
  induction es generalizing db with
  | nil => apply h
  | cons e es ih =>
      obtain ⟨row, hrow, hid, hkey⟩ := ih h (fun row hrow => hes row (List.mem_cons_of_mem _ hrow))
      cases e with
      | updateExecution i c => exact ⟨row, hrow, hid, hkey⟩
      | insertAttempt row' => exact absurd (List.mem_cons_self ..) (hes row')
      | updateAttempt j d =>
          rw [Database.attempts_updateAttempt] at hrow
          obtain ⟨row', hrow', rfl⟩ := List.mem_map.mp hrow
          refine ⟨row', hrow', ?_, ?_⟩
          · rw [← hid]
            split
            · rfl
            · rfl
          · rw [← hkey]
            split
            · rfl
            · rfl

theorem SoundEffect.mono {db' : Database} {e : Effect} (h : SoundEffect sent db e)
    (hsent : ∀ key ∈ sent, key ∈ sent')
    (hrows : ∀ id key, HasRow db id key → HasRow db' id key) :
  SoundEffect sent' db' e
  := by
  cases e with
  | updateExecution i c => trivial
  | insertAttempt row => apply h
  | updateAttempt id d =>
      obtain ⟨hd, key, hkey, hrow⟩ := h
      exact ⟨hd, key, hsent key hkey, hrows id key hrow⟩

theorem SoundRows.mono (h : SoundRows sent db) (hsent : ∀ key ∈ sent, key ∈ sent') :
  SoundRows sent' db
  where
  nodup := h.nodup
  dispatched row hrow hdispatched := hsent _ (h.dispatched row hrow hdispatched)

/-- A sound effect keeps the rows sound. -/
theorem SoundRows.apply (h : SoundRows sent db) {e : Effect} (he : SoundEffect sent db e) :
  SoundRows sent (db.apply e)
  := by
  cases e with
  | updateExecution i c => exact ⟨h.nodup, h.dispatched⟩
  | insertAttempt row =>
      constructor
      · rw [Database.attempts_insertAttempt, List.map_append, List.nodup_append]
        refine ⟨h.nodup, List.nodup_singleton _, ?_⟩
        intro id hid id' hid'
        obtain ⟨row', hrow', rfl⟩ := List.mem_map.mp hid
        rw [List.map_singleton, List.mem_singleton] at hid'
        rw [hid']
        apply Database.ne_freshAttemptId db hrow'
      · intro row' hrow' hdispatched
        rw [Database.attempts_insertAttempt, List.mem_append, List.mem_singleton] at hrow'
        rcases hrow' with hrow' | rfl
        · apply h.dispatched row' hrow' hdispatched
        · exact absurd hdispatched he
  | updateAttempt id d =>
      obtain ⟨rfl, key, hkey, row₀, hrow₀, hid₀, hkey₀⟩ := he
      constructor
      · rw [Database.attempts_updateAttempt, List.map_map]
        convert h.nodup using 2
        funext row
        simp only [Function.comp]
        split
        · rfl
        · rfl
      · intro row hrow hdispatched
        rw [Database.attempts_updateAttempt] at hrow
        obtain ⟨row', hrow', rfl⟩ := List.mem_map.mp hrow
        split at hdispatched
        case isFalse hne =>
          rw [if_neg hne]
          apply h.dispatched row' hrow' hdispatched
        case isTrue heq =>
          have hsame : row' = row₀ :=
            List.inj_on_of_nodup_map h.nodup hrow' hrow₀ (heq.trans hid₀.symm)
          rw [if_pos heq, hsame]
          change row₀.key ∈ sent
          rwa [hkey₀]

theorem SoundRows.view (h : SoundRows sent db) {es : List Effect}
    (hes : ∀ e ∈ es, SoundEffect sent db e) :
  SoundRows sent (db.view es)
  := by
  induction es generalizing db with
  | nil => apply h
  | cons e es ih =>
      apply ih
      · apply h.apply
        apply hes e (List.mem_cons_self ..)
      · intro e' he'
        apply (hes e' (List.mem_cons_of_mem _ he')).mono
        · intro key hkey
          apply hkey
        · intro id key hrow
          apply hrow.apply e

end Audit

end WorkerTemplate
