import WorkerTemplate.Concurrent.Hooks

/-!
# Hooks that sustain what a session knows

A hook that raises gives up what its session knows, and keeps only what does not depend on
the session.  A part of a session sustains its knowledge when it still has it where it
returns.  The rules follow the syntax of hooks, up to the hook that runs after an error.
-/

namespace WorkerTemplate

namespace Hook

variable {α β σ : Type} {P : Protocol Op.Answer σ} {base I : Invocation → σ → Prop}

/-- From `base` and `I` a part of a session keeps `base` however it ends, and `I` where it
returns. -/
def Sustains (P : Protocol Op.Answer σ) (base I : Invocation → σ → Prop) (h : Hook α) : Prop :=
  ∀ s c, base s c → I s c →
    Obeys P h (fun r s' c' => base s' c' ∧ ∀ a, r = .ok a → I s' c') s c

/-! ### The rules -/

theorem sustains_pure (a : α) :
  Sustains P base I (pure a)
  := fun _ _ hbase hI => ⟨hbase, fun _ _ => hI⟩

theorem sustains_throw (e : OperationalError) :
  Sustains P base I (throw e : Hook α)
  := fun _ _ hbase _ => ⟨hbase, by rintro a ⟨⟩⟩

theorem sustains_get :
  Sustains P base I (get : Hook Invocation)
  := fun _ _ hbase hI => ⟨hbase, fun _ _ => hI⟩

theorem sustains_modify {f : Invocation → Invocation} (hbase : ∀ s c, base s c → base (f s) c)
    (hI : ∀ s c, I s c → I (f s) c) :
  Sustains P base I (modify f : Hook PUnit)
  := fun s c hs hIs => ⟨hbase s c hs, fun _ _ => hI s c hIs⟩

theorem sustains_perform {o : Op} (hallows : ∀ s c, base s c → I s c → P.allows c o)
    (hmoves : ∀ s c r c', base s c → I s c → P.moves c o r c' → base s c' ∧ I s c') :
  Sustains P base I (perform o)
  := by
  intro s c hbase hI
  rw [obeys_perform]
  use hallows s c hbase hI
  intro r c' hr
  obtain ⟨hbase', hI'⟩ := hmoves s c r c' hbase hI hr
  exact ⟨hbase', fun _ _ => hI'⟩

/-- A statement that fails keeps what does not depend on the session. -/
theorem sustains_execute {st : Statement}
    (hallows : ∀ s c, base s c → I s c → P.allows c (.statement st))
    (hok : ∀ s c a c', base s c → I s c → P.moves c (.statement st) (.ok a) c' →
      base s c' ∧ I s c')
    (herror : ∀ s c e c', base s c → P.moves c (.statement st) (.error e) c' → base s c') :
  Sustains P base I (execute st)
  := by
  intro s c hbase hI
  rw [obeys_execute]
  use hallows s c hbase hI
  rintro (e | a) c' hr
  · exact ⟨herror s c e c' hbase hr, by rintro a ⟨⟩⟩
  · obtain ⟨hbase', hI'⟩ := hok s c a c' hbase hI hr
    exact ⟨hbase', fun _ _ => hI'⟩

theorem sustains_commit (hallows : ∀ c, P.allows c .commit)
    (hok : ∀ s c c', base s c → I s c → P.moves c .commit (.ok ()) c' → base s c' ∧ I s c')
    (herror : ∀ s c e c', base s c → P.moves c .commit (.error e) c' → base s c') :
  Sustains P base I commit
  := by
  intro s c hbase hI
  rw [obeys_commit]
  use hallows c
  rintro (e | _) c' hr
  · exact ⟨herror s c e c' hbase hr, by rintro a ⟨⟩⟩
  · obtain ⟨hbase', hI'⟩ := hok s c c' hbase hI hr
    exact ⟨hbase', fun _ _ => hI'⟩

theorem Sustains.bind {h : Hook α} {f : α → Hook β} (hh : Sustains P base I h)
    (hf : ∀ a, Sustains P base I (f a)) :
  Sustains P base I (h >>= f)
  := by
  intro s c hbase hI
  rw [obeys_bind]
  apply (hh s c hbase hI).mono
  rintro (e | a) s' c' ⟨hbase', hI'⟩
  · exact ⟨hbase', by rintro a ⟨⟩⟩
  · apply hf a s' c' hbase' (hI' a rfl)

theorem Sustains.ite {p : Prop} [Decidable p] {h h' : Hook α} (hh : Sustains P base I h)
    (hh' : Sustains P base I h') :
  Sustains P base I (if p then h else h')
  := by
  split
  · apply hh
  · apply hh'

/-- A session begins with what is known when it is opened, and leaves what does not depend on
it. -/
theorem Sustains.withSession {body : Hook α} (hbody : Sustains P base I body)
    (hopen : ∀ s c, base s c → P.allows c .openSession ∧ ∀ c', P.moves c .openSession () c' →
      base { s with identityMap := fun _ => none } c' ∧
        I { s with identityMap := fun _ => none } c')
    (hclose : ∀ s c, base s c → P.allows c .closeSession ∧ ∀ c', P.moves c .closeSession () c' →
      base s c') :
  Maintains P base (withSession body)
  := by
  intro s c hbase
  obtain ⟨hallows, hmoves⟩ := hopen s c hbase
  apply obeys_withSession hallows
  intro c' hc'
  obtain ⟨hbase', hI'⟩ := hmoves c' hc'
  apply (hbody _ c' hbase' hI').mono
  rintro r s' c'' ⟨hbase'', -⟩
  apply hclose s' c'' hbase''

/-! ### After an error -/

/-- The operations of a hook that runs after an error sustain what its session knows of an
execution. -/
structure Errs (P : Protocol Op.Answer σ) (base I : Invocation → σ → Prop) (i : UUID) : Prop where
  openSession : ∀ s c, base s c → P.allows c .openSession ∧
    ∀ c', P.moves c .openSession () c' → base { s with identityMap := fun _ => none } c' ∧
      I { s with identityMap := fun _ => none } c'
  closeSession : ∀ s c, base s c → P.allows c .closeSession ∧
    ∀ c', P.moves c .closeSession () c' → base s c'
  commit : Sustains P base I commit
  load : Sustains P base I (getTaskExecution i none)
  update : ∀ status fields, Sustains P base I (updateTaskStatus i status fields)
  select : ∀ filter, Sustains P base I (execute (.selectAttempt filter))
  insert : ∀ row, Sustains P base I (execute (.insertAttempt row))
  resolve : ∀ id d, Sustains P base I (execute (.updateAttempt id d))
  kiq : ∀ message, Sustains P base I (perform (.kiq message))
  emit : ∀ room event, Maintains P base (perform (.emit room event))
  attempt : ∀ (f : OnErrorAttempt → OnErrorAttempt) (s : Invocation) (c : σ),
    (base s c → base { s with attempt := f s.attempt } c) ∧
      (I s c → I { s with attempt := f s.attempt } c)
  result : ∀ (f : TaskiqResult → TaskiqResult) (s : Invocation) (c : σ),
    (base s c → base { s with result := f s.result } c) ∧
      (I s c → I { s with result := f s.result } c)

namespace Errs

variable {i : UUID} (h : Errs P base I i) {ctx : ErrorContext} {decision : RetryDecision}

include h

theorem modifyAttempt (f : OnErrorAttempt → OnErrorAttempt) :
  Sustains P base I (modifyAttempt f)
  := sustains_modify (fun s c => (h.attempt f s c).1) (fun s c => (h.attempt f s c).2)

theorem modifyResult (f : TaskiqResult → TaskiqResult) :
  Sustains P base I (modifyResult f)
  := sustains_modify (fun s c => (h.result f s c).1) (fun s c => (h.result f s c).2)

theorem markTaskAttemptDispatched (j : UUID) (n : ℕ) :
  Sustains P base I (markTaskAttemptDispatched j n)
  := by
  apply (h.select _).bind
  rintro (_ | attempt)
  · apply sustains_pure
  · apply Sustains.ite
    · apply (h.resolve _ _).bind
      intro _
      apply sustains_pure
    · apply sustains_pure

theorem markDispatched (j : UUID) (n : ℕ) (notFound : String) :
  Sustains P base I (markDispatched j n notFound)
  := by
  apply (h.markTaskAttemptDispatched j n).bind
  intro marked
  apply Sustains.ite
  · apply (sustains_throw _).bind
    intro _
    apply h.commit.bind
    intro _
    apply h.modifyResult
  · apply h.commit.bind
    intro _
    apply h.modifyResult

theorem recordInitialErrorStatus (hctx : ctx.taskExecutionId = i) :
  Sustains P base I (recordInitialErrorStatus ctx decision)
  := by
  rw [Hook.recordInitialErrorStatus, hctx]
  apply (h.update _ _).bind
  intro _
  apply (h.modifyAttempt _).bind
  intro _
  cases ctx.task with
  | none => apply sustains_pure
  | some task =>
      apply Sustains.ite
      · apply h.insert
      · apply Sustains.ite
        · apply (h.modifyAttempt _).bind
          intro _
          apply h.insert
        · apply sustains_pure

theorem dispatchRetry (hctx : ctx.taskExecutionId = i) :
  Sustains P base I (dispatchRetry ctx decision)
  := by
  have hend : Sustains P base I (do
      Hook.commit
      pure (TaskStatus.failed, "Task failed (retry dispatch error)")) := by
    apply h.commit.bind
    intro _
    apply sustains_pure
  rw [Hook.dispatchRetry, hctx]
  apply (h.kiq _).bind
  intro requeued
  apply Sustains.ite
  · apply sustains_get.bind
    intro s
    apply (h.markDispatched _ _ _).bind
    intro _
    apply sustains_pure
  · apply (h.update _ _).bind
    intro _
    apply (h.modifyAttempt _).bind
    intro _
    cases ctx.task with
    | none => apply hend
    | some task =>
        apply (h.insert _).bind
        intro _
        apply hend

theorem recoverRetry (hctx : ctx.taskExecutionId = i) :
  Sustains P base I (recoverRetry ctx decision)
  := by
  apply sustains_get.bind
  intro s
  apply (h.select _).bind
  rintro (_ | attempt)
  · apply sustains_throw
  · apply Sustains.ite
    · apply (h.markDispatched _ _ _).bind
      intro _
      apply sustains_pure
    · apply h.commit.bind
      intro _
      apply h.dispatchRetry hctx

theorem reconcilePending (j : UUID) :
  Sustains P base I (reconcilePending j)
  := by
  apply (h.select _).bind
  rintro (_ | attempt)
  · apply sustains_pure
  · apply (h.markTaskAttemptDispatched j _).bind
    intro marked
    apply Sustains.ite
    · apply sustains_throw
    · apply sustains_pure

theorem recordDecision (hctx : ctx.taskExecutionId = i) :
  Sustains P base I (recordDecision ctx decision)
  := by
  have hend : Sustains P base I (do
      Hook.commit
      pure (decision.status, decision.statusMsg)) := by
    apply h.commit.bind
    intro _
    apply sustains_pure
  rw [Hook.recordDecision]
  apply Sustains.ite
  · apply Sustains.ite
    · apply h.recoverRetry hctx
    · apply (h.reconcilePending _).bind
      intro _
      apply (h.recordInitialErrorStatus hctx).bind
      intro _
      apply h.commit.bind
      intro _
      apply h.dispatchRetry hctx
  · rw [recordFailure]
    apply Sustains.ite
    · apply (h.recordInitialErrorStatus hctx).bind
      intro _
      apply hend
    · apply hend

theorem errorSession (settings : Settings) (message : TaskiqMessage) (exception : PyException) :
  Sustains P base I (errorSession settings message exception i)
  := by
  apply h.load.bind
  intro task
  apply sustains_get.bind
  intro s
  apply (h.recordDecision rfl).bind
  intro emitted
  apply Sustains.ite
  · apply (h.modifyResult _).bind
    intro _
    apply sustains_pure
  · apply sustains_pure

/-- The hook that runs after an error keeps what does not depend on its sessions. -/
theorem onError (settings : Settings) {message : TaskiqMessage}
    (hid : message.extractTaskExecutionId = some i) (exception : PyException) :
  Maintains P base (onError settings message exception)
  := by
  rw [Hook.onError, hid]
  have hattempt : Maintains P base (Hook.modifyAttempt fun _ => {}) :=
    maintains_modify (fun s c => (h.attempt (fun _ => {}) s c).1)
  apply hattempt.bind
  intro _
  apply Maintains.createDbRetry
  apply Maintains.bind
  · apply (h.errorSession settings message exception).withSession h.openSession h.closeSession
  · rintro ⟨status, statusMsg⟩
    apply maintains_emitStatusEvent h.emit

end Errs

end Hook

end WorkerTemplate
