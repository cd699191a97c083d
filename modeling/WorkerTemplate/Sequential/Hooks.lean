import WorkerTemplate.Sequential.Announcing
import WorkerTemplate.Sequential.OnError

/-!
# Hooks that run alone

A hook that runs alone emits at most one event, as the last thing it does, and the event tells
the status of the committed row.  However such hooks follow each other, and wherever they
are stopped, the audit table stays well audited, so that the pending row that is looked up
is the row that is marked.
-/

namespace WorkerTemplate

namespace Hook

variable {sound : Prop} {s : Invocation} {c : Scene} {i : UUID} {b : Bool}

/-- What a session has committed is announced after it. -/
theorem Leaves.announce {α : Type} {session : Hook α} {f : α → Hook Unit}
    {g : α → TaskStatus} (settings : Settings) (message : TaskiqMessage)
    (statusMessage : α → Option String) (errorDetail : Option String) (hhas : c.Has i b)
    (hsession : Leaves sound session
      (fun a _ c' => ∀ row, c'.db.execution? i = some row → row.status = g a) s c)
    (hf : ∀ a, f a = emitStatusEvent settings message (g a) (statusMessage a) errorDetail) :
  Obeys (alone sound) (session >>= f) (Told sound i b c.emissions) s c
  := by
  rw [obeys_bind]
  apply (hsession.and_has hhas).mono
  rintro (e | a) s' c' ⟨⟨hsound', hemissions, hleaves⟩, hhas'⟩
  · exact ⟨hsound', hhas', Or.inl hemissions⟩
  · rw [next_ok, hf, ← hemissions]
    apply obeys_emitStatusEvent_told hsound' hhas'
    apply hleaves a rfl

/-! ### Before and after the body -/

/-- A session that updates the status of the row commits it. -/
theorem leaves_setStatus (hsound : c.Sound sound) (i : UUID) (status : TaskStatus)
    (fields : StatusUpdate) :
  Leaves sound (setStatus i status fields)
    (fun _ _ c' => ∀ row, c'.db.execution? i = some row → row.status = status) s c
  := by
  have hinStep : InStep i { s with identityMap := fun _ => none } { c with view := c.db } := by
    rintro task ⟨⟩
  have hbody (hsound' : Scene.Sound sound { c with view := c.db }) :
      Leaves sound (do
        let _ ← updateTaskStatus i status fields
        commit)
        (fun _ _ c' => ∀ row, c'.db.execution? i = some row → row.status = status)
        { s with identityMap := fun _ => none } { c with view := c.db } := by
    cases hrow : c.db.execution? i with
    | none =>
        apply (leaves_updateTaskStatus_none hsound' status fields hinStep hrow).bind
        rintro - s₁ c₁ hsound₁ ⟨rfl, -, -⟩
        apply leaves_commit hsound₁
        intro row hrow'
        cases hrow.symm.trans hrow'
    | some task =>
        apply (leaves_updateTaskStatus hsound' status fields hinStep hrow).bind
        rintro - s₁ c₁ hsound₁ ⟨now, rfl, -, -, -⟩
        apply leaves_commit hsound₁
        intro row hrow'
        rw [execution?_updated status fields now hrow] at hrow'
        obtain rfl := Option.some_injective _ hrow'
        rfl
  rw [setStatus]
  apply (Leaves.withSession hsound hbody).mono
  rintro - s' c' - - ⟨s₁, c₁, hstatus, hdb⟩
  rwa [hdb]

/-- A pass of a hook that updates the status of the row tells it. -/
theorem obeys_statusPass (hsound : c.Sound sound) (hhas : c.Has i b) (settings : Settings)
    (message : TaskiqMessage) (status : TaskStatus) (fields : StatusUpdate)
    (statusMessage errorDetail : Option String) :
  Obeys (alone sound) (do
      withSession do
        let _ ← updateTaskStatus i status fields
        commit
      emitStatusEvent settings message status statusMessage errorDetail)
    (Told sound i b c.emissions) s c
  := (leaves_setStatus hsound i status fields).announce settings message _ errorDetail hhas
    (fun _ => rfl)

/-- A pass that has raised has emitted nothing. -/
theorem Told.pre {emissions : List Emission} {e : OperationalError} {s : Invocation} {c : Scene}
    (h : Told sound i b emissions (.error e) s c) :
  c.Sound sound ∧ c.Has i b ∧ c.emissions = emissions
  := by
  obtain ⟨hsound, hhas, hemissions | ⟨hreturns, -⟩⟩ := h
  · exact ⟨hsound, hhas, hemissions⟩
  · cases hreturns

/-- A hook that has nothing to do emits nothing. -/
theorem obeys_pure_told (hsound : c.Sound sound) (hhas : c.Has i b) :
  Obeys (alone sound) (pure ()) (Told sound i b c.emissions) s c
  := ⟨hsound, hhas, Or.inl rfl⟩

/-- A repeated pass tells what its last pass tells. -/
theorem obeys_dbRetry_told {pass : Hook Unit} (hsound : c.Sound sound) (hhas : c.Has i b)
    (hpass : ∀ s c, c.Sound sound → c.Has i b →
      Obeys (alone sound) pass (Told sound i b c.emissions) s c) :
  Obeys (alone sound) (dbRetry pass) (Told sound i b c.emissions) s c
  := by
  apply obeys_createDbRetry
    (fun _ c' => c'.Sound sound ∧ c'.Has i b ∧ c'.emissions = c.emissions)
  · rintro s' c' ⟨hsound', hhas', hemissions⟩
    rw [← hemissions]
    apply hpass s' c' hsound' hhas'
  · intro e s' c' htold
    apply htold.pre
  · exact ⟨hsound, hhas, rfl⟩

theorem obeys_preExecute_told (hsound : c.Sound sound) (hhas : c.Has i b) (settings : Settings)
    {message : TaskiqMessage} (hi : message.extractTaskExecutionId = some i) :
  Obeys (alone sound) (preExecute settings message) (Told sound i b c.emissions) s c
  := by
  rw [preExecute]
  apply obeys_dbRetry_told hsound hhas
  intro s c hsound hhas
  rw [hi]
  apply obeys_statusPass hsound hhas settings message _ _ _ _

theorem obeys_postExecute_told (hsound : c.Sound sound) (hhas : c.Has i b) (settings : Settings)
    {message : TaskiqMessage} (hi : message.extractTaskExecutionId = some i) :
  Obeys (alone sound) (postExecute settings message) (Told sound i b c.emissions) s c
  := by
  rw [postExecute]
  apply obeys_dbRetry_told hsound hhas
  intro s c hsound hhas
  rw [hi]
  simp only []
  rw [obeys_bind, obeys_get, next_ok]
  split
  · apply obeys_pure_told hsound hhas
  · split
    · apply obeys_pure_told hsound hhas
    · split
      · apply obeys_statusPass hsound hhas settings message _ _ _ _
      · apply obeys_statusPass hsound hhas settings message _ _ _ _

/-! ### After an error -/

/-- The session of a pass leaves the status it announces. -/
theorem leaves_passSession (hsound : c.Sound sound) (hhas : c.Has i b) (settings : Settings)
    (message : TaskiqMessage) (exception : PyException) :
  Leaves sound (withSession (errorSession settings message exception i))
    (fun emitted _ c' => ∀ row, c'.db.execution? i = some row → row.status = emitted.1) s c
  := by
  cases hrow : c.db.execution? i with
  | none =>
      have hsession := Leaves.withSession (s := s) hsound (fun hsound' =>
        leaves_errorSession_none hsound' settings message exception rfl hrow)
      apply Obeys.mono (hsession.and_has hhas)
      rintro r s' c' ⟨⟨hsound', hemissions, -⟩, hhas'⟩
      refine ⟨hsound', hemissions, ?_⟩
      intro emitted _ row hrow'
      have hb := hhas'.1.trans hhas.1.symm
      rw [hrow', hrow] at hb
      cases hb
  | some row =>
      have hsession := Leaves.withSession (s := s) hsound (fun hsound' =>
        leaves_errorSession hsound' settings message exception rfl hrow)
      apply hsession.mono
      rintro emitted s' c' - - ⟨s₁, c₁, ⟨row', hrow', hstatus⟩, hdb⟩
      intro row'' hrow''
      rw [hdb, hrow'] at hrow''
      obtain rfl := Option.some_injective _ hrow''
      apply hstatus

theorem obeys_onError_told (hsound : c.Sound sound) (hhas : c.Has i b) (settings : Settings)
    {message : TaskiqMessage} (hi : message.extractTaskExecutionId = some i)
    (exception : PyException) :
  Obeys (alone sound) (onError settings message exception) (Told sound i b c.emissions) s c
  := by
  rw [onError, hi]
  simp only []
  rw [modifyAttempt, obeys_bind, obeys_modify, next_ok, recordErrorStatus]
  apply obeys_dbRetry_told hsound hhas
  intro s c hsound hhas
  rw [errorPass]
  exact (leaves_passSession hsound hhas settings message exception).announce settings message
    (fun emitted => some emitted.2) _ hhas (fun _ => rfl)

end Hook

/-! ### The hooks of a message -/

namespace HookCall

variable {sound : Prop} {s : Invocation} {c : Scene}

/-- A hook that is called with a message of an execution tells its status. -/
theorem obeys_told {i : UUID} {b : Bool} (call : HookCall) (hsound : c.Sound sound)
    (hhas : c.Has i b) (settings : Settings) {message : TaskiqMessage}
    (hi : message.extractTaskExecutionId = some i) :
  Hook.Obeys (alone sound) (call.hook settings message) (Hook.Told sound i b c.emissions) s c
  := by
  cases call with
  | preExecute => apply Hook.obeys_preExecute_told hsound hhas settings hi
  | onError exception => apply Hook.obeys_onError_told hsound hhas settings hi exception
  | postExecute => apply Hook.obeys_postExecute_told hsound hhas settings hi

/-- A hook that is called with a message of no execution does nothing. -/
theorem program_of_none (call : HookCall) (settings : Settings) {message : TaskiqMessage}
    (hi : message.extractTaskExecutionId = none) (s : Invocation) :
  (call.hook settings message).program s = pure (.ok (), s)
  := by
  cases call with
  | preExecute =>
      rw [hook, Hook.preExecute, hi]
      rfl
  | onError exception =>
      rw [hook, Hook.onError, hi]
      rfl
  | postExecute =>
      rw [hook, Hook.postExecute, hi]
      rfl

/-- A hook with an execution that exists and no other hook running emits at most one event, as the
last thing it does, whether or not it is published, and the event tells the status that the
committed row has at this moment. -/
theorem emitted_status_committed (call : HookCall) (settings : Settings)
    {message : TaskiqMessage} {i : UUID} (hi : message.extractTaskExecutionId = some i)
    (s : Invocation) {w : World} (hrow : (w.db.execution? i).isSome) :
  (call.hook settings message).emissions s w = [] ∨
    ((call.hook settings message).exec s w).1.1 = .ok () ∧
    ∃ e row, (call.hook settings message).emissions s w = [e] ∧
      e.db.execution? i = some row ∧ e.event.status = row.status.value
  := by
  have hhas : Scene.Has i true { db := w.db, view := w.view } := by
    use hrow
    change ((w.db.view w.own).execution? i).isSome = true
    rw [Database.isSome_execution?_view, hrow]
  have hshows : World.Shows False { db := w.db, view := w.view } (w, []) :=
    ⟨rfl, rfl, rfl, False.elim⟩
  obtain ⟨c', hshows', -, hhas', htold⟩ := Program.Follows.run
    (call.obeys_told (s := s) False.elim hhas settings hi) (World.refines_watch False) hshows
  have hemissions : (call.hook settings message).emissions s w = c'.emissions :=
    hshows'.emissions
  rw [Hook.exec_eq_watch, hemissions]
  rcases htold with hnone | ⟨hreturns, e, hone, hdb, htells⟩
  · exact Or.inl hnone
  · refine Or.inr ⟨hreturns, e, ?_⟩
    obtain ⟨row, hrow'⟩ := Option.isSome_iff_exists.mp hhas'.1
    rw [← hdb] at hrow'
    exact ⟨row, hone, hrow', htells row hrow'⟩

/-- A worker that sends a message after a lost commit, and does not publish its only event. -/
theorem emitted_status_committed_of_lost_commit :
  let world := { Example.world 0 3 (Example.plans (Example.session .applied .commits true)
    (Example.session .commits .commits true)) with emits := false }
  let hook := (HookCall.onError Example.exception).hook Example.settings Example.message
  ((hook.emissions Example.failed world).length = 1 ∧
    (hook.exec Example.failed world).2.sent = [Example.message]) ∧
  (hook.emissions Example.failed world = [] ∨
    (hook.exec Example.failed world).1.1 = .ok () ∧
    ∃ e row, hook.emissions Example.failed world = [e] ∧
      e.db.execution? Example.taskExecutionId = some row ∧ e.event.status = row.status.value)
  := ⟨⟨rfl, rfl⟩, emitted_status_committed (.onError Example.exception) Example.settings rfl
    Example.failed rfl⟩

end HookCall

end WorkerTemplate
