import WorkerTemplate.Concurrent.Services
import WorkerTemplate.Receiver

/-!
# The hooks within a protocol

The hooks before and after the body perform few operations.  They maintain whatever these
operations maintain.
-/

namespace WorkerTemplate

namespace Hook

variable {σ α : Type} {P : Protocol Op.Answer σ} {I : Invocation → σ → Prop}

/-- Emitting an event maintains what publishing it maintains. -/
theorem maintains_emitStatusEvent
    (hemit : ∀ room event, Maintains P I (perform (.emit room event))) (settings : Settings)
    (message : TaskiqMessage) (status : TaskStatus) (statusMessage errorDetail : Option String) :
  Maintains P I (emitStatusEvent settings message status statusMessage errorDetail)
  := by
  have hevent (tenantId : UUID) (event : TaskEvent) :
      Maintains P I (emitTaskEvent settings tenantId event) := by
    rw [emitTaskEvent]
    apply Maintains.ite
    · apply (hemit _ _).bind
      intro _
      apply maintains_pure
    · apply maintains_pure
  rw [emitStatusEvent]
  split
  · split
    · apply hevent
    · apply hevent
    · apply hevent
  · apply maintains_pure

/-- Emitting an event never raises. -/
theorem obeys_emitStatusEvent {s : Invocation} {c : σ}
    (hemit : ∀ c room event, P.allows c (.emit room event)) (settings : Settings)
    (message : TaskiqMessage) (status : TaskStatus) (statusMessage errorDetail : Option String) :
  Obeys P (emitStatusEvent settings message status statusMessage errorDetail)
    (fun r s' _ => r = .ok () ∧ s' = s) s c
  := by
  have hevent (tenantId : UUID) (event : TaskEvent) :
      Obeys P (emitTaskEvent settings tenantId event) (fun r s' _ => r = .ok () ∧ s' = s) s c := by
    rw [emitTaskEvent]
    split
    · rw [obeys_bind, obeys_perform]
      use hemit _ _ _
      intro r c' _
      exact ⟨rfl, rfl⟩
    · exact ⟨rfl, rfl⟩
  rw [emitStatusEvent]
  split
  · split
    · apply hevent
    · apply hevent
    · apply hevent
  · exact ⟨rfl, rfl⟩

/-- The delivery of a message of no execution runs its body only. -/
theorem obeys_deliver_none {settings : Settings} {message : TaskiqMessage}
    (hid : message.extractTaskExecutionId = none) {s : Invocation} {c : σ}
    (hbody : P.allows c (.body message)) :
  Obeys P (deliver settings message) (fun _ _ _ => True) s c
  := by
  have hpre : Maintains P (fun _ c' => c' = c) (preExecute settings message) := by
    rw [preExecute, hid]
    exact (maintains_pure _).createDbRetry _
  have hpost : Maintains P (fun _ _ => True) (postExecute settings message) := by
    rw [postExecute, hid]
    exact (maintains_pure _).createDbRetry _
  have herror (exception : PyException) :
      Maintains P (fun _ _ => True) (onError settings message exception) := by
    rw [onError, hid]
    apply maintains_pure _
  have hresult (f : TaskiqResult → TaskiqResult) :
      Maintains P (fun _ _ => True) (modifyResult f) := maintains_modify (fun _ _ h => h)
  rw [deliver, obeys_bind]
  apply (hpre s c rfl).mono
  rintro (e | _) s' c' rfl
  · trivial
  · rw [next_ok, obeys_bind, obeys_perform]
    use hbody
    rintro (_ | exception) c'' -
    · exact ((hresult _).bind fun _ => hpost) s' c'' trivial
    · exact ((hresult _).bind fun _ => (herror exception).bind fun _ => hpost) s' c'' trivial

/-- The operations by which a hook sets a status and tells about it maintain an invariant. -/
structure Tracks (P : Protocol Op.Answer σ) (I : Invocation → σ → Prop) : Prop where
  openSession : Maintains P I (perform .openSession)
  closeSession : Maintains P I (perform .closeSession)
  commit : Maintains P I (perform .commit)
  now : Maintains P I (perform .now)
  select : ∀ i tenantId, Maintains P I (perform (.statement (.selectExecution i tenantId)))
  update : ∀ i changes, Maintains P I (perform (.statement (.updateExecution i changes)))
  emit : ∀ room event, Maintains P I (perform (.emit room event))
  identityMap : ∀ s map c, I s c → I { s with identityMap := map } c

variable (h : Tracks P I)

include h

theorem Tracks.keep (task : TaskExecution) :
  Maintains P I (keep task)
  := maintains_modify (fun s c hs => h.identityMap s _ c hs)

theorem Tracks.getTaskExecution (i : UUID) (tenantId : Option UUID) :
  Maintains P I (getTaskExecution i tenantId)
  := by
  apply (maintains_execute (h.select i tenantId)).bind
  rintro (_ | row)
  · apply maintains_pure
  · apply maintains_get.bind
    intro s
    split
    · apply maintains_pure
    · apply (h.keep row).bind
      intro _
      apply maintains_pure

theorem Tracks.updateTaskStatus (i : UUID) (status : TaskStatus) (fields : StatusUpdate) :
  Maintains P I (updateTaskStatus i status fields)
  := by
  have hrefresh (task : TaskExecution) : Maintains P I (refresh task) := by
    apply (maintains_execute (h.select task.id none)).bind
    rintro (_ | row)
    · apply maintains_pure
    · apply (h.keep row).bind
      intro _
      apply maintains_pure
  apply (h.getTaskExecution i none).bind
  rintro (_ | task)
  · apply maintains_pure
  · apply h.now.bind
    intro now
    apply (maintains_execute (h.update _ _)).bind
    intro _
    apply (hrefresh task).bind
    intro _
    apply maintains_pure

theorem Tracks.withSession {body : Hook α} (hbody : Maintains P I body) :
  Maintains P I (withSession body)
  := hbody.withSession h.openSession h.closeSession (fun s c hs => h.identityMap s _ c hs)

theorem Tracks.setStatus (i : UUID) (status : TaskStatus) (fields : StatusUpdate) :
  Maintains P I (setStatus i status fields)
  := by
  apply h.withSession
  apply (h.updateTaskStatus i status fields).bind
  intro _
  apply maintains_commit h.commit

theorem Tracks.preExecute (settings : Settings) (message : TaskiqMessage) :
  Maintains P I (preExecute settings message)
  := by
  rw [Hook.preExecute]
  apply Maintains.createDbRetry
  split
  · apply maintains_pure
  · apply (h.setStatus _ _ _).bind
    intro _
    apply maintains_emitStatusEvent h.emit

theorem Tracks.postExecute (settings : Settings) (message : TaskiqMessage) :
  Maintains P I (postExecute settings message)
  := by
  rw [Hook.postExecute]
  apply Maintains.createDbRetry
  split
  · apply maintains_pure
  · apply maintains_get.bind
    intro s
    apply Maintains.ite
    · apply maintains_pure
    · apply Maintains.ite
      · apply maintains_pure
      · apply Maintains.ite
        · apply (h.setStatus _ _ _).bind
          intro _
          apply maintains_emitStatusEvent h.emit
        · apply (h.setStatus _ _ _).bind
          intro _
          apply maintains_emitStatusEvent h.emit

end Hook

end WorkerTemplate
