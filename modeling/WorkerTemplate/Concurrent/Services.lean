import WorkerTemplate.Concurrent.Obeys
import WorkerTemplate.Services

/-!
# The services within a protocol

What it takes for the services to obey a protocol, whatever the protocol is.
-/

namespace WorkerTemplate

namespace Hook

variable {σ : Type} {P : Protocol Op.Answer σ} {s : Invocation} {c : σ}

/-- Loading an execution obeys a protocol that allows selecting it, when the instance the
session has then meets the postcondition. -/
theorem obeys_getTaskExecution {i : UUID} {tenantId : Option UUID}
    {post : Post (Option TaskExecution) σ}
    (hallows : P.allows c (.statement (.selectExecution i tenantId)))
    (herror : ∀ e c', P.moves c (.statement (.selectExecution i tenantId)) (.error e) c' →
      post (.error e) s c')
    (hnone : ∀ c', P.moves c (.statement (.selectExecution i tenantId)) (.ok none) c' →
      post (.ok none) s c')
    (hsome : ∀ row c', P.moves c (.statement (.selectExecution i tenantId)) (.ok (some row)) c' →
      (∀ task, s.identityMap row.id = some task → post (.ok (some task)) s c') ∧
        (s.identityMap row.id = none → post (.ok (some row)) (s.keep row) c')) :
  Obeys P (getTaskExecution i tenantId) post s c
  := by
  rw [getTaskExecution, obeys_bind, obeys_execute]
  use hallows
  rintro (e | _ | row) c' hmoves
  · apply herror e c' hmoves
  · apply hnone c' hmoves
  · obtain ⟨hloaded, hnew⟩ := hsome row c' hmoves
    simp only [next_ok, obeys_bind, obeys_get]
    cases hmap : s.identityMap row.id with
    | some task => apply hloaded task hmap
    | none => apply hnew hmap

/-- Refreshing an instance obeys a protocol that allows selecting it, when the row that is
read meets the postcondition. -/
theorem obeys_refresh {task : TaskExecution} {post : Post TaskExecution σ}
    (hallows : P.allows c (.statement (.selectExecution task.id none)))
    (herror : ∀ e c', P.moves c (.statement (.selectExecution task.id none)) (.error e) c' →
      post (.error e) s c')
    (hnone : ∀ c', P.moves c (.statement (.selectExecution task.id none)) (.ok none) c' →
      post (.ok task) s c')
    (hsome : ∀ row c', P.moves c (.statement (.selectExecution task.id none)) (.ok (some row)) c' →
      post (.ok row) (s.keep row) c') :
  Obeys P (refresh task) post s c
  := by
  rw [refresh, obeys_bind, obeys_execute]
  use hallows
  rintro (e | _ | row) c' hmoves
  · apply herror e c' hmoves
  · apply hnone c' hmoves
  · apply hsome row c' hmoves

/-- Updating a status obeys a protocol when loading the instance does, and from the instance that
is loaded on the update and the refreshing of the instance. -/
theorem obeys_updateTaskStatus {i : UUID} {status : TaskStatus} {fields : StatusUpdate}
    {loaded post : Post (Option TaskExecution) σ}
    (hget : Obeys P (getTaskExecution i none) loaded s c)
    (herror : ∀ e s' c', loaded (.error e) s' c' → post (.error e) s' c')
    (hnone : ∀ s' c', loaded (.ok none) s' c' → post (.ok none) s' c')
    (hsome : ∀ task s' c', loaded (.ok (some task)) s' c' →
      P.allows c' .now ∧ ∀ (now : Time) c₁, P.moves c' .now now c₁ →
        let update : Statement :=
          .updateExecution task.id (task.changes (task.assign status fields now))
        P.allows c₁ (.statement update) ∧
          (∀ e c₂, P.moves c₁ (.statement update) (.error e) c₂ → post (.error e) s' c₂) ∧
          ∀ c₂, P.moves c₁ (.statement update) (.ok ()) c₂ →
            Obeys P (refresh task) (fun r s'' c'' => post (r.map some) s'' c'') s' c₂) :
  Obeys P (updateTaskStatus i status fields) post s c
  := by
  rw [updateTaskStatus, obeys_bind]
  apply hget.mono
  rintro (e | _ | task) s' c' hloaded
  · apply herror e s' c' hloaded
  · apply hnone s' c' hloaded
  · obtain ⟨hnow, hupdate⟩ := hsome task s' c' hloaded
    rw [next_ok]
    simp only []
    rw [obeys_bind, obeys_perform]
    use hnow
    intro now c₁ hmoves
    obtain ⟨hallows, hfails, hrefresh⟩ := hupdate now c₁ hmoves
    rw [next_ok, obeys_bind, obeys_execute]
    use hallows
    rintro (e | ⟨⟩) c₂ hmoves'
    · apply hfails e c₂ hmoves'
    · rw [next_ok, obeys_bind]
      apply (hrefresh c₂ hmoves').mono
      rintro (e | row) s'' c'' hpost
      · apply hpost
      · apply hpost

variable {I : Invocation → σ → Prop}

/-- Marking an attempt maintains what its statements maintain. -/
theorem maintains_markTaskAttemptDispatched {i : UUID} {n : ℕ}
    (hselect : Maintains P I (perform (.statement (.selectAttempt (.pendingOrDispatched i n)))))
    (hupdate : ∀ id, Maintains P I (perform (.statement (.updateAttempt id .dispatched)))) :
  Maintains P I (markTaskAttemptDispatched i n)
  := by
  apply (maintains_execute hselect).bind
  rintro (_ | attempt)
  · apply maintains_pure
  · apply Maintains.ite
    · apply (maintains_execute (hupdate _)).bind
      intro _
      apply maintains_pure
    · apply maintains_pure

end Hook

end WorkerTemplate
