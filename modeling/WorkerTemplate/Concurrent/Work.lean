import WorkerTemplate.Concurrent.Hooks
import WorkerTemplate.Concurrent.Cluster

/-!
# The work of the workers

Everything that touches the tables: the hooks of any message, the deliveries of messages, and
the service by which an instance sets a status.  A protocol that the hooks keep is kept by all of
it.
-/

namespace WorkerTemplate

/-- What may run at any time: a hook of any message, the delivery of a message, or the service by
which an instance sets one of the statuses `sets`. -/
inductive SpawnsWork (sets : TaskStatus → Prop) (w : Cluster) :
    Program Op.Answer PUnit → Cluster → Prop where
  | hook (settings : Settings) (message : TaskiqMessage) (result : TaskiqResult) (call : HookCall) :
      SpawnsWork sets w ((call.hook settings message).thread { result }) w
  | deliver (settings : Settings) (message : TaskiqMessage) (result : TaskiqResult) :
      SpawnsWork sets w ((Hook.deliver settings message).thread { result }) w
  | setStatus (i : UUID) (status : TaskStatus) (fields : StatusUpdate) (result : TaskiqResult)
      (hstatus : sets status) :
      SpawnsWork sets w ((Hook.setStatus i status fields).thread { result }) w

/-- What the work of the workers keeps of a protocol: the hooks, the bodies and the service keep
it. -/
structure Hook.Works {σ : Type} (P : Protocol Op.Answer σ) (I : σ → Prop)
    (sets : TaskStatus → Prop) : Prop where
  preExecute : ∀ settings message,
    Hook.Maintains P (fun _ c => I c) (Hook.preExecute settings message)
  postExecute : ∀ settings message,
    Hook.Maintains P (fun _ c => I c) (Hook.postExecute settings message)
  onError : ∀ settings message exception,
    Hook.Maintains P (fun _ c => I c) (Hook.onError settings message exception)
  body : ∀ message, Hook.Maintains P (fun _ c => I c) (Hook.perform (.body message))
  setStatus : ∀ i status fields, sets status →
    Hook.Maintains P (fun _ c => I c) (Hook.setStatus i status fields)

namespace Hook.Works

variable {σ : Type} {P : Protocol Op.Answer σ} {I : σ → Prop} {sets : TaskStatus → Prop}
  (h : Hook.Works P I sets)

include h

/-- A delivery keeps what the hooks and the body keep. -/
theorem deliver (settings : Settings) (message : TaskiqMessage) :
  Hook.Maintains P (fun _ c => I c) (Hook.deliver settings message)
  := by
  have hresult (f : TaskiqResult → TaskiqResult) :
      Hook.Maintains P (fun _ c => I c) (Hook.modifyResult f) :=
    Hook.maintains_modify (fun _ _ hc => hc)
  rw [Hook.deliver]
  apply (h.preExecute settings message).bind
  intro _
  apply (h.body message).bind
  rintro (_ | exception)
  · apply (hresult _).bind
    intro _
    apply h.postExecute
  · apply (hresult _).bind
    intro _
    apply (h.onError settings message exception).bind
    intro _
    apply h.postExecute

/-- The work of the workers follows a protocol that the hooks keep. -/
theorem follows {w w' : Cluster} {p : Program Op.Answer PUnit} (hp : SpawnsWork sets w p w')
    {c : σ} (hc : I c) :
  w' = w ∧ p.Follows P (fun _ => I) c
  := by
  have hthread (hook : Hook Unit) (result : TaskiqResult)
      (hhook : hook.Maintains P (fun _ c => I c)) :
      (hook.thread { result }).Follows P (fun _ => I) c :=
    Hook.follows_thread (hhook _ c hc)
  cases hp with
  | deliver settings message result => exact ⟨rfl, hthread _ _ (h.deliver settings message)⟩
  | setStatus i status fields result hstatus =>
      exact ⟨rfl, hthread _ _ (h.setStatus i status fields hstatus)⟩
  | hook settings message result call =>
      use rfl
      apply hthread
      cases call with
      | preExecute => apply h.preExecute
      | onError exception => apply h.onError
      | postExecute => apply h.postExecute

end Hook.Works

end WorkerTemplate
