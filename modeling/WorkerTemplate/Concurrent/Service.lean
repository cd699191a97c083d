import WorkerTemplate.Concurrent.Conduct
import WorkerTemplate.Concurrent.Schedule
import WorkerTemplate.Tasks.Addresses

/-!
# The service as a whole

Dispatchers create executions and send their messages, the broker delivers the messages to
workers, and workers send them again for retries.  Every message is addressed to a row that was
committed before the message was sent, and every event goes to the room of the tenant whose
execution it is about.
-/

namespace WorkerTemplate

/-- The parties that touch the tables: a dispatcher that commits a row and goes on to send its
message, and a worker to which the broker delivers a message after its transport.  The broker may
deliver a message again, and it may drop messages. -/
inductive SpawnsService (w : Cluster) : Program Op.Answer PUnit → Cluster → Prop where
  | dispatch (id : UUID) (fresh : w.db.execution? id = none) (createdAt : Time) (maxRetries : ℕ)
      (taskId : Text) (tenantId : UUID) (documentUrl outputFormat : Text) {dispatched}
      (dispatches : dispatched = dispatchExampleTask w.db id createdAt maxRetries taskId tenantId
        documentUrl outputFormat) :
      SpawnsService w (.perform (.kiq dispatched.2) fun _ => .pure ⟨⟩)
        { w with db := dispatched.1 }
  | deliver (settings : Settings) (F : Seconds) (now : F.Number) (message : TaskiqMessage)
      (queued : message ∈ w.queue) (queue : List TaskiqMessage) (keeps : queue ⊆ w.queue)
      (result : TaskiqResult) :
      SpawnsService w
        ((Hook.deliver settings (message.transport.preExecuted F now)).thread { result })
        { w with queue }

namespace Service

/-- A party. -/
inductive Party where
  | dispatcher (message : TaskiqMessage)
  | worker (scope : Scope)

namespace Party

/-- The message of a party. -/
def message : Party → TaskiqMessage
  | dispatcher message => message
  | worker scope => scope.message

/-- What a party may do: a dispatcher sends its message, and a worker conducts itself. -/
def protocol : Party → Protocol Op.Answer (List Effect)
  | dispatcher message =>
      { allows := fun _ o => o = .kiq message
        moves := fun own _ _ own' => own' = own }
  | worker scope => conduct scope

/-- The message of a party is addressed to a row, and a worker finds the tenant of the row. -/
structure Fits (party : Party) (db : Database) (a : Address) : Prop where
  addressed : party.message.AddressedTo a
  has : db.Has a
  tenant : ∀ scope, party = worker scope → scope.tenant = some a.tenantId

end Party

variable {party : Party} {a : Address} {ss : List (Party × List Effect)} {w w' : Cluster} {t : ℕ}
  {x : Party × List Effect} {o : Op} {r : o.Answer} {faults : Cluster.Faults}

/-- A message is addressed to a row. -/
def Arrives (message : TaskiqMessage) (db : Database) : Prop :=
  ∃ a, message.AddressedTo a ∧ db.Has a

/-- An operation that is an event goes to the room of the tenant of its execution. -/
def Reaches (e : Entry) (db : Database) : Prop :=
  ∀ room event, e.op = .emit room event →
    ∃ row, db.execution? event.taskId = some row ∧ room = tenantRoom row.tenantId

/-- The parties fit the table, the messages are addressed to its rows, and the events have gone
where they belong. -/
structure Inv (ss : List (Party × List Effect)) (w : Cluster) : Prop where
  threads : ∀ (t : ℕ) (x : Party × List Effect), ss[t]? = some x →
    (∃ a, x.1.Fits w.db a) ∧ w.txn t = x.2
  spare : ∀ t, ss.length ≤ t → w.txn t = []
  queue : ∀ message ∈ w.queue, Arrives message w.db
  history : ∀ e ∈ w.history, Reaches e w.db

/-! ### The table grows -/

/-- A later table has every row of an earlier one, with its tenant and its task. -/
def Grows (db db' : Database) : Prop := ∀ a, db.Has a → db'.Has a

theorem grows_of_performs (hstep : w.Performs faults t o r w') : Grows w.db w'.db := by
  intro a ha
  rcases hstep.db with hdb | hdb
  · rw [hdb]
    apply ha
  · rw [hdb]
    apply ha.view

theorem Arrives.mono {message : TaskiqMessage} {db db' : Database} (h : Arrives message db)
    (hgrows : Grows db db') :
  Arrives message db'
  := by
  obtain ⟨a, ha, hhas⟩ := h
  exact ⟨a, ha, hgrows a hhas⟩

theorem Reaches.mono {e : Entry} {db db' : Database} (h : Reaches e db) (hgrows : Grows db db') :
  Reaches e db'
  := by
  intro room event hop
  obtain ⟨row, hrow, hroom⟩ := h room event hop
  obtain ⟨row', hrow', htenant, -⟩ := hgrows ⟨event.taskId, row.tenantId, row.taskName⟩
    ⟨row, hrow, rfl, rfl⟩
  exact ⟨row', hrow', by rw [hroom, htenant]⟩

theorem Party.Fits.mono {db db' : Database} (h : party.Fits db a) (hgrows : Grows db db') :
  party.Fits db' a
  := ⟨h.addressed, hgrows a h.has, h.tenant⟩

/-! ### A step of a party -/

/-- The open transaction of a worker moves as its conduct says. -/
theorem moves_of_performs {scope : Scope} (hfits : (Party.worker scope).Fits w.db a)
    (hstep : w.Performs faults t o r w') :
  (conduct scope).moves (w.txn t) o r (w'.txn t)
  := by
  cases hstep with
  | opens => simp [conduct]
  | closes => simp [conduct]
  | commits => simp [conduct]
  | lost => simp [conduct]
  | applied => simp [conduct]
  | now => rfl
  | emits => rfl
  | runs => rfl
  | accepts => rfl
  | rejects => rfl
  | @fails w st =>
      cases st with
      | selectExecution j tenantId =>
          cases tenantId with
          | none => trivial
          | some tenantId => trivial
      | selectAttempt filter => trivial
      | updateExecution j changes => trivial
      | insertAttempt row => trivial
      | updateAttempt id d => trivial
  | @answers w st r free answers =>
      have htxn : ((w.push t st).record t (.statement st) (.ok r) []).txn t
          = w.txn t ++ st.effects := by simp
      rw [htxn]
      cases st with
      | selectAttempt filter => rfl
      | updateExecution j changes => rfl
      | insertAttempt row => rfl
      | updateAttempt id d => rfl
      | selectExecution j tenantId =>
          cases tenantId with
          | some tenantId => rfl
          | none =>
              have hrow : r = (w.view t).execution? j := answers
              refine ⟨List.append_nil _, ?_, ?_⟩
              · rintro task rfl
                apply Database.id_of_execution? hrow.symm
              · intro hj
                obtain rfl : a.taskExecutionId = j :=
                  Option.some_injective _ (hfits.addressed.taskExecutionId.symm.trans hj)
                obtain ⟨row, hhas, htenant, -⟩ := hfits.has.view (w.txn t)
                rw [hrow, Cluster.view, hhas, Option.map_some, htenant, hfits.tenant scope rfl]

/-- What a party sends is its message. -/
theorem eq_of_kiq {own : List Effect} {message : TaskiqMessage}
    (hallows : party.protocol.allows own (.kiq message)) :
  message = party.message
  := by
  cases party with
  | dispatcher message' => exact Op.kiq.inj hallows
  | worker scope => exact hallows.1

/-- A party publishes events in the room of the tenant of its execution. -/
theorem reaches_of_emit {own : List Effect} {room : Text} {event : TaskEvent}
    (hfits : party.Fits w.db a) (hallows : party.protocol.allows own (.emit room event)) :
  ∃ row, w.db.execution? event.taskId = some row ∧ room = tenantRoom row.tenantId
  := by
  cases party with
  | dispatcher message => cases hallows
  | worker scope =>
      obtain ⟨hid, tenantId, htenantId, rfl⟩ := hallows
      obtain rfl : tenantId = a.tenantId :=
        Option.some_injective _ (htenantId.symm.trans hfits.addressed.tenantId)
      have htask : a.taskExecutionId = event.taskId :=
        Option.some_injective _ (hfits.addressed.taskExecutionId.symm.trans hid)
      obtain ⟨row, hrow, htenant, -⟩ := hfits.has
      rw [htask] at hrow
      exact ⟨row, hrow, by rw [htenant]⟩

/-- The queue after an operation. -/
theorem queue_of_performs (hstep : w.Performs faults t o r w') :
  ∀ message ∈ w'.queue, message ∈ w.queue ∨ o = .kiq message
  := by
  intro message hmessage
  cases hstep with
  | accepts =>
      rcases List.mem_append.mp hmessage with hmessage | hmessage
      · exact Or.inl hmessage
      · rw [List.mem_singleton.mp hmessage]
        exact Or.inr rfl
  | opens => exact Or.inl hmessage
  | closes => exact Or.inl hmessage
  | answers => exact Or.inl hmessage
  | fails => exact Or.inl hmessage
  | commits => exact Or.inl hmessage
  | lost => exact Or.inl hmessage
  | applied => exact Or.inl hmessage
  | now => exact Or.inl hmessage
  | rejects => exact Or.inl hmessage
  | emits => exact Or.inl hmessage
  | runs => exact Or.inl hmessage

/-- The state of a party moves as its protocol says. -/
theorem Party.moves (hfits : party.Fits w.db a) {own : List Effect}
    (hallows : party.protocol.allows own o) (hstep : w.Performs faults t o r w') :
  party.protocol.moves (w.txn t) o r (w'.txn t)
  := by
  cases party with
  | worker scope => apply moves_of_performs hfits hstep
  | dispatcher message =>
      obtain rfl : o = .kiq message := hallows
      cases hstep with
      | accepts => rfl
      | rejects => rfl

/-- A step of a party keeps the invariant. -/
theorem Inv.performs (h : Inv ss w) (hx : ss[t]? = some x) (hallows : x.1.protocol.allows x.2 o)
    (hstep : w.Performs faults t o r w') :
  x.1.protocol.moves x.2 o r (w'.txn t) ∧ Inv (ss.set t (x.1, w'.txn t)) w'
  := by
  obtain ⟨⟨a, hfits⟩, htxn⟩ := h.threads t x hx
  have hgrows := grows_of_performs hstep
  have hlt : t < ss.length := (List.getElem?_eq_some_iff.mp hx).1
  use htxn ▸ Party.moves hfits hallows hstep
  constructor
  · intro t' x' hx'
    rcases Machine.state_of_set hx' with ⟨rfl, rfl⟩ | ⟨hne, hx'⟩
    · exact ⟨⟨a, hfits.mono hgrows⟩, rfl⟩
    · obtain ⟨⟨a', hfits'⟩, htxn'⟩ := h.threads t' x' hx'
      exact ⟨⟨a', hfits'.mono hgrows⟩, (hstep.txn_of_ne hne).trans htxn'⟩
  · intro t' ht'
    rw [List.length_set] at ht'
    rw [hstep.txn_of_ne (by omega), h.spare t' ht']
  · intro message hmessage
    rcases queue_of_performs hstep message hmessage with hmessage | rfl
    · apply (h.queue message hmessage).mono hgrows
    · rw [eq_of_kiq hallows]
      exact ⟨a, hfits.addressed, hgrows a hfits.has⟩
  · obtain ⟨es, hhistory, -⟩ := hstep.remembered
    rw [hhistory]
    intro e he
    rcases List.mem_cons.mp he with rfl | he
    · rintro room event rfl
      apply reaches_of_emit (hfits.mono hgrows) hallows
    · apply (h.history e he).mono hgrows

/-- A party that fits keeps the invariant when it comes in, though the table grows. -/
theorem Inv.spawn (h : Inv ss w) (hfits : party.Fits w'.db a) (hgrows : Grows w.db w'.db)
    (htxn : w'.txn = w.txn) (hqueue : w'.queue ⊆ w.queue) (hhistory : w'.history = w.history) :
  Inv (ss ++ [(party, [])]) w'
  := by
  constructor
  · intro t x hx
    rw [htxn]
    rcases Machine.state_of_concat hx with hx | ⟨rfl, rfl⟩
    · obtain ⟨⟨a', hfits'⟩, htxn'⟩ := h.threads t x hx
      exact ⟨⟨a', hfits'.mono hgrows⟩, htxn'⟩
    · exact ⟨⟨a, hfits⟩, h.spare ss.length le_rfl⟩
  · intro t ht
    rw [List.length_append] at ht
    rw [htxn, h.spare t (by omega)]
  · intro message hmessage
    apply (h.queue message (hqueue hmessage)).mono hgrows
  · rw [hhistory]
    intro e he
    apply (h.history e he).mono hgrows

theorem Inv.crash (h : Inv ss w) (hx : ss[t]? = some x) :
  Inv (ss.set t (x.1, [])) (w.release t)
  := by
  have hlt : t < ss.length := (List.getElem?_eq_some_iff.mp hx).1
  constructor
  · intro t' x' hx'
    rw [Cluster.txn_release]
    rcases Machine.state_of_set hx' with ⟨rfl, rfl⟩ | ⟨hne, hx'⟩
    · exact ⟨(h.threads t' x hx).1, Function.update_self ..⟩
    · obtain ⟨hfits', htxn'⟩ := h.threads t' x' hx'
      exact ⟨hfits', (Function.update_of_ne hne ..).trans htxn'⟩
  · intro t' ht'
    rw [List.length_set] at ht'
    rw [Cluster.txn_release, Function.update_of_ne (by omega), h.spare t' ht']
  · apply h.queue
  · apply h.history

/-! ### Deliveries -/

/-- A delivery conducts itself. -/
theorem conducts_deliver (scope : Scope) :
  Hook.Conducts scope (Hook.deliver scope.settings scope.message)
  := by
  have hbody : Hook.Conducts scope (Hook.perform (.body scope.message)) :=
    Hook.conducts_perform (fun _ => trivial)
  rw [Hook.deliver]
  apply (HookCall.conducts .preExecute scope).bind
  intro _
  apply hbody.bind
  rintro (_ | exception)
  · apply (Hook.conducts_modifyResult _).bind
    intro _
    apply HookCall.conducts .postExecute scope
  · apply (Hook.conducts_modifyResult _).bind
    intro _
    apply (HookCall.conducts (.onError exception) scope).bind
    intro _
    apply HookCall.conducts .postExecute scope

/-- The service follows the protocols of its parties. -/
def refinement (faults : Cluster.Faults) :
    (workers faults SpawnsService).Refinement (Program.family Party.protocol) where
  final _ := True
  inv := Inv
  exec := by
    rintro ss w w' t x o r h hx hallows hstep
    obtain ⟨hmoves, hinv⟩ := h.performs hx hallows hstep
    exact ⟨(x.1, w'.txn t), ⟨rfl, hmoves⟩, hinv⟩
  spawn := by
    rintro ss w w' p h hspawn
    cases hspawn with
    | dispatch id fresh createdAt maxRetries taskId tenantId documentUrl outputFormat dispatches =>
        subst dispatches
        let dispatched := dispatchExampleTask w.db id createdAt maxRetries taskId tenantId
          documentUrl outputFormat
        have hfits : (Party.dispatcher dispatched.2).Fits dispatched.1
            ⟨id, tenantId, exampleTaskName⟩ :=
          ⟨TaskiqMessage.addressedTo_dispatchExampleTask .., w.db.has_dispatch id fresh ..,
            by rintro scope ⟨⟩⟩
        have hgrows : Grows w.db dispatched.1 := fun a ha => ha.dispatch ..
        refine ⟨(.dispatcher dispatched.2, []), ?_, h.spawn hfits hgrows rfl (fun _ hm => hm) rfl⟩
        use rfl
        intro r s' hmoves
        trivial
    | deliver settings F now message queued queue keeps result =>
        obtain ⟨a, haddressed, hhas⟩ := h.queue message queued
        let scope : Scope := ⟨settings, message.transport.preExecuted F now, some a.tenantId⟩
        have hfits : (Party.worker scope).Fits w.db a :=
          ⟨haddressed.transport.preExecuted F now, hhas, by rintro _ ⟨⟩; rfl⟩
        refine ⟨(.worker scope, []), ?_, h.spawn hfits (fun _ ha => ha) rfl keeps rfl⟩
        have hthread : ((Hook.deliver settings scope.message).thread { result }).Follows
            (conduct scope) (fun _ _ => True) [] := by
          apply Hook.follows_thread
          apply (conducts_deliver scope _ [] _).mono
          · intro _ _ _ _
            trivial
          · rintro j task ⟨⟩
        have hfamily : ((Hook.deliver settings scope.message).thread { result }).Follows
            (Party.protocol (.worker scope)) (fun _ _ => True) [] := hthread
        apply hfamily.family.mono
        intro _ _ _
        trivial
  crash := by
    rintro ss w w' t x h hx ⟨-, rfl⟩
    exact ⟨(x.1, []), trivial, h.crash hx⟩

end Service

/-- In a service whose executions are dispatched and whose messages come from the queue, every
message is addressed to a committed execution, by its own tenant and task, and every event goes to
the room of the tenant whose execution it is about, whatever fails. -/
theorem arrives_of_reachable {db : Database} {outcomes : ℕ → Option PyException}
    {faults : Cluster.Faults} {c : Machine.Config Op.Answer Cluster}
    (hc : (workers faults SpawnsService).Reachable { db, outcomes } c) :
  (∀ message ∈ c.world.queue, Service.Arrives message c.world.db) ∧
    ∀ e ∈ c.world.history, Service.Reaches e c.world.db
  := by
  have hinv : Service.Inv [] { db, outcomes } := by
    constructor
    · rintro t x ⟨⟩
    · intro t _
      rfl
    · rintro message ⟨⟩
    · rintro e ⟨⟩
  obtain ⟨ss, h⟩ := (Service.refinement faults).reachable hinv hc
  exact ⟨h.inv.queue, h.inv.history⟩

/-! ### A run -/

namespace Example

/-- The dispatch of a task of the tenant. -/
def dispatched : Database × TaskiqMessage :=
  dispatchExampleTask { executions := [], attempts := [] } taskExecutionId 0 3 "1".toList tenantId
    "a.txt".toList "pdf".toList

/-- The settings of a worker that retries dispatched tasks. -/
def retrying : Settings := { settings with taskRetryTaskAllowlist := exampleTaskName }

/-- The service after a dispatch. -/
def dispatching : Machine.Config Op.Answer Cluster where
  threads := [.perform (.kiq dispatched.2) fun _ => .pure ⟨⟩]
  world := { db := dispatched.1, outcomes := fun _ => some exception }

/-- A clock that stands still. -/
def standing : Seconds where
  Number := Unit
  sub _ _ := ()
  ofInt _ := ()
  str _ := "0.0".toList
  ofText t := if t = "0.0".toList then some () else none
  ofText_str _ := if_pos rfl

/-- The delivery of the message that was dispatched. -/
def dispatchedDelivery : Program Op.Answer PUnit :=
  (Hook.deliver retrying (dispatched.2.transport.preExecuted standing ())).thread failed

/-- The service after the message was sent and the worker has begun. -/
def delivering : Machine.Config Op.Answer Cluster where
  threads := [.pure ⟨⟩, dispatchedDelivery]
  world := (dispatching.world.enqueue dispatched.2).record 0 (.kiq dispatched.2) true []

/-- The service gets to the delivery of the message that was dispatched. -/
theorem reachable_delivering :
  (workers .any SpawnsService).Reachable
    { db := { executions := [], attempts := [] }, outcomes := fun _ => some exception } delivering
  := by
  have hpermitted : Chance.Permitted .any {} := ⟨fun _ => trivial, fun _ => trivial⟩
  have hdispatch : (workers .any SpawnsService).Reachable
      { db := { executions := [], attempts := [] }, outcomes := fun _ => some exception }
      dispatching :=
    .single (.spawn (.dispatch taskExecutionId rfl 0 3 "1".toList tenantId "a.txt".toList
      "pdf".toList rfl))
  have hsend : Turn.advance {} 0 dispatching = some ⟨[.pure ⟨⟩], delivering.world⟩ := rfl
  have hdeliver : (workers .any SpawnsService).Step ⟨[.pure ⟨⟩], delivering.world⟩ delivering :=
    .spawn (.deliver retrying standing () dispatched.2 (List.mem_singleton_self _) _
      (fun _ hm => hm) _)
  apply (hdispatch.trans (Turn.reaches_of_advance hpermitted hsend)).tail hdeliver

end Example

/-- A dispatched message and the retry of its task wait for their delivery, and the events so far
have gone to the room of the tenant. -/
theorem arrives_of_reachable_retried :
  ∃ c, (workers .any SpawnsService).Reachable
      { db := { executions := [], attempts := [] },
        outcomes := fun _ => some Example.exception } c ∧
    c.world.queue.length = 2 ∧ (∀ message ∈ c.world.queue, Service.Arrives message c.world.db) ∧
    ∀ e ∈ c.world.history, Service.Reaches e c.world.db
  := by
  have hretried : (Turn.advances {} 1 100 Example.delivering).any
      (fun c => c.world.queue.length = 2) = true := by decide +kernel
  obtain ⟨c, hc, hlength⟩ := (Option.any_eq_true _ _).mp hretried
  have hpermitted : Chance.Permitted .any {} := ⟨fun _ => trivial, fun _ => trivial⟩
  have hreachable := Example.reachable_delivering.trans (Turn.reaches_of_advances hpermitted hc)
  exact ⟨c, hreachable, of_decide_eq_true hlength, arrives_of_reachable hreachable⟩

end WorkerTemplate
