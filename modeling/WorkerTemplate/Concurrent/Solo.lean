import WorkerTemplate.Concurrent.Schedule
import WorkerTemplate.Concurrent.Sustains
import WorkerTemplate.Program.Simulation
import WorkerTemplate.Sequential.Representation

/-!
# One worker on a cluster

A hook that runs by itself, under a plan of what fails and stopped anywhere, does what a thread of
a cluster may do while the other threads stand still: it commits the same database, sends the same
messages and publishes the same events.  What is reached by processing messages one hook at a time
is therefore reached by workers that share a cluster.
-/

namespace WorkerTemplate

/-- Executions are created, and every hook may be called at any time, for any message. -/
inductive SpawnsCall (w : Cluster) : Program Op.Answer PUnit → Cluster → Prop where
  | create (task : TaskExecution) (fresh : w.db.execution? task.id = none) :
      SpawnsCall w (.pure ⟨⟩)
        { w with db := { w.db with executions := w.db.executions ++ [task] } }
  | call (call : HookCall) (settings : Settings) (message : TaskiqMessage) (s : Invocation) :
      SpawnsCall w ((call.hook settings message).thread s) w

/-- An event that was published by an operation, with its room. -/
def Entry.publishes (e : Entry) : Option (Text × TaskEvent) :=
  match e with
  | { op := .emit room event, answer := true, .. } => some (room, event)
  | _ => none

namespace Cluster

/-- The events that were published, with their rooms. -/
def events (w : Cluster) : List (Text × TaskEvent) := w.history.reverse.filterMap Entry.publishes

/-- No transaction has an effect, and none holds a lock. -/
structure Quiet (w : Cluster) : Prop where
  txn : ∀ t, w.txn t = []
  locked : ∀ row, w.locked row = none

/-- Nothing has happened yet, and no retry has been recorded. -/
structure Fresh (w : Cluster) : Prop extends Quiet w where
  attempts : w.db.attempts = []
  queue : w.queue = []
  history : w.history = []

theorem events_record (w : Cluster) (t : ℕ) (o : Op) (r : o.Answer) (es : List Effect) :
  (w.record t o r es).events
    = w.events ++ (Entry.publishes { thread := t, op := o, answer := r, effects := es }).toList
  := by
  rw [events, history_record, List.reverse_cons, List.filterMap_append]
  rfl

end Cluster

/-! ### Hooks run no bodies -/

namespace Solo

/-- Every operation but the run of a body. -/
def protocol : Protocol Op.Answer Unit where
  allows _ o := ∀ message, o ≠ .body message
  moves _ _ _ _ := True

theorem maintains_perform {o : Op} (ho : ∀ message, o ≠ .body message) :
  Hook.Maintains protocol (fun _ _ => True) (Hook.perform o)
  := Hook.maintains_perform (fun _ _ _ => ho) (fun _ _ _ _ _ _ => trivial)

theorem tracks : Hook.Tracks protocol (fun _ _ => True) where
  openSession := maintains_perform nofun
  closeSession := maintains_perform nofun
  commit := maintains_perform nofun
  now := maintains_perform nofun
  select _ _ := maintains_perform nofun
  update _ _ := maintains_perform nofun
  emit _ _ := maintains_perform nofun
  identityMap _ _ _ _ := trivial

/-- Where nothing has to be known, what is maintained is sustained. -/
theorem sustains {α : Type} {h : Hook α} (hh : Hook.Maintains protocol (fun _ _ => True) h) :
  Hook.Sustains protocol (fun _ _ => True) (fun _ _ => True) h
  := by
  intro s c _ _
  apply (hh s c trivial).mono
  intro r s' c' _
  exact ⟨trivial, fun _ _ => trivial⟩

theorem errs (i : UUID) : Hook.Errs protocol (fun _ _ => True) (fun _ _ => True) i where
  openSession _ _ _ := ⟨nofun, fun _ _ => ⟨trivial, trivial⟩⟩
  closeSession _ _ _ := ⟨nofun, fun _ _ => trivial⟩
  commit := sustains (Hook.maintains_commit tracks.commit)
  load := sustains (tracks.getTaskExecution i none)
  update status fields := sustains (tracks.updateTaskStatus i status fields)
  select _ := sustains (Hook.maintains_execute (maintains_perform nofun))
  insert _ := sustains (Hook.maintains_execute (maintains_perform nofun))
  resolve _ _ := sustains (Hook.maintains_execute (maintains_perform nofun))
  kiq _ := sustains (maintains_perform nofun)
  emit _ _ := maintains_perform nofun
  attempt _ _ _ := ⟨id, id⟩
  result _ _ _ := ⟨id, id⟩

/-- A hook runs no body. -/
theorem maintains (call : HookCall) (settings : Settings) (message : TaskiqMessage) :
  Hook.Maintains protocol (fun _ _ => True) (call.hook settings message)
  := by
  cases call with
  | preExecute => apply tracks.preExecute
  | postExecute => apply tracks.postExecute
  | onError exception =>
      cases hid : message.extractTaskExecutionId with
      | some i => apply (errs i).onError settings hid
      | none =>
          rw [HookCall.hook, Hook.onError, hid]
          apply Hook.maintains_pure

/-! ### A world and a cluster -/

/-- Only a lost transaction makes a statement raise. -/
theorem fate_of_tick {f : Fate} (h : f.tick = none) :
  f = .lost 0
  := by
  cases f with
  | commits => cases h
  | applied => cases h
  | lost n =>
      cases n with
      | zero => rfl
      | succ n => cases h

/-- A thread has done to a cluster what a hook has done to a world, since both were as they were
at the beginning.  After a lost connection the world still shows the effects of its transaction. -/
structure Mirrors (w₀ : World) (v₀ : Cluster) (t : ℕ) (w : World) (v : Cluster) : Prop where
  db : v.db = w.db
  txn : v.txn t = w.own ∨ w.fate = .lost 0 ∧ v.txn t = []
  others : ∀ t', t' ≠ t → v.txn t' = []
  locked : ∀ row t', v.locked row = some t' → t' = t
  sent : ∃ messages, w.sent = w₀.sent ++ messages ∧ v.queue = v₀.queue ++ messages
  events : ∃ events, w.events = w₀.events ++ events ∧ v.events = v₀.events ++ events

namespace Mirrors

variable {w₀ w w' : World} {v₀ v : Cluster} {t : ℕ}

/-- A transaction that has not been lost has the same effects. -/
theorem txn_of_ne (h : Mirrors w₀ v₀ t w v) (hfate : w.fate ≠ .lost 0) :
  v.txn t = w.own
  := h.txn.resolve_right (fun hlost => hfate hlost.1)

/-- Its statements read the same. -/
theorem view (h : Mirrors w₀ v₀ t w v) (hfate : w.fate ≠ .lost 0) :
  v.view t = w.view
  := by
  rw [Cluster.view, World.view, h.db, h.txn_of_ne hfate]

/-- No other thread holds a lock. -/
theorem free (h : Mirrors w₀ v₀ t w v) (s : Statement) :
  ¬ v.Blocked t s
  := by
  rintro ⟨row, t', -, hlocked, hne⟩
  apply hne (h.locked row t' hlocked)

/-- What is remembered and is no event leaves everything as it was. -/
theorem record (h : Mirrors w₀ v₀ t w v) {o : Op} {r : o.Answer} {es : List Effect}
    (hpublishes : Entry.publishes { thread := t, op := o, answer := r, effects := es } = none) :
  Mirrors w₀ v₀ t w (v.record t o r es)
  where
  db := h.db
  txn := h.txn
  others := h.others
  locked := h.locked
  sent := h.sent
  events := by
    rw [Cluster.events_record, hpublishes, Option.toList_none, List.append_nil]
    apply h.events

/-- The end of a transaction leaves the database that was committed. -/
theorem release (h : Mirrors w₀ v₀ t w v) {db : Database} (hdb : db = w'.db)
    (htxn : w'.own = [] ∨ w'.fate = .lost 0) (hsent : w'.sent = w.sent)
    (hevents : w'.events = w.events) :
  Mirrors w₀ v₀ t w' { v.release t with db := db }
  where
  db := hdb
  txn := by
    change Function.update v.txn t [] t = w'.own ∨ _ ∧ Function.update v.txn t [] t = []
    rw [Function.update_self]
    apply htxn.imp Eq.symm (fun hlost => ⟨hlost, rfl⟩)
  others t' hne := by
    change Function.update v.txn t [] t' = []
    rw [Function.update_of_ne hne]
    apply h.others t' hne
  locked row t' hlocked := by
    change (if v.locked row = some t then none else v.locked row) = some t' at hlocked
    split at hlocked
    · cases hlocked
    · apply h.locked row t' hlocked
  sent := by
    rw [hsent]
    apply h.sent
  events := by
    rw [hevents]
    apply h.events

/-- A statement adds its effects to the transaction, and takes the lock of its row. -/
theorem push (h : Mirrors w₀ v₀ t w v) (hfate : w.fate ≠ .lost 0) (s : Statement) (f : Fate) :
  Mirrors w₀ v₀ t { w.push s.effects with fate := f } (v.push t s)
  where
  db := h.db
  txn := by
    apply Or.inl
    rw [Cluster.txn_push, Function.update_self, h.txn_of_ne hfate]
    rfl
  others t' hne := by
    rw [Cluster.txn_push, Function.update_of_ne hne]
    apply h.others t' hne
  locked row t' hlocked := by
    change (if s.locks = some row then some t else v.locked row) = some t' at hlocked
    split at hlocked
    · apply (Option.some.inj hlocked).symm
    · apply h.locked row t' hlocked
  sent := h.sent
  events := h.events

/-- A message that the broker accepts waits for its delivery. -/
theorem enqueue (h : Mirrors w₀ v₀ t w v) (message : TaskiqMessage) :
  Mirrors w₀ v₀ t { w with sent := w.sent ++ [message] } (v.enqueue message)
  where
  db := h.db
  txn := h.txn
  others := h.others
  locked := h.locked
  sent := by
    obtain ⟨messages, hsent, hqueue⟩ := h.sent
    use messages ++ [message]
    constructor
    · rw [hsent, List.append_assoc]
    · rw [Cluster.enqueue, hqueue, List.append_assoc]
  events := h.events

theorem publish (h : Mirrors w₀ v₀ t w v) (room : Text) (event : TaskEvent) {r : Bool}
    (hr : r = true) :
  Mirrors w₀ v₀ t { w with events := w.events ++ [(room, event)] }
    (v.record t (.emit room event) r [])
  where
  db := h.db
  txn := h.txn
  others := h.others
  locked := h.locked
  sent := h.sent
  events := by
    obtain ⟨events, hw, hv⟩ := h.events
    use events ++ [(room, event)]
    constructor
    · rw [hw, List.append_assoc]
    · rw [Cluster.events_record, hv, hr, List.append_assoc]
      rfl

/-- An operation that ends the transaction of a thread does to a cluster what it does to a world. -/
theorem performs_release (h : Mirrors w₀ v₀ t w v) {o : Op} {r : o.Answer} {db : Database}
    {es : List Effect}
    (hperforms : v.Performs .any t o r (Cluster.record { v.release t with db := db } t o r es))
    (hdb : db = w'.db) (htxn : w'.own = [] ∨ w'.fate = .lost 0) (hsent : w'.sent = w.sent)
    (hevents : w'.events = w.events)
    (hpublishes : Entry.publishes { thread := t, op := o, answer := r, effects := es } = none) :
  ∃ v', v.Performs .any t o r v' ∧ Mirrors w₀ v₀ t w' v'
  := ⟨_, hperforms, (h.release hdb htxn hsent hevents).record hpublishes⟩

/-- A statement raises in both when the transaction of the world is lost, and otherwise its answer
is that of the world. -/
theorem performs_statement (h : Mirrors w₀ v₀ t w v) (s : Statement) :
  ∃ v', v.Performs .any t (.statement s) (World.handle (.statement s) w).1 v' ∧
    Mirrors w₀ v₀ t (World.handle (.statement s) w).2 v'
  := by
  rw [World.handle]
  cases htick : w.fate.tick with
  | none =>
      apply h.performs_release (.fails trivial) h.db (Or.inr (fate_of_tick htick)) rfl rfl rfl
  | some f =>
      have hfate : w.fate ≠ .lost 0 := by
        intro hlost
        rw [hlost] at htick
        cases htick
      have hanswers : (v.view t).Answers s (w.view.answer s) := by
        rw [h.view hfate]
        apply Database.answers_answer
      refine ⟨_, .answers (h.free s) hanswers, ?_⟩
      apply Mirrors.record
      · apply h.push hfate
      · rfl

/-- A commit takes effect in both or in neither. -/
theorem performs_commit (h : Mirrors w₀ v₀ t w v) :
  ∃ v', v.Performs .any t .commit (World.handle .commit w).1 v' ∧
    Mirrors w₀ v₀ t (World.handle .commit w).2 v'
  := by
  rw [World.handle]
  cases hfate : w.fate with
  | commits =>
      have hview : v.view t = w.view := h.view (by simp [hfate])
      exact h.performs_release .commits hview (Or.inl rfl) rfl rfl rfl
  | lost n =>
      exact h.performs_release (.lost trivial) h.db (Or.inl rfl) rfl rfl rfl
  | applied =>
      have hview : v.view t = w.view := h.view (by simp [hfate])
      exact h.performs_release (.applied trivial) hview (Or.inl rfl) rfl rfl rfl

/-- A message is accepted by both brokers or by neither. -/
theorem performs_kiq (h : Mirrors w₀ v₀ t w v) (message : TaskiqMessage) :
  ∃ v', v.Performs .any t (.kiq message) (World.handle (.kiq message) w).1 v' ∧
    Mirrors w₀ v₀ t (World.handle (.kiq message) w).2 v'
  := by
  change ∃ v', v.Performs .any t (.kiq message) w.accepts v' ∧
    Mirrors w₀ v₀ t (if w.accepts = true then _ else w) v'
  obtain haccepts | haccepts := Bool.eq_false_or_eq_true w.accepts
  · rw [if_pos haccepts]
    use (v.enqueue message).record t (.kiq message) true []
    constructor
    · rw [haccepts]
      apply Cluster.Performs.accepts
    · apply Mirrors.record
      · apply h.enqueue
      · rfl
  · rw [if_neg (by simp [haccepts])]
    use v.record t (.kiq message) false []
    constructor
    · rw [haccepts]
      apply Cluster.Performs.rejects
      trivial
    · apply h.record
      rfl

/-- An event is published in both or in neither. -/
theorem performs_emit (h : Mirrors w₀ v₀ t w v) (room : Text) (event : TaskEvent) :
  ∃ v', v.Performs .any t (.emit room event) (World.handle (.emit room event) w).1 v' ∧
    Mirrors w₀ v₀ t (World.handle (.emit room event) w).2 v'
  := by
  change ∃ v', v.Performs .any t (.emit room event) w.emits v' ∧
    Mirrors w₀ v₀ t (if w.emits = true then _ else w) v'
  refine ⟨_, .emits w.emits, ?_⟩
  obtain hemits | hemits := Bool.eq_false_or_eq_true w.emits
  · rw [if_pos hemits]
    apply h.publish room event hemits
  · rw [if_neg (by simp [hemits])]
    apply h.record
    rw [hemits]
    rfl

end Mirrors

/-- A thread of a cluster may do what a hook does to a world, however its statements, its commits
and its messages fare. -/
theorem hosts (w₀ : World) (v₀ : Cluster) (t : ℕ)
    (spawns : Cluster → Program Op.Answer PUnit → Cluster → Prop) :
  (workers .any spawns).Hosts t World.handle protocol (fun _ w v => Mirrors w₀ v₀ t w v)
  := by
  intro _ w v o h hallows
  suffices hperforms : ∃ v', v.Performs .any t o (World.handle o w).1 v' ∧
      Mirrors w₀ v₀ t (World.handle o w).2 v' by
    obtain ⟨v', hperforms, h'⟩ := hperforms
    exact ⟨(), v', trivial, hperforms, h'⟩
  cases o with
  | openSession =>
      exact h.performs_release .opens h.db (Or.inl rfl) rfl rfl rfl
  | closeSession =>
      exact h.performs_release .closes h.db (Or.inl rfl) rfl rfl rfl
  | statement s => apply h.performs_statement
  | commit => apply h.performs_commit
  | now =>
      refine ⟨_, .now w.clock, ?_⟩
      apply Mirrors.record
      · exact ⟨h.db, h.txn, h.others, h.locked, h.sent, h.events⟩
      · rfl
  | kiq message => apply h.performs_kiq
  | emit room event => apply h.performs_emit
  | body message => exact absurd rfl (hallows message)

/-! ### Calls of hooks -/

/-- Both begin with the same database and without a transaction. -/
theorem Mirrors.initial {w : World} {v : Cluster} (hquiet : v.Quiet) (hdb : v.db = w.db)
    (hown : w.own = []) (t : ℕ) :
  Mirrors w v t w v
  where
  db := hdb
  txn := Or.inl ((hquiet.txn t).trans hown.symm)
  others t' _ := hquiet.txn t'
  locked row t' hlocked := by
    rw [hquiet.locked] at hlocked
    cases hlocked
  sent := ⟨[], (List.append_nil _).symm, (List.append_nil _).symm⟩
  events := ⟨[], (List.append_nil _).symm, (List.append_nil _).symm⟩

/-- A crash leaves no transaction. -/
theorem Mirrors.quiet_release {w₀ w : World} {v₀ v : Cluster} {t : ℕ}
    (h : Mirrors w₀ v₀ t w v) :
  (v.release t).Quiet
  where
  txn t' := by
    rw [Cluster.txn_release]
    by_cases ht : t' = t
    · rw [ht, Function.update_self]
    · rw [Function.update_of_ne ht]
      apply h.others t' ht
  locked row := by
    change (if v.locked row = some t then none else v.locked row) = none
    split
    · rfl
    case isFalse hne =>
      cases hlocked : v.locked row with
      | none => rfl
      | some t' =>
          rw [hlocked, h.locked row t' hlocked] at hne
          contradiction

/-- A cluster has been left as a world has, since both were as they were at the beginning. -/
structure Does (w₀ w : World) (v₀ v : Cluster) : Prop where
  quiet : v.Quiet
  db : v.db = w.db
  sent : ∃ messages, w.sent = w₀.sent ++ messages ∧ v.queue = v₀.queue ++ messages
  events : ∃ events, w.events = w₀.events ++ events ∧ v.events = v₀.events ++ events

/-- What a hook does by itself, wherever it is stopped, a new thread may do, and stop. -/
theorem exists_reaches (call : HookCall) (settings : Settings) (message : TaskiqMessage)
    (s : Invocation) {w : World} (hown : w.own = []) {c : Machine.Config Op.Answer Cluster}
    (hquiet : c.world.Quiet) (hdb : c.world.db = w.db)
    {spawns : Cluster → Program Op.Answer PUnit → Cluster → Prop}
    (hspawns : spawns c.world ((call.hook settings message).thread s) c.world) (n : ℕ) :
  ∃ c', Relation.ReflTransGen (workers .any spawns).Step c c' ∧
    Does w (((call.hook settings message).program s).runFor World.handle n w).2 c.world c'.world
  := by
  obtain ⟨ps, v⟩ := c
  have hthread : (ps ++ [(call.hook settings message).thread s])[ps.length]?
      = some ((call.hook settings message).program s >>= fun _ => pure ⟨⟩) :=
    List.getElem?_concat_length
  obtain ⟨q, -, v', hrun, hmirrors, -⟩ := (hosts w v ps.length spawns).reaches
    (maintains call settings message s () trivial) (.initial hquiet hdb hown ps.length) hthread n
  have hstopped := List.getElem?_set_self (a := q) (List.getElem?_eq_some_iff.mp hthread).1
  have hcrash : (workers .any spawns).crash ps.length v' (v'.release ps.length) := ⟨trivial, rfl⟩
  exact ⟨_, (hrun.head (.spawn hspawns)).tail (.crash hstopped hcrash),
    hmirrors.quiet_release, hmirrors.db, hmirrors.sent, hmirrors.events⟩

end Solo

/-- What processing messages one hook at a time commits, workers that share a cluster may commit
too. -/
theorem Processed.exists_committed {w : World} (h : Processed w) :
  ∃ (v : Cluster) (c : Machine.Config Op.Answer Cluster), v.Fresh ∧
    (workers .any SpawnsCall).Reachable v c ∧ c.world.Quiet ∧ c.world.db = w.db
  := by
  induction h with
  | @start w hattempts hown =>
      have hquiet : Cluster.Quiet { db := w.db } := ⟨fun _ => rfl, fun _ => rfl⟩
      exact ⟨{ db := w.db }, _, ⟨hquiet, hattempts, rfl, rfl⟩, .refl, hquiet, rfl⟩
  | @create w hw hown task hfresh ih =>
      obtain ⟨v, c, hv, hreachable, hquiet, hdb⟩ := ih
      have hspawn : SpawnsCall c.world (.pure ⟨⟩) _ := .create task (hdb ▸ hfresh)
      refine ⟨v, _, hv, hreachable.tail (.spawn hspawn), ⟨hquiet.txn, hquiet.locked⟩, ?_⟩
      rw [hdb]
  | resume hw w' hdb' hown ih =>
      rw [hdb']
      apply ih
  | invoke hw hown call settings message s n ih =>
      obtain ⟨v, c, hv, hreachable, hquiet, hdb⟩ := ih
      obtain ⟨c', hreaches, hdoes⟩ := Solo.exists_reaches call settings message s hown hquiet hdb
        (SpawnsCall.call call settings message s) n
      exact ⟨v, c', hv, hreachable.trans hreaches, hdoes.quiet, hdoes.db⟩

/-- A hook that is called after messages were processed one hook at a time, and is stopped anywhere,
does what a thread may do among workers that share a cluster and have reached the same database: it
commits the same, and it sends the same messages and publishes the same events. -/
theorem Processed.reachable_by_workers {w : World} (h : Processed w) (hown : w.own = [])
    (call : HookCall) (settings : Settings) (message : TaskiqMessage) (s : Invocation) (n : ℕ) :
  ∃ (v : Cluster) (c c' : Machine.Config Op.Answer Cluster), v.Fresh ∧
    (workers .any SpawnsCall).Reachable v c ∧ c.world.db = w.db ∧
    Relation.ReflTransGen (workers .any SpawnsCall).Step c c' ∧
    Solo.Does w (((call.hook settings message).program s).runFor World.handle n w).2
      c.world c'.world
  := by
  obtain ⟨v, c, hv, hreachable, hquiet, hdb⟩ := h.exists_committed
  obtain ⟨c', hreaches, hdoes⟩ := Solo.exists_reaches call settings message s hown hquiet hdb
    (SpawnsCall.call call settings message s) n
  exact ⟨v, c, c', hv, hreachable, hdb, hreaches, hdoes⟩

/-- The world of a worker that takes over from a stopped one, and returns. -/
def Example.takenOver : World :=
  ((((HookCall.onError exception).hook settings message).program failed).runFor World.handle 20
    { stopped with own := [] }).2

/-- A worker that takes over from a stopped one sends the message once more and publishes an event,
and so may a thread. -/
theorem processed_reachable_by_workers_of_stopped :
  Example.stopped.sent.length = 1 ∧ Example.takenOver.sent.length = 2 ∧
  Example.takenOver.events.length = 1 ∧
  ∃ (v : Cluster) (c c' : Machine.Config Op.Answer Cluster), v.Fresh ∧
    (workers .any SpawnsCall).Reachable v c ∧ c.world.db = Example.stopped.db ∧
    Relation.ReflTransGen (workers .any SpawnsCall).Step c c' ∧
    Solo.Does { Example.stopped with own := [] } Example.takenOver c.world c'.world
  := ⟨rfl, rfl, rfl, Processed.reachable_by_workers
    (.resume (.invoke (.start rfl rfl) rfl _ _ _ _ _) _ rfl rfl) rfl
    (.onError Example.exception) Example.settings Example.message Example.failed 20⟩

end WorkerTemplate
