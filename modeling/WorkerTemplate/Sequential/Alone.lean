import WorkerTemplate.AuditTable
import WorkerTemplate.Concurrent.Hooks
import WorkerTemplate.Sequential.Recording

/-!
# What a hook that runs alone sees

A hook that runs alone sees the committed database, the database as its transaction reads
it, and the events it has emitted so far, each with the database that was committed at that
moment.  Every operation may fail.  The protocol of such hooks has its statements keep a well
audited table.
-/

namespace WorkerTemplate

/-- An attempt to publish an event, with the committed database at this moment. -/
structure Emission where
  room : Text
  event : TaskEvent
  db : Database

/-- What a hook that runs alone sees. -/
structure Scene where
  db : Database
  /-- The database as the open transaction reads it. -/
  view : Database
  emissions : List Emission := []

/-- A scene in which the tables are well audited, if they are to be. -/
def Scene.Sound (sound : Prop) (c : Scene) : Prop :=
  sound → c.db.WellAudited ∧ c.view.WellAudited

/-- The protocol of hooks that run alone, and keep the tables well audited, if they are to be. -/
def alone (sound : Prop) : Protocol Op.Answer Scene where
  allows c o :=
    match o with
    | .statement st => sound → (c.view.view st.effects).WellAudited
    | _ => True
  moves c o r c' :=
    match o, r with
    | .openSession, _ => c' = { c with view := c.db }
    | .closeSession, _ => c' = { c with view := c.db }
    | .statement _, .error _ => c' = c
    | .statement st, .ok r => r = c.view.answer st ∧ c' = { c with view := c.view.view st.effects }
    | .commit, .ok _ => c' = { c with db := c.view }
    | .commit, .error _ => c' = { c with view := c.db } ∨ c' = { c with db := c.view }
    | .emit room event, _ =>
        c' = { c with emissions := c.emissions ++ [{ room, event, db := c.db }] }
    | .now, _ => c' = c
    | .kiq _, _ => c' = c
    | .body _, _ => c' = c

/-! ### Worlds -/

namespace World

/-- A world together with the emissions of its hook. -/
def watch (o : Op) (w : World × List Emission) : o.Answer × (World × List Emission) :=
  ((w.1.handle o).1, (w.1.handle o).2,
    match o with
    | .emit room event => w.2 ++ [{ room, event, db := w.1.db }]
    | _ => w.2)

/-- Watching a world changes nothing. -/
theorem run_watch {α : Type} (p : Program Op.Answer α) (w : World) (emissions : List Emission) :
  (p.run watch (w, emissions)).1 = (p.run handle w).1 ∧
    (p.run watch (w, emissions)).2.1 = (p.run handle w).2
  := by
  induction p generalizing w emissions with
  | pure a => exact ⟨rfl, rfl⟩
  | perform o k ih => apply ih

/-- Watching a world that is stopped changes nothing. -/
theorem runFor_watch {α : Type} (p : Program Op.Answer α) (n : ℕ) (w : World)
    (emissions : List Emission) :
  (p.runFor watch n (w, emissions)).2.1 = (p.runFor handle n w).2
  := by
  induction p generalizing n w emissions with
  | pure a =>
      cases n with
      | zero => rfl
      | succ n => rfl
  | perform o k ih =>
      cases n with
      | zero => rfl
      | succ n => apply ih

/-- A scene shows a world and its emissions. -/
structure Shows (sound : Prop) (c : Scene) (w : World × List Emission) : Prop where
  db : w.1.db = c.db
  view : w.1.view = c.view
  emissions : w.2 = c.emissions
  sound : c.Sound sound

/-- The scene at the beginning of a hook. -/
theorem shows_initial {sound : Prop} {w : World} (hown : w.own = [])
    (hsound : sound → w.db.WellAudited) :
  Shows sound { db := w.db, view := w.db } (w, [])
  where
  db := rfl
  view := by rw [World.view, hown, Database.view_nil]
  emissions := rfl
  sound h := ⟨hsound h, hsound h⟩

/-- The world of a scene that is sound is well audited. -/
theorem Shows.wellAudited {c : Scene} {w : World × List Emission} (h : Shows True c w) :
  w.1.db.WellAudited ∧ w.1.view.WellAudited
  := by
  rw [h.db, h.view]
  apply h.sound trivial

/-- What a world does is what its scene shows. -/
theorem refines_watch (sound : Prop) :
  Program.Refines watch (alone sound) (Shows sound)
  := by
  rintro ⟨db, view, emissions⟩ ⟨w, emissions'⟩ o ⟨hdb, hview, hemissions, hsound⟩ hallows
  obtain rfl : w.db = db := hdb
  obtain rfl : w.view = view := hview
  obtain rfl : emissions' = emissions := hemissions
  cases o with
  | openSession =>
      exact ⟨_, rfl, rfl, rfl, rfl, fun h => ⟨(hsound h).1, (hsound h).1⟩⟩
  | closeSession =>
      exact ⟨_, rfl, rfl, rfl, rfl, fun h => ⟨(hsound h).1, (hsound h).1⟩⟩
  | now => exact ⟨_, rfl, rfl, rfl, rfl, hsound⟩
  | body message => exact ⟨_, rfl, rfl, rfl, rfl, hsound⟩
  | kiq message =>
      simp only [watch, handle]
      split
      · exact ⟨_, rfl, rfl, rfl, rfl, hsound⟩
      · exact ⟨_, rfl, rfl, rfl, rfl, hsound⟩
  | emit room event =>
      simp only [watch, handle]
      split
      · exact ⟨_, rfl, rfl, rfl, rfl, hsound⟩
      · exact ⟨_, rfl, rfl, rfl, rfl, hsound⟩
  | statement st =>
      simp only [watch, handle]
      split
      · exact ⟨_, rfl, rfl, rfl, rfl, hsound⟩
      · refine ⟨_, ⟨rfl, rfl⟩, rfl, ?_, rfl, fun h => ⟨(hsound h).1, hallows h⟩⟩
        apply Database.view_append w.db w.own st.effects
  | commit =>
      simp only [watch, handle]
      split
      · exact ⟨_, rfl, rfl, rfl, rfl, fun h => ⟨(hsound h).2, (hsound h).2⟩⟩
      · exact ⟨_, Or.inl rfl, rfl, rfl, rfl, fun h => ⟨(hsound h).1, (hsound h).1⟩⟩
      · exact ⟨_, Or.inr rfl, rfl, rfl, rfl, fun h => ⟨(hsound h).2, (hsound h).2⟩⟩

end World

namespace Hook

variable {α β : Type} {sound : Prop} {s : Invocation} {c : Scene}

/-- What a hook tries to publish. -/
def emissions (h : Hook α) (s : Invocation) (w : World) : List Emission :=
  ((h.program s).run World.watch (w, [])).2.2

/-- A hook that is watched does what it does. -/
theorem exec_eq_watch (h : Hook α) (s : Invocation) (w : World) :
  (exec h s w).1 = ((h.program s).run World.watch (w, [])).1
  := (World.run_watch (h.program s) w []).1.symm

/-! ### Parts of a session -/

/-- A part of a hook that runs alone: it emits nothing, keeps the tables sound, and leaves `Q`
when it returns. -/
def Leaves (sound : Prop) (h : Hook α) (Q : α → Invocation → Scene → Prop) (s : Invocation)
    (c : Scene) : Prop :=
  Obeys (alone sound) h
    (fun r s' c' => c'.Sound sound ∧ c'.emissions = c.emissions ∧ ∀ a, r = .ok a → Q a s' c') s c

variable {Q Q' : α → Invocation → Scene → Prop}

theorem Leaves.mono {h : Hook α} (hh : Leaves sound h Q s c)
    (hQ : ∀ a s' c', c'.Sound sound → c'.emissions = c.emissions → Q a s' c' → Q' a s' c') :
  Leaves sound h Q' s c
  := by
  apply Obeys.mono hh
  rintro r s' c' ⟨hsound, hemissions, hleaves⟩
  exact ⟨hsound, hemissions, fun a ha => hQ a s' c' hsound hemissions (hleaves a ha)⟩

/-- Parts of a hook compose. -/
theorem Leaves.bind {h : Hook α} {f : α → Hook β} {Q' : β → Invocation → Scene → Prop}
    (hh : Leaves sound h Q s c)
    (hf : ∀ a s' c', c'.Sound sound → Q a s' c' → Leaves sound (f a) Q' s' c') :
  Leaves sound (h >>= f) Q' s c
  := by
  rw [Leaves, obeys_bind]
  apply Obeys.mono hh
  rintro (e | a) s' c' ⟨hsound, hemissions, hleaves⟩
  · exact ⟨hsound, hemissions, by rintro a ⟨⟩⟩
  · rw [next_ok]
    apply Obeys.mono (hf a s' c' hsound (hleaves a rfl))
    rintro r s'' c'' ⟨hsound', hemissions', hleaves'⟩
    exact ⟨hsound', hemissions'.trans hemissions, hleaves'⟩

theorem leaves_pure (hsound : c.Sound sound) {a : α} (hQ : Q a s c) :
  Leaves sound (pure a) Q s c
  := by
  refine ⟨hsound, rfl, ?_⟩
  rintro b ⟨⟩
  apply hQ

theorem leaves_throw (hsound : c.Sound sound) (e : OperationalError) :
  Leaves sound (throw e : Hook α) Q s c
  := ⟨hsound, rfl, by rintro b ⟨⟩⟩

/-- Reading the objects. -/
theorem leaves_get_bind {f : Invocation → Hook β} {Q : β → Invocation → Scene → Prop}
    (hf : Leaves sound (f s) Q s c) :
  Leaves sound (get >>= f) Q s c
  := by
  rw [Leaves, obeys_bind, obeys_get, next_ok]
  apply hf

/-- Changing the objects. -/
theorem leaves_modify {Q : PUnit → Invocation → Scene → Prop} (hsound : c.Sound sound)
    {f : Invocation → Invocation} (hQ : Q ⟨⟩ (f s) c) :
  Leaves sound (modify f : Hook PUnit) Q s c
  := by
  refine ⟨hsound, rfl, ?_⟩
  rintro b ⟨⟩
  apply hQ

theorem leaves_modify_bind {f : Invocation → Invocation} {g : PUnit → Hook β}
    {Q : β → Invocation → Scene → Prop} (hg : Leaves sound (g ⟨⟩) Q (f s) c) :
  Leaves sound (modify f >>= g) Q s c
  := by
  rw [Leaves, obeys_bind, obeys_modify, next_ok]
  apply hg

theorem leaves_now_bind {f : Time → Hook β} {Q : β → Invocation → Scene → Prop}
    (hf : ∀ now, Leaves sound (f now) Q s c) :
  Leaves sound (perform .now >>= f) Q s c
  := by
  rw [Leaves, obeys_bind, obeys_perform]
  use trivial
  rintro now c' hmoves
  obtain rfl : c' = c := hmoves
  apply hf now

theorem leaves_kiq_bind {message : TaskiqMessage} {f : Bool → Hook β}
    {Q : β → Invocation → Scene → Prop} (hf : ∀ accepted, Leaves sound (f accepted) Q s c) :
  Leaves sound (perform (.kiq message) >>= f) Q s c
  := by
  rw [Leaves, obeys_bind, obeys_perform]
  use trivial
  rintro accepted c' hmoves
  obtain rfl : c' = c := hmoves
  apply hf accepted

/-- A statement that keeps the tables sound. -/
theorem leaves_execute {st : Statement} {Q : st.Answer → Invocation → Scene → Prop}
    (hsound : c.Sound sound) (hkeeps : sound → (c.view.view st.effects).WellAudited)
    (hQ : Q (c.view.answer st) s { c with view := c.view.view st.effects }) :
  Leaves sound (execute st) Q s c
  := by
  rw [Leaves, obeys_execute]
  use hkeeps
  rintro (e | r) c' hmoves
  · obtain rfl : c' = c := hmoves
    exact ⟨hsound, rfl, by rintro b ⟨⟩⟩
  · obtain ⟨rfl, rfl⟩ := hmoves
    refine ⟨fun h => ⟨(hsound h).1, hkeeps h⟩, rfl, ?_⟩
    rintro b ⟨⟩
    apply hQ

/-- A hook goes on from the answer to a statement. -/
theorem leaves_execute_bind {st : Statement} {f : st.Answer → Hook β}
    {Q : β → Invocation → Scene → Prop} (hsound : c.Sound sound)
    (hkeeps : sound → (c.view.view st.effects).WellAudited)
    (hf : Scene.Sound sound { c with view := c.view.view st.effects } →
      Leaves sound (f (c.view.answer st)) Q s { c with view := c.view.view st.effects }) :
  Leaves sound (execute st >>= f) Q s c
  := by
  have hexecute : Leaves sound (execute st) (fun r s' c' => r = c.view.answer st ∧ s' = s ∧
      c' = { c with view := c.view.view st.effects }) s c :=
    leaves_execute hsound hkeeps ⟨rfl, rfl, rfl⟩
  apply hexecute.bind
  rintro r s' c' hsound' ⟨rfl, rfl, rfl⟩
  apply hf hsound'

/-- A query reads the view of the transaction. -/
theorem leaves_query_bind {st : Statement} (hquery : st.effects = []) {f : st.Answer → Hook β}
    {Q : β → Invocation → Scene → Prop} (hsound : c.Sound sound)
    (hf : Leaves sound (f (c.view.answer st)) Q s c) :
  Leaves sound (execute st >>= f) Q s c
  := by
  have hview : c.view.view st.effects = c.view := by rw [hquery, Database.view_nil]
  apply leaves_execute_bind hsound
  · rw [hview]
    exact fun h => (hsound h).2
  · intro _
    rw [hview]
    apply hf

/-- A commit that returns commits what the transaction reads. -/
theorem leaves_commit {Q : Unit → Invocation → Scene → Prop} (hsound : c.Sound sound)
    (hQ : Q () s { c with db := c.view }) :
  Leaves sound commit Q s c
  := by
  rw [Leaves, obeys_commit]
  use trivial
  rintro (e | r) c' hmoves
  · obtain rfl | rfl : c' = { c with view := c.db } ∨ c' = { c with db := c.view } := hmoves
    · exact ⟨fun h => ⟨(hsound h).1, (hsound h).1⟩, rfl, by rintro b ⟨⟩⟩
    · exact ⟨fun h => ⟨(hsound h).2, (hsound h).2⟩, rfl, by rintro b ⟨⟩⟩
  · obtain rfl : c' = { c with db := c.view } := hmoves
    refine ⟨fun h => ⟨(hsound h).2, (hsound h).2⟩, rfl, ?_⟩
    rintro b ⟨⟩
    apply hQ

/-- A hook goes on from what it has committed. -/
theorem leaves_commit_bind {f : Unit → Hook β} {Q : β → Invocation → Scene → Prop}
    (hsound : c.Sound sound)
    (hf : Scene.Sound sound { c with db := c.view } →
      Leaves sound (f ()) Q s { c with db := c.view }) :
  Leaves sound (commit >>= f) Q s c
  := by
  have hcommit : Leaves sound commit (fun _ s' c' => s' = s ∧ c' = { c with db := c.view }) s c :=
    leaves_commit hsound ⟨rfl, rfl⟩
  apply hcommit.bind
  rintro - s' c' hsound' ⟨rfl, rfl⟩
  apply hf hsound'

/-! ### Services -/

/-- The instance of an execution a session has loaded is the row it reads. -/
def InStep (i : UUID) (s : Invocation) (c : Scene) : Prop :=
  ∀ task, s.identityMap i = some task → c.view.execution? i = some task

/-- Loading an execution gives the row the transaction reads. -/
theorem leaves_getTaskExecution (hsound : c.Sound sound) {i : UUID} (hinStep : InStep i s c) :
  Leaves sound (getTaskExecution i none) (fun task s' c' => c' = c ∧ task = c.view.execution? i ∧
    s'.identityMap i = task ∧ s'.attempt = s.attempt ∧ s'.result = s.result) s c
  := by
  rw [getTaskExecution]
  apply leaves_query_bind rfl hsound
  simp only [Database.answer]
  cases hrow : c.view.execution? i with
  | none =>
      have hnone : s.identityMap i = none := by
        cases hmap : s.identityMap i with
        | none => rfl
        | some task => cases hrow.symm.trans (hinStep task hmap)
      apply leaves_pure hsound ⟨rfl, rfl, hnone, rfl, rfl⟩
  | some row =>
      have hid : row.id = i := Database.id_of_execution? hrow
      apply leaves_get_bind
      rw [hid]
      cases hmap : s.identityMap i with
      | some task =>
          obtain rfl : row = task := Option.some_injective _ (hrow.symm.trans (hinStep task hmap))
          apply leaves_pure hsound ⟨rfl, rfl, hmap, rfl, rfl⟩
      | none =>
          apply leaves_modify_bind
          apply leaves_pure hsound ⟨rfl, rfl, Invocation.identityMap_keep_of_id s row hid, rfl, rfl⟩

/-- Refreshing an instance reads its row. -/
theorem leaves_refresh (hsound : c.Sound sound) {task row : TaskExecution}
    (hrow : c.view.execution? task.id = some row) :
  Leaves sound (refresh task) (fun _ s' c' => c' = c ∧ s' = s.keep row) s c
  := by
  rw [refresh]
  apply leaves_query_bind rfl hsound
  simp only [Database.answer, hrow]
  apply leaves_modify_bind
  apply leaves_pure hsound ⟨rfl, rfl⟩

/-- The scene after the row of an execution has been updated. -/
def updated (c : Scene) (task : TaskExecution) (status : TaskStatus) (fields : StatusUpdate)
    (now : Time) : Scene where
  db := c.db
  view := c.view.apply (.updateExecution task.id (task.changes (task.assign status fields now)))
  emissions := c.emissions

theorem execution?_updated {i : UUID} {task : TaskExecution} (status : TaskStatus)
    (fields : StatusUpdate) (now : Time) (htask : c.view.execution? i = some task) :
  (updated c task status fields now).view.execution? i = some (task.assign status fields now)
  := by
  have hid : task.id = i := Database.id_of_execution? htask
  rw [updated, hid, Database.execution?_updateExecution_self, htask, Option.map_some,
    TaskExecution.set_changes_assign]

/-- An update of a row that a transaction reads keeps a table well audited. -/
theorem wellAudited_updated {i : UUID} {task : TaskExecution} (status : TaskStatus)
    (fields : StatusUpdate) (now : Time) (htask : c.view.execution? i = some task)
    (h : c.view.WellAudited) :
  (updated c task status fields now).view.WellAudited
  := by
  have hid : task.id = i := Database.id_of_execution? htask
  apply h.updateExecution
  intro task' htask'
  rw [hid, htask] at htask'
  obtain rfl := Option.some_injective _ htask'
  rw [TaskExecution.set_changes_assign]
  change task.retryCount ≤ if status = .retrying then task.retryCount + 1 else task.retryCount
  split
  · apply Nat.le_succ
  · apply le_rfl

/-- Updating the status of an execution updates the row the transaction reads. -/
theorem leaves_updateTaskStatus (hsound : c.Sound sound) {i : UUID} {task : TaskExecution}
    (status : TaskStatus) (fields : StatusUpdate) (hinStep : InStep i s c)
    (htask : c.view.execution? i = some task) :
  Leaves sound (updateTaskStatus i status fields) (fun _ s' c' => ∃ now,
    c' = updated c task status fields now ∧
      s'.identityMap i = some (task.assign status fields now) ∧
      s'.attempt = s.attempt ∧ s'.result = s.result) s c
  := by
  rw [updateTaskStatus]
  apply (leaves_getTaskExecution hsound hinStep).bind
  rintro task' s₁ c₁ - ⟨rfl, htask', hmap, hattempt, hresult⟩
  rw [htask] at htask'
  subst htask'
  apply leaves_now_bind
  intro now
  have hid : task.id = i := Database.id_of_execution? htask
  have hrow := execution?_updated status fields now htask
  apply leaves_execute_bind hsound
  · exact fun h => wellAudited_updated status fields now htask (hsound h).2
  · intro hsound'
    rw [← hid] at hrow
    apply (leaves_refresh hsound' hrow).bind
    rintro - s₂ c₂ hsound₂ ⟨rfl, rfl⟩
    refine leaves_pure hsound₂ ⟨now, rfl, ?_, hattempt, hresult⟩
    apply Invocation.identityMap_keep_of_id
    apply hid

/-- Updating the status of an execution that does not exist does nothing. -/
theorem leaves_updateTaskStatus_none (hsound : c.Sound sound) {i : UUID} (status : TaskStatus)
    (fields : StatusUpdate) (hinStep : InStep i s c) (hnone : c.view.execution? i = none) :
  Leaves sound (updateTaskStatus i status fields) (fun _ s' c' => c' = c ∧
    s'.attempt = s.attempt ∧ s'.result = s.result) s c
  := by
  rw [updateTaskStatus]
  apply (leaves_getTaskExecution hsound hinStep).bind
  rintro task s' c' - ⟨rfl, htask, -, hattempt, hresult⟩
  rw [hnone] at htask
  subst htask
  apply leaves_pure hsound ⟨rfl, hattempt, hresult⟩

/-- Recording an attempt inserts it. -/
theorem leaves_recordTaskAttempt (hsound : c.Sound sound) (i t : UUID) (n : ℕ)
    (before after : TaskStatus) (errorDetail : Option String) (d : TaskDispatchResult)
    (hkeeps : sound → ∀ row : TaskAttempt, row.taskExecutionId = i → row.attemptNumber = n →
      row.dispatchResult = d → (c.view.apply (.insertAttempt row)).WellAudited) :
  Leaves sound (recordTaskAttempt i t n before after errorDetail d) (fun _ s' c' => s' = s ∧
    c'.db = c.db ∧ ∀ j, c'.view.execution? j = c.view.execution? j) s c
  := by
  rw [recordTaskAttempt]
  apply leaves_execute hsound
  · exact fun h => hkeeps h _ rfl rfl rfl
  · exact ⟨rfl, rfl, fun j => rfl⟩

/-- Marking the pending row that is found keeps a table well audited. -/
theorem wellAudited_markEffects {db : Database} (h : db.WellAudited) (i : UUID) (n : ℕ) :
  (db.view (markEffects db i n)).WellAudited
  := by
  unfold markEffects
  split
  case h_1 => exact h
  case h_2 attempt hfound =>
    split
    case isTrue hpending => exact h.updateAttempt (Database.of_latestAttempt? hfound).1 hpending
    case isFalse => exact h

/-- Marking an attempt finds out whether there is one. -/
theorem leaves_markTaskAttemptDispatched (hsound : c.Sound sound) (i : UUID) (n : ℕ) :
  Leaves sound (markTaskAttemptDispatched i n) (fun _ s' c' => s' = s ∧
    c' = { c with view := c.view.view (markEffects c.view i n) }) s c
  := by
  have hkeeps (h : sound) := wellAudited_markEffects (hsound h).2 i n
  rw [markTaskAttemptDispatched, getLatestPendingOrDispatchedTaskAttempt]
  apply leaves_query_bind rfl hsound
  simp only [Database.answer, markEffects] at hkeeps ⊢
  cases hfound : c.view.latestAttempt? (.pendingOrDispatched i n) with
  | none => apply leaves_pure hsound ⟨rfl, rfl⟩
  | some attempt =>
      rw [hfound] at hkeeps
      simp only [] at hkeeps ⊢
      split
      case isTrue hpending =>
        rw [if_pos hpending] at hkeeps
        apply leaves_execute_bind hsound
        · apply hkeeps
        · intro hsound'
          apply leaves_pure hsound' ⟨rfl, rfl⟩
      case isFalse hdispatched => exact leaves_pure hsound ⟨rfl, rfl⟩

/-- An execution has no pending row after its pending row has been taken for sent. -/
theorem settled_reconcileEffects {db : Database} (h : db.WellAudited) (i : UUID) :
  (db.view (reconcileEffects db i)).Settled i
  := by
  unfold reconcileEffects
  split
  case h_1 hnone => exact Database.settled_of_latestAttempt? hnone
  case h_2 attempt hfound =>
    have hpending : attempt.dispatchResult = .pending := by
      obtain ⟨-, hholds⟩ := Database.of_latestAttempt? hfound
      simp only [AttemptFilter.holds, Bool.and_eq_true, decide_eq_true_eq] at hholds
      apply hholds.2
    rw [markEffects, h.latestAttempt?_pendingOrDispatched hfound]
    simp only [hpending, if_true]
    apply h.settled_updateAttempt hfound

/-- Reconciling takes the pending row for sent, and leaves the executions alone. -/
theorem leaves_reconcilePending (hsound : c.Sound sound) (i : UUID) :
  Leaves sound (reconcilePending i) (fun _ s' c' => s' = s ∧ c'.db = c.db ∧
    (∀ j, c'.view.execution? j = c.view.execution? j) ∧ (sound → c'.view.Settled i)) s c
  := by
  have hsettled (h : sound) := settled_reconcileEffects (hsound h).2 i
  rw [reconcilePending, getLatestPendingTaskAttempt]
  apply leaves_query_bind rfl hsound
  simp only [Database.answer, reconcileEffects] at hsettled ⊢
  cases hfound : c.view.latestAttempt? (.pending i) with
  | none =>
      rw [hfound] at hsettled
      apply leaves_pure hsound ⟨rfl, rfl, fun j => rfl, hsettled⟩
  | some attempt =>
      rw [hfound] at hsettled
      apply (leaves_markTaskAttemptDispatched hsound i attempt.attemptNumber).bind
      rintro marked s' c' hsound' ⟨rfl, rfl⟩
      cases marked with
      | false => apply leaves_throw hsound' _
      | true =>
          refine leaves_pure hsound' ⟨rfl, rfl, ?_, hsettled⟩
          intro j
          apply execution?_view_markEffects

end Hook

end WorkerTemplate
