import WorkerTemplate.Middleware.StateTracking
import WorkerTemplate.Sequential.Services

/-!
# Transactions that are lost

What a hook does in a transaction that is going to be lost.  Most hooks are inert: they
raise or go on to lose the transaction later, and touch nothing outside of it.  A hook
that commits is doomed: it raises.  Inert and doomed hooks compose, so which of the two
a hook is can be read from its shape.
-/

namespace WorkerTemplate

/-- Two worlds that agree but for the open transaction and the clock. -/
structure World.Agrees (w w' : World) : Prop where
  db : w'.db = w.db
  plan : w'.plan = w.plan
  accepts : w'.accepts = w.accepts
  bodies : w'.bodies = w.bodies
  emits : w'.emits = w.emits
  sent : w'.sent = w.sent
  events : w'.events = w.events

namespace World.Agrees

variable {w w' w'' : World}

theorem refl (w : World) : w.Agrees w := ⟨rfl, rfl, rfl, rfl, rfl, rfl, rfl⟩

theorem trans (h : w.Agrees w') (h' : w'.Agrees w'') :
  w.Agrees w''
  where
  db := h'.db.trans h.db
  plan := h'.plan.trans h.plan
  accepts := h'.accepts.trans h.accepts
  bodies := h'.bodies.trans h.bodies
  emits := h'.emits.trans h.emits
  sent := h'.sent.trans h.sent
  events := h'.events.trans h.events

end World.Agrees

namespace Hook

variable {α β : Type} {J : OnErrorAttempt → TaskiqResult → Prop}

/-- A hook is inert when, in a transaction that is lost, it keeps `J` and the world outside
of the transaction. -/
def Inert (J : OnErrorAttempt → TaskiqResult → Prop) (h : Hook α) : Prop :=
  ∀ (s : Invocation) (w : World) (k : ℕ), J s.attempt s.result → w.fate = .lost k →
    ∃ r s' w', exec h s w = ((r, s'), w') ∧ J s'.attempt s'.result ∧ w.Agrees w' ∧
      ∀ a, r = .ok a → ∃ k', w'.fate = .lost k'

/-- An inert hook is doomed when it raises. -/
def Doomed (J : OnErrorAttempt → TaskiqResult → Prop) (h : Hook α) : Prop :=
  ∀ (s : Invocation) (w : World) (k : ℕ), J s.attempt s.result → w.fate = .lost k →
    ∃ e s' w', exec h s w = ((.error e, s'), w') ∧ J s'.attempt s'.result ∧ w.Agrees w'

theorem Doomed.inert {h : Hook α} (hh : Doomed J h) :
  Inert J h
  := by
  intro s w k hJ hw
  obtain ⟨e, s', w', hrun, hJ', hagrees⟩ := hh s w k hJ hw
  use .error e, s', w', hrun, hJ', hagrees
  intro a ha
  cases ha

/-! ### Composition -/

theorem inert_pure (a : α) :
  Inert J (pure a)
  := by
  intro s w k hJ hw
  use .ok a, s, w, rfl, hJ, World.Agrees.refl w
  intro _ _
  use k

theorem doomed_throw (e : OperationalError) :
  Doomed J (throw e : Hook α)
  := by
  intro s w k hJ hw
  use e, s, w, rfl, hJ
  apply World.Agrees.refl

/-- Inert hooks compose. -/
theorem Inert.bind {h : Hook α} {f : α → Hook β} (hh : Inert J h) (hf : ∀ a, Inert J (f a)) :
  Inert J (h >>= f)
  := by
  intro s w k hJ hw
  obtain ⟨r, s', w', hrun, hJ', hagrees, hfate⟩ := hh s w k hJ hw
  cases r with
  | error e =>
      use .error e, s', w', exec_bind_error hrun, hJ', hagrees
      intro a ha
      cases ha
  | ok a =>
      obtain ⟨k', hw'⟩ := hfate a rfl
      obtain ⟨r, s'', w'', hrun', hJ'', hagrees', hfate'⟩ := hf a s' w' k' hJ' hw'
      use r, s'', w''
      rw [exec_bind_ok hrun]
      use hrun', hJ'', hagrees.trans hagrees'

/-- A hook that ends in a doomed hook is doomed. -/
theorem Inert.bind_doomed {h : Hook α} {f : α → Hook β} (hh : Inert J h)
    (hf : ∀ a, Doomed J (f a)) :
  Doomed J (h >>= f)
  := by
  intro s w k hJ hw
  obtain ⟨r, s', w', hrun, hJ', hagrees, hfate⟩ := hh s w k hJ hw
  cases r with
  | error e => exact ⟨e, s', w', exec_bind_error hrun, hJ', hagrees⟩
  | ok a =>
      obtain ⟨k', hw'⟩ := hfate a rfl
      obtain ⟨e, s'', w'', hrun', hJ'', hagrees'⟩ := hf a s' w' k' hJ' hw'
      rw [exec_bind_ok hrun]
      exact ⟨e, s'', w'', hrun', hJ'', hagrees.trans hagrees'⟩

/-- A hook that begins with a doomed hook is doomed. -/
theorem Doomed.bind {h : Hook α} (hh : Doomed J h) (f : α → Hook β) :
  Doomed J (h >>= f)
  := by
  intro s w k hJ hw
  obtain ⟨e, s', w', hrun, hJ', hagrees⟩ := hh s w k hJ hw
  exact ⟨e, s', w', exec_bind_error hrun, hJ', hagrees⟩

theorem inert_get :
  Inert J (get : Hook Invocation)
  := by
  intro s w k hJ hw
  use .ok s, s, w, rfl, hJ, World.Agrees.refl w
  intro _ _
  use k

theorem inert_keep (task : TaskExecution) :
  Inert J (keep task)
  := by
  intro s w k hJ hw
  use .ok ⟨⟩, s.keep task, w, rfl, hJ, World.Agrees.refl w
  intro _ _
  use k

/-- A change of the record that keeps `J` is inert. -/
theorem inert_modifyAttempt {f : OnErrorAttempt → OnErrorAttempt}
    (hf : ∀ a r, J a r → J (f a) r) :
  Inert J (modifyAttempt f)
  := by
  intro s w k hJ hw
  use .ok ⟨⟩, { s with attempt := f s.attempt }, w, rfl, hf _ _ hJ, World.Agrees.refl w
  intro _ _
  use k

/-! ### Statements -/

variable {s : Invocation} {w : World}

/-- The world after a statement of a transaction that is lost later. -/
theorem exec_execute_lost {k : ℕ} (hw : w.fate = .lost (k + 1)) (st : Statement) :
  exec (execute st) s w
    = ((.ok (w.view.answer st), s), { w.push st.effects with fate := .lost k })
  := by
  have htick : w.fate.tick = some (.lost k) := by rw [hw, Fate.tick]
  rw [execute, exec_bind, exec_perform]
  simp only [World.handle, htick, exec_ofExcept]

/-- The statement by which a transaction is lost raises. -/
theorem exec_execute_lost_zero (hw : w.fate = .lost 0) (st : Statement) :
  exec (execute st) s w = ((.error .driver, s), w)
  := by
  have htick : w.fate.tick = none := by rw [hw, Fate.tick]
  rw [execute, exec_bind, exec_perform]
  simp only [World.handle, htick, exec_ofExcept]

theorem inert_execute (st : Statement) :
  Inert J (execute st)
  := by
  intro s w k hJ hw
  cases k with
  | zero =>
      use .error .driver, s, w, exec_execute_lost_zero hw st, hJ, World.Agrees.refl w
      intro a ha
      cases ha
  | succ k =>
      use .ok (w.view.answer st), s, { w.push st.effects with fate := .lost k },
        exec_execute_lost hw st, hJ, ⟨rfl, rfl, rfl, rfl, rfl, rfl, rfl⟩
      intro _ _
      use k

theorem inert_now :
  Inert J (perform .now)
  := by
  intro s w k hJ hw
  use .ok w.clock, s, w.tick, rfl, hJ, ⟨rfl, rfl, rfl, rfl, rfl, rfl, rfl⟩
  intro _ _
  use k, hw

theorem doomed_commit :
  Doomed J commit
  := by
  intro s w k hJ hw
  exact ⟨.driver, s, w.disconnected w.db, exec_commit_lost hw, hJ,
    ⟨rfl, rfl, rfl, rfl, rfl, rfl, rfl⟩⟩

/-! ### Services -/

theorem inert_getTaskExecution (i : UUID) (t : Option UUID) :
  Inert J (getTaskExecution i t)
  := by
  apply (inert_execute _).bind
  intro r
  cases r with
  | none => apply inert_pure
  | some row =>
      apply inert_get.bind
      intro s
      cases s.identityMap row.id with
      | none =>
          apply (inert_keep row).bind
          intro _
          apply inert_pure
      | some task => apply inert_pure

theorem inert_refresh (task : TaskExecution) :
  Inert J (refresh task)
  := by
  apply (inert_execute _).bind
  intro r
  cases r with
  | none => apply inert_pure
  | some row =>
      apply (inert_keep row).bind
      intro _
      apply inert_pure

theorem inert_updateTaskStatus (i : UUID) (status : TaskStatus) (fields : StatusUpdate) :
  Inert J (updateTaskStatus i status fields)
  := by
  apply (inert_getTaskExecution i none).bind
  intro r
  cases r with
  | none => apply inert_pure
  | some task =>
      apply inert_now.bind
      intro now
      apply (inert_execute _).bind
      intro _
      apply (inert_refresh task).bind
      intro _
      apply inert_pure

theorem inert_recordTaskAttempt (i t : UUID) (n : ℕ) (before after : TaskStatus)
    (errorDetail : Option String) (d : TaskDispatchResult) :
  Inert J (recordTaskAttempt i t n before after errorDetail d)
  := by
  apply inert_execute

theorem inert_markTaskAttemptDispatched (i : UUID) (n : ℕ) :
  Inert J (markTaskAttemptDispatched i n)
  := by
  apply (inert_execute _).bind
  intro r
  cases r with
  | none => apply inert_pure
  | some attempt =>
      simp only []
      split
      · apply (inert_execute _).bind
        intro _
        apply inert_pure
      · apply inert_pure

/-- Marking an attempt commits, and so it does not come to change the result. -/
theorem doomed_markDispatched (i : UUID) (n : ℕ) (notFound : String) :
  Doomed J (markDispatched i n notFound)
  := by
  apply (inert_markTaskAttemptDispatched i n).bind_doomed
  intro marked
  cases marked with
  | false => apply (doomed_throw _).bind
  | true => apply doomed_commit.bind

end Hook

end WorkerTemplate
