import WorkerTemplate.Concurrent.Budget

/-!
# What a delivery knows of its execution

A terminal status is final only for the delivery that has set it.  The protocol says what a thread
knows of the execution: the row as it has left it, and the row as its session has read it, unless
another thread has committed an update.  The hooks before and after the body keep to it.
-/

namespace WorkerTemplate

/-- Messages of the execution `i` may be delivered at any time, and an instance may set its
status. -/
inductive SpawnsDelivery (i : UUID) (w : Cluster) : Program Op.Answer PUnit → Cluster → Prop where
  | deliver (settings : Settings) (message : TaskiqMessage) (result : TaskiqResult)
      (hid : message.extractTaskExecutionId = some i) :
      SpawnsDelivery i w ((Hook.deliver settings message).thread { result }) w
  | setStatus (status : TaskStatus) (fields : StatusUpdate) (result : TaskiqResult) :
      SpawnsDelivery i w ((Hook.setStatus i status fields).thread { result }) w

/-- An effect sets the status of an execution. -/
def Effect.setsStatus (i : UUID) : Effect → Bool
  | .updateExecution j c => j = i && c.status.isSome
  | _ => false

/-- Whether an operation committed a new status of an execution. -/
def Entry.setsStatus (i : UUID) (e : Entry) : Bool := e.effects.any (Effect.setsStatus i)

/-- Whether an operation opened a session. -/
def Entry.opens (e : Entry) : Bool :=
  match e.op with
  | .openSession => true
  | _ => false

/-- No other thread has committed an update of the execution since a thread opened its
session. -/
def undisturbed (i : UUID) (t : ℕ) : List Entry → Bool
  | [] => true
  | e :: h =>
      if e.thread = t then e.opens || undisturbed i t h
      else !e.updates i && undisturbed i t h

/-- A session of a thread has set the status of the execution, and no other thread has committed
an update of the execution since that session was opened. -/
def ownsStatus (i : UUID) (t : ℕ) : List Entry → Bool
  | [] => false
  | e :: h =>
      if e.thread = t then e.setsStatus i && undisturbed i t h || ownsStatus i t h
      else !e.updates i && ownsStatus i t h

theorem undisturbed_of_ownsStatus {i : UUID} {t : ℕ} {h : List Entry}
    (howns : ownsStatus i t h = true) :
  undisturbed i t h = true
  := by
  induction h with
  | nil => cases howns
  | cons e h ih =>
      rw [ownsStatus] at howns
      rw [undisturbed]
      split
      case isTrue ht =>
        rw [if_pos ht, Bool.or_eq_true, Bool.and_eq_true] at howns
        rw [Bool.or_eq_true]
        right
        rcases howns with ⟨-, hundisturbed⟩ | howns
        · apply hundisturbed
        · apply ih howns
      case isFalse ht =>
        rw [if_neg ht, Bool.and_eq_true] at howns
        rw [Bool.and_eq_true]
        exact ⟨howns.1, ih howns.2⟩

namespace Finality

/-- What a session knows of the execution. -/
inductive Sight where
  | unread
  /-- The row, unless another thread has updated it since the session was opened. -/
  | exact (row : TaskExecution)
  /-- Another thread has updated the row. -/
  | lost

/-- What a thread knows of the execution. -/
structure State where
  /-- The row as the thread has left it, unless another thread has updated it. -/
  wrote : Option TaskExecution := none
  sight : Sight := .unread
  /-- The open transaction sets the status. -/
  setting : Bool := false

namespace State

variable (c : State)

/-- What a thread knows when its transaction is taken back. -/
def close : State := { c with sight := .unread, setting := false }

/-- What a thread knows when its transaction is committed. -/
def commit : State :=
  { c with
    wrote :=
      match c.sight with
      | .unread => c.wrote
      | .exact row => if c.setting then some row else c.wrote.map (fun _ => row)
      | .lost => none
    setting := false }

/-- What a thread knows when it has updated the row. -/
def update (changes : ExecutionChanges) : State :=
  { c with
    sight :=
      match c.sight with
      | .exact row => .exact (row.set changes)
      | sight => sight
    setting := c.setting || changes.status.isSome }

/-- What a thread may know when it has read a row. -/
def Reads (row : TaskExecution) (c' : State) : Prop :=
  c'.setting = c.setting ∧
    match c.sight with
    | .unread =>
        c'.sight = .exact row ∧ (c'.wrote = none ∨ c'.wrote = some row ∧ c.wrote = some row)
    | .exact row' => c'.wrote = c.wrote ∧ (row = row' ∧ c'.sight = .exact row' ∨ c'.sight = .lost)
    | .lost => c'.wrote = c.wrote ∧ c'.sight = .lost

/-- The open transaction leaves a terminal status as the thread has left it. -/
def KeepsTerminal : Prop :=
  ∀ written row, c.wrote = some written → written.status.IsTerminal → c.sight = .exact row →
    row.status = written.status

end State

/-- The protocol of terminal statuses: a session reads an execution before it updates it, and
a terminal status that the thread has left is not changed. -/
def protocol (i : UUID) : Protocol Op.Answer State where
  allows c o :=
    match o with
    | .statement (.selectExecution j tenantId) => j = i ∧ tenantId = none
    | .statement (.updateExecution j changes) =>
        j = i ∧ c.sight ≠ .unread ∧ (c.update changes).KeepsTerminal
    | _ => True
  moves c o r c' :=
    match o, r with
    | .openSession, _ => c' = c.close
    | .closeSession, _ => c' = c.close
    | .commit, .ok _ => c' = c.commit
    | .commit, .error _ => c' = c.close ∨ c' = c.commit.close
    | .statement _, .error _ => c' = c.close
    | .statement (.selectExecution j _), .ok row => ∃ row', row = some row' ∧ row'.id = j ∧
        c.Reads row' c'
    | .statement (.updateExecution _ changes), .ok _ => c' = c.update changes
    | _, _ => c' = c

/-- The terminal status a thread may have left is `status`. -/
def State.Leaves (c : State) (status : TaskStatus) : Prop :=
  ∀ written, c.wrote = some written → written.status.IsTerminal → written.status = status

/-- The instance a session keeps of the execution is the row as it knows it. -/
structure Session (i : UUID) (s : Invocation) (c : State) : Prop where
  keyed : ∀ j task, s.identityMap j = some task → task.id = j
  unread : c.sight = .unread → s.identityMap i = none
  exact : ∀ row, c.sight = .exact row → s.identityMap i = some row
  lost : c.sight = .lost → (s.identityMap i).isSome

/-- A session that knows a row has the instance of it. -/
theorem Session.of_exact {i : UUID} {s : Invocation} {c : State} {row : TaskExecution}
    (hkeyed : ∀ j task, s.identityMap j = some task → task.id = j)
    (hmap : s.identityMap i = some row) (hsight : c.sight = .exact row) :
  Session i s c
  := by
  constructor
  · apply hkeyed
  · intro hunread
    cases hsight.symm.trans hunread
  · intro row' hrow'
    cases hsight.symm.trans hrow'
    apply hmap
  · intro hlost
    cases hsight.symm.trans hlost

theorem Session.of_lost {i : UUID} {s : Invocation} {c : State} {row : TaskExecution}
    (hkeyed : ∀ j task, s.identityMap j = some task → task.id = j)
    (hmap : s.identityMap i = some row) (hsight : c.sight = .lost) :
  Session i s c
  := by
  constructor
  · apply hkeyed
  · intro hunread
    cases hsight.symm.trans hunread
  · intro row' hrow'
    cases hsight.symm.trans hrow'
  · intro _
    rw [hmap]
    rfl

/-- The instances of a session are kept under their primary keys. -/
theorem keyed_keep {s : Invocation} (h : ∀ j task, s.identityMap j = some task → task.id = j)
    (row : TaskExecution) :
  ∀ j task, (s.keep row).identityMap j = some task → task.id = j
  := by
  intro j task htask
  simp only [Invocation.keep, Function.update_apply] at htask
  split at htask
  case isTrue hj =>
    obtain ⟨rfl⟩ := htask
    apply hj.symm
  case isFalse => exact h j task htask

/-- What a hook leaves of its other objects. -/
structure Same (s s' : Invocation) : Prop where
  attempt : s'.attempt = s.attempt
  result : s'.result = s.result

/-- What a thread has left of the execution it still knows, or not any more. -/
def State.Forgets (c c' : State) : Prop := c'.wrote = none ∨ c'.wrote = c.wrote

theorem State.Forgets.trans {c c' c'' : State} (h : c.Forgets c') (h' : c'.Forgets c'') :
  c.Forgets c''
  := by
  rcases h' with h' | h'
  · exact Or.inl h'
  · rcases h with h | h
    · exact Or.inl (h'.trans h)
    · exact Or.inr (h'.trans h)

/-- What is left of a known row was known before. -/
theorem State.Forgets.wrote {c c' : State} (h : c.Forgets c') {row : TaskExecution}
    (hrow : c'.wrote = some row) :
  c.wrote = some row
  := by
  rcases h with h | h
  · cases h.symm.trans hrow
  · apply h.symm.trans hrow

theorem State.Leaves.forgets {c c' : State} {status : TaskStatus} (h : c.Leaves status)
    (hforgets : c.Forgets c') :
  c'.Leaves status
  := fun written hwritten => h written (hforgets.wrote hwritten)

/-- After a commit a thread has left the row it knows, if it knows one. -/
theorem State.wrote_commit {c : State} (hread : c.sight ≠ .unread) {written : TaskExecution}
    (hwritten : c.commit.wrote = some written) :
  c.sight = .exact written
  := by
  simp only [commit] at hwritten
  split at hwritten
  case h_1 hsight => exact absurd hsight hread
  case h_2 row hsight =>
    have hrow : row = written := by
      split at hwritten
      · exact Option.some_injective _ hwritten
      · cases hwrote : c.wrote with
        | none => simp [hwrote] at hwritten
        | some _ => simpa [hwrote] using hwritten
    rw [hsight, hrow]
  case h_3 => cases hwritten

/-- A commit of a transaction that has not set the status leaves what was left before. -/
theorem State.forgets_commit {c : State} (hsetting : c.setting = false)
    (hwrote : ∀ row, c.sight = .exact row → c.wrote = none ∨ c.wrote = some row) :
  c.Forgets c.commit
  := by
  simp only [Forgets, commit]
  split
  case h_1 => exact Or.inr rfl
  case h_2 row hsight =>
    rcases hwrote row hsight with h | h
    · simp [h, hsetting]
    · simp [h, hsetting]
  case h_3 => exact Or.inl rfl

end Finality

namespace Hook

open Finality

variable {i : UUID} {s : Invocation} {c : State}

/-- The session of an execution that has been opened. -/
theorem session_open (i : UUID) (s : Invocation) (c : State) :
  Session i { s with identityMap := fun _ => none } c.close
  := by
  constructor
  · rintro j task ⟨⟩
  · intro _
    rfl
  · rintro row ⟨⟩
  · rintro ⟨⟩

/-- A session that loads the execution reads the row, and has the instance it keeps. -/
theorem obeys_getTaskExecution_finality (hs : Session i s c) :
  Obeys (Finality.protocol i) (getTaskExecution i none)
    (fun r s' c' => Same s s' ∧ c.Forgets c' ∧
      ((∃ e, r = .error e) ∨ ∃ task, r = .ok (some task) ∧ Session i s' c' ∧ task.id = i ∧
        s'.identityMap i = some task ∧ c'.setting = c.setting ∧
        (c.sight = .unread →
          c'.sight = .exact task ∧ (c'.wrote = none ∨ c'.wrote = some task)) ∧
        (c.sight ≠ .unread → c'.sight = c.sight ∨ c'.sight = .lost))) s c
  := by
  apply obeys_getTaskExecution
  · exact ⟨rfl, rfl⟩
  · rintro e c' rfl
    exact ⟨⟨rfl, rfl⟩, Or.inr rfl, Or.inl ⟨e, rfl⟩⟩
  · rintro c' ⟨row, ⟨⟩, -⟩
  · rintro row c' ⟨row', hrow', hid, hsetting, hreads⟩
    obtain rfl := Option.some_injective _ hrow'
    rw [hid]
    cases hsight : c.sight with
    | unread =>
        rw [hsight] at hreads
        obtain ⟨hexact, hwrote⟩ := hreads
        constructor
        · intro task htask
          cases (hs.unread hsight).symm.trans htask
        · intro _
          have hforgets : c.Forgets c' := by
            rcases hwrote with hwrote | ⟨hwrote, hwrote'⟩
            · exact Or.inl hwrote
            · exact Or.inr (hwrote.trans hwrote'.symm)
          have hmap : (s.keep row).identityMap i = some row :=
            Invocation.identityMap_keep_of_id s row hid
          refine ⟨⟨rfl, rfl⟩, hforgets, Or.inr ⟨row, rfl, ?_, hid, hmap, hsetting, ?_, ?_⟩⟩
          · exact .of_exact (keyed_keep hs.keyed row) hmap hexact
          · intro _
            exact ⟨hexact, hwrote.imp_right And.left⟩
          · intro hne
            exact absurd rfl hne
    | exact row₀ =>
        rw [hsight] at hreads
        obtain ⟨hwrote, hreads⟩ := hreads
        have hmap := hs.exact row₀ hsight
        constructor
        · intro task htask
          obtain rfl := Option.some_injective _ (hmap.symm.trans htask)
          refine ⟨⟨rfl, rfl⟩, Or.inr hwrote,
            Or.inr ⟨row₀, rfl, ?_, hs.keyed _ _ hmap, hmap, hsetting, ?_, ?_⟩⟩
          · rcases hreads with ⟨-, hexact⟩ | hlost
            · exact .of_exact hs.keyed hmap hexact
            · exact .of_lost hs.keyed hmap hlost
          · rintro ⟨⟩
          · intro _
            apply hreads.imp_left And.right
        · intro hnone
          cases hmap.symm.trans hnone
    | lost =>
        rw [hsight] at hreads
        obtain ⟨hwrote, hlost⟩ := hreads
        constructor
        · intro task htask
          refine ⟨⟨rfl, rfl⟩, Or.inr hwrote,
            Or.inr ⟨task, rfl, ?_, hs.keyed _ _ htask, htask, hsetting, ?_, ?_⟩⟩
          · exact .of_lost hs.keyed htask hlost
          · rintro ⟨⟩
          · intro _
            exact Or.inr hlost
        · intro hnone
          have hsome := hs.lost hsight
          simp [hnone] at hsome

/-- Refreshing an instance after an update reads what the update has left, unless the row was
updated by another thread. -/
theorem obeys_refresh_finality (hs : Session i s c) {task : TaskExecution} (hid : task.id = i)
    (hmap : s.identityMap i = some task) (hne : c.sight ≠ .unread) (status : TaskStatus)
    (fields : StatusUpdate) (now : Time) :
  Obeys (Finality.protocol i) (refresh task)
    (fun r s' c' => Same s s' ∧ c.Forgets c' ∧
      ((∃ e, r = .error e) ∨ (∃ row, r = .ok row) ∧ Session i s' c' ∧ c'.sight ≠ .unread ∧
        ∀ row, c'.sight = .exact row → c.sight = .exact task ∧ row = task.assign status fields now))
    s (c.update (task.changes (task.assign status fields now)))
  := by
  apply obeys_refresh
  · exact ⟨hid, rfl⟩
  · rintro e c' rfl
    exact ⟨⟨rfl, rfl⟩, Or.inr rfl, Or.inl ⟨e, rfl⟩⟩
  · rintro c' ⟨row, ⟨⟩, -⟩
  · rintro row c' ⟨row', hrow', hrowId, -, hreads⟩
    obtain rfl := Option.some_injective _ hrow'
    have hkeyed := keyed_keep hs.keyed row
    have hmap' : (s.keep row).identityMap i = some row :=
      Invocation.identityMap_keep_of_id s row (hrowId.trans hid)
    use ⟨rfl, rfl⟩
    cases hsight : c.sight with
    | unread => exact absurd hsight hne
    | lost =>
        simp only [State.update, hsight] at hreads
        obtain ⟨hwrote, hlost⟩ := hreads
        refine ⟨Or.inr hwrote, Or.inr ⟨⟨_, rfl⟩, ?_, ?_, ?_⟩⟩
        · exact .of_lost hkeyed hmap' hlost
        · simp [hlost]
        · intro row' hrow'
          cases hlost.symm.trans hrow'
    | exact row₁ =>
        obtain rfl := Option.some_injective _ ((hs.exact row₁ hsight).symm.trans hmap)
        simp only [State.update, hsight, TaskExecution.set_changes_assign] at hreads
        obtain ⟨hwrote, ⟨rfl, hsight'⟩ | hlost⟩ := hreads
        · refine ⟨Or.inr hwrote, Or.inr ⟨⟨_, rfl⟩, ?_, ?_, ?_⟩⟩
          · exact .of_exact hkeyed hmap' hsight'
          · simp [hsight']
          · intro row' hrow'
            cases hsight'.symm.trans hrow'
            exact ⟨rfl, rfl⟩
        · refine ⟨Or.inr hwrote, Or.inr ⟨⟨_, rfl⟩, ?_, ?_, ?_⟩⟩
          · exact .of_lost hkeyed hmap' hlost
          · simp [hlost]
          · intro row' hrow'
            cases hlost.symm.trans hrow'

/-- A session updates the status of the execution, unless this would change a terminal status
that its thread has left. -/
theorem obeys_updateTaskStatus_finality (hs : Session i s c) {status : TaskStatus}
    (hleaves : c.sight ≠ .lost → c.Leaves status) (fields : StatusUpdate) :
  Obeys (Finality.protocol i) (updateTaskStatus i status fields)
    (fun r s' c' => Same s s' ∧ c.Forgets c' ∧
      ((∃ e, r = .error e) ∨ (∃ a, r = .ok a) ∧ Session i s' c' ∧ c'.sight ≠ .unread ∧
        ∀ row, c'.sight = .exact row → ∃ task now, row = task.assign status fields now ∧
          (c.sight = .unread ∨ c.sight = .exact task))) s c
  := by
  apply obeys_updateTaskStatus (obeys_getTaskExecution_finality hs)
  · rintro e s₁ c₁ ⟨hsame, hforgets, -⟩
    exact ⟨hsame, hforgets, Or.inl ⟨e, rfl⟩⟩
  · rintro s₁ c₁ ⟨-, -, ⟨e, ⟨⟩⟩ | ⟨task, ⟨⟩, -⟩⟩
  · rintro task s₁ c₁ ⟨hsame, hforgets, ⟨e, ⟨⟩⟩ |
      ⟨task, ⟨⟩, hs₁, hid, hmap, -, hunread, hread⟩⟩
    have hne : c₁.sight ≠ .unread := by
      intro hsight
      by_cases hc : c.sight = .unread
      · cases (hunread hc).1.symm.trans hsight
      · rcases hread hc with h | h
        · apply hc (h.symm.trans hsight)
        · cases h.symm.trans hsight
    have hexact : c₁.sight = .exact task → c.sight = .unread ∨ c.sight = .exact task := by
      intro hrow
      by_cases hc : c.sight = .unread
      · exact Or.inl hc
      · rcases hread hc with h | h
        · exact Or.inr (h.symm.trans hrow)
        · cases h.symm.trans hrow
    use trivial
    rintro now c₁ rfl
    refine ⟨⟨hid, hne, ?_⟩, ?_, ?_⟩
    · intro written row hwritten hterminal hrow
      cases hsight : c₁.sight with
      | unread => exact absurd hsight hne
      | lost => simp [State.update, hsight] at hrow
      | exact row₁ =>
          obtain rfl := Option.some_injective _ ((hs₁.exact row₁ hsight).symm.trans hmap)
          have hlost : c.sight ≠ .lost := by
            intro hlost
            have hc := hexact hsight
            simp [hlost] at hc
          simp only [State.update, hsight, Sight.exact.injEq] at hrow
          rw [← hrow, TaskExecution.set_changes_assign]
          apply (hleaves hlost written (hforgets.wrote hwritten) hterminal).symm
    · rintro e c₂ rfl
      exact ⟨hsame, hforgets, Or.inl ⟨e, rfl⟩⟩
    · rintro c₂ rfl
      apply (obeys_refresh_finality hs₁ hid hmap hne status fields now).mono
      rintro r s₃ c₃ ⟨hsame₃, hforgets₃, hleft⟩
      refine ⟨⟨hsame₃.attempt.trans hsame.attempt, hsame₃.result.trans hsame.result⟩,
        hforgets.trans hforgets₃, ?_⟩
      rcases hleft with ⟨e, rfl⟩ | ⟨⟨row, rfl⟩, hs₃, hread₃, hexact₃⟩
      · exact Or.inl ⟨e, rfl⟩
      · refine Or.inr ⟨⟨_, rfl⟩, hs₃, hread₃, ?_⟩
        intro row' hrow'
        obtain ⟨htask, hassigned⟩ := hexact₃ row' hrow'
        exact ⟨task, now, hassigned, hexact htask⟩

/-- Setting a status leaves that status, if it is terminal, and touches only the identity map. -/
theorem maintains_setStatus_finality (result : TaskiqResult)
    (status : TaskStatus) (fields : StatusUpdate) :
  Maintains (Finality.protocol i)
    (fun s c => s.result = result ∧ c.Leaves status)
    (setStatus i status fields)
  := by
  rintro s c ⟨hresult, hleaves⟩
  rw [setStatus]
  apply obeys_withSession trivial
  rintro c₁ rfl
  rw [obeys_bind]
  apply (obeys_updateTaskStatus_finality (session_open i s c) (fun _ => hleaves) fields).mono
  rintro _ s₂ c₂ ⟨hsame, hforgets, hr⟩
  have hresult₂ : s₂.result = result := hsame.result.trans hresult
  have hleaves₂ : c₂.Leaves status := hleaves.forgets hforgets
  rcases hr with ⟨e, rfl⟩ | ⟨⟨a, rfl⟩, hs₂, hread, hrow⟩
  · use trivial
    rintro c₃ rfl
    exact ⟨hresult₂, hleaves₂⟩
  · rw [next_ok, obeys_commit]
    have hcommit : c₂.commit.Leaves status := by
      intro written hwritten hterminal
      obtain ⟨task, now, rfl, -⟩ := hrow written (State.wrote_commit hread hwritten)
      rfl
    use trivial
    rintro (e | _) c₃ hmoves
    · use trivial
      rintro c₄ rfl
      rcases hmoves with rfl | rfl
      · exact ⟨hresult₂, hleaves₂⟩
      · exact ⟨hresult₂, hcommit⟩
    · use trivial
      rintro c₄ rfl
      obtain rfl : c₃ = c₂.commit := hmoves
      exact ⟨hresult₂, hcommit⟩

/-- Publishing an event tells a thread nothing about the execution. -/
theorem maintains_emit_finality (I : Invocation → State → Prop) (room : Text) (event : TaskEvent) :
  Maintains (Finality.protocol i) I (perform (.emit room event))
  := by
  apply maintains_perform
  · intro s c _
    trivial
  · rintro s c r _ h rfl
    apply h

theorem maintains_preExecute_finality (settings : Settings) {message : TaskiqMessage}
    (hid : message.extractTaskExecutionId = some i) (result : TaskiqResult) :
  Maintains (Finality.protocol i)
    (fun s c => s.result = result ∧ c.Leaves .running)
    (preExecute settings message)
  := by
  rw [preExecute]
  apply Maintains.createDbRetry
  rw [hid]
  apply (maintains_setStatus_finality result _ _).bind
  intro _
  apply maintains_emitStatusEvent (maintains_emit_finality _)

theorem maintains_postExecute_finality (settings : Settings) {message : TaskiqMessage}
    (hid : message.extractTaskExecutionId = some i) (result : TaskiqResult) :
  Maintains (Finality.protocol i)
    (fun s c => s.result = result ∧
      c.Leaves (if result.isErr then .failed else .completed))
    (postExecute settings message)
  := by
  rw [postExecute]
  apply Maintains.createDbRetry
  rw [hid]
  intro s c h
  simp only []
  rw [obeys_bind, obeys_get, next_ok, h.1]
  revert s c
  change Maintains _ _ _
  apply Maintains.ite (maintains_pure _)
  apply Maintains.ite (maintains_pure _)
  cases result.isErr with
  | true =>
      apply (maintains_setStatus_finality result _ _).bind
      intro _
      apply maintains_emitStatusEvent (maintains_emit_finality _)
  | false =>
      apply (maintains_setStatus_finality result _ _).bind
      intro _
      apply maintains_emitStatusEvent (maintains_emit_finality _)

end Hook

end WorkerTemplate
