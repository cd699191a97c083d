import WorkerTemplate.Concurrent.Finality.Errors

/-!
# What a thread knows is so

What the protocol of the deliveries says that a thread knows of the execution is so in the cluster,
as long as no other thread has committed an update.
-/

namespace WorkerTemplate

namespace Finality

variable {i : UUID} {db db' : Database} {es : List Effect}

/-- Effects that do not update an execution leave it alone. -/
theorem execution?_view_of_not_updates (hes : es.any (Effect.updates i) = false)
    (db : Database) :
  (db.view es).execution? i = db.execution? i
  := by
  induction es generalizing db with
  | nil => rfl
  | cons e es ih =>
      rw [List.any_cons, Bool.or_eq_false_iff] at hes
      refine (ih hes.2 (db.apply e)).trans ?_
      cases e with
      | insertAttempt row => rfl
      | updateAttempt j d => rfl
      | updateExecution j changes =>
          rw [Database.execution?_updateExecution]
          split
          case isTrue hi =>
            obtain rfl : changes = {} := by simpa [Effect.updates, hi] using hes.1
            simp
          case isFalse => rfl

/-- What effects leave of an execution depends on this execution only. -/
theorem execution?_view_congr (h : db.execution? i = db'.execution? i) (es : List Effect) :
  (db.view es).execution? i = (db'.view es).execution? i
  := by
  induction es generalizing db db' with
  | nil => apply h
  | cons e es ih =>
      apply ih
      cases e with
      | insertAttempt row => apply h
      | updateAttempt j d => apply h
      | updateExecution j changes =>
          rw [Database.execution?_updateExecution, Database.execution?_updateExecution, h]

theorem execution?_view_isSome (h : (db.execution? i).isSome) (es : List Effect) :
  ((db.view es).execution? i).isSome
  := by
  induction es generalizing db with
  | nil => apply h
  | cons e es ih =>
      apply ih
      cases e with
      | insertAttempt row => apply h
      | updateAttempt j d => apply h
      | updateExecution j changes =>
          rw [Database.execution?_updateExecution]
          split
          · simpa using h
          · apply h

/-- Effects that set the status of an execution update it. -/
theorem setsStatus_of_not_updates (hes : es.any (Effect.updates i) = false) :
  es.any (Effect.setsStatus i) = false
  := by
  rw [List.any_eq_false] at hes ⊢
  intro e he
  have hnot := hes e he
  cases e with
  | insertAttempt row => simp [Effect.setsStatus]
  | updateAttempt j d => simp [Effect.setsStatus]
  | updateExecution j changes =>
      have hne : j = i → changes = {} := by simpa [Effect.updates] using hnot
      simp only [Effect.setsStatus, Bool.and_eq_true, decide_eq_true_eq, not_and]
      intro hj
      simp [hne hj]

variable {t : ℕ} {c : State} {cs : List State} {w w' : Cluster} {e : Entry} {h : List Entry}

theorem undisturbed_cons_of_ne (hne : e.thread ≠ t) (h : List Entry) :
  undisturbed i t (e :: h) = (!e.updates i && undisturbed i t h)
  := by
  rw [undisturbed, if_neg hne]

theorem ownsStatus_cons_of_ne (hne : e.thread ≠ t) (h : List Entry) :
  ownsStatus i t (e :: h) = (!e.updates i && ownsStatus i t h)
  := by
  rw [ownsStatus, if_neg hne]

theorem undisturbed_cons_self (ht : e.thread = t) (hopens : e.opens = false) (h : List Entry) :
  undisturbed i t (e :: h) = undisturbed i t h
  := by
  rw [undisturbed, if_pos ht, hopens, Bool.false_or]

theorem ownsStatus_cons_self (ht : e.thread = t) (hsets : e.setsStatus i = false)
    (h : List Entry) :
  ownsStatus i t (e :: h) = ownsStatus i t h
  := by
  rw [ownsStatus, if_pos ht, hsets, Bool.false_and, Bool.false_or]

/-- What a thread knows of the execution is so. -/
structure Knows (i : UUID) (t : ℕ) (c : State) (w : Cluster) : Prop where
  owns : ownsStatus i t w.history = true →
    ∃ row, c.wrote = some row ∧ w.db.execution? i = some row
  keeps : c.KeepsTerminal
  unread : c.sight = .unread → (w.txn t).any (Effect.updates i) = false
  exact : ∀ row, c.sight = .exact row → undisturbed i t w.history = true →
    (w.view t).execution? i = some row
  lost : c.sight = .lost → undisturbed i t w.history = false
  setting : c.setting = false → (w.txn t).any (Effect.setsStatus i) = false

/-- The execution exists, and every thread knows what is so. -/
structure Inv (i : UUID) (cs : List State) (w : Cluster) : Prop where
  found : (w.db.execution? i).isSome
  knows : ∀ t c, cs[t]? = some c → Knows i t c w
  idle : ∀ t, cs.length ≤ t → w.txn t = [] ∧ ownsStatus i t w.history = false

/-- What the other threads know stays so after an operation of a thread. -/
theorem Knows.of_ne (hknows : Knows i t c w) (hne : e.thread ≠ t)
    (hhistory : w'.history = e :: w.history) (htxn : w'.txn t = w.txn t)
    (hdb : e.updates i = false → w'.db.execution? i = w.db.execution? i) :
  Knows i t c w'
  := by
  constructor
  · rw [hhistory, ownsStatus_cons_of_ne hne, Bool.and_eq_true, Bool.not_eq_true']
    rintro ⟨hupdates, howns⟩
    rw [hdb hupdates]
    apply hknows.owns howns
  · apply hknows.keeps
  · rw [htxn]
    apply hknows.unread
  · intro row hrow
    rw [hhistory, undisturbed_cons_of_ne hne, Bool.and_eq_true, Bool.not_eq_true']
    rintro ⟨hupdates, hundisturbed⟩
    rw [Cluster.view, htxn, execution?_view_congr (hdb hupdates)]
    apply hknows.exact row hrow hundisturbed
  · intro hlost
    rw [hhistory, undisturbed_cons_of_ne hne, hknows.lost hlost, Bool.and_false]
  · rw [htxn]
    apply hknows.setting

/-- A thread without an open transaction knows what it has left. -/
theorem knows_close (htxn : w.txn t = [])
    (howns : ownsStatus i t w.history = true →
      ∃ row, c.wrote = some row ∧ w.db.execution? i = some row) :
  Knows i t c.close w
  := by
  constructor
  · apply howns
  · rintro written row - - ⟨⟩
  · intro _
    rw [htxn]
    rfl
  · rintro row ⟨⟩
  · rintro ⟨⟩
  · intro _
    rw [htxn]
    rfl

/-- What a thread knows stays so after an operation that commits nothing and leaves its
transaction alone. -/
theorem Knows.keep (hknows : Knows i t c w) (ht : e.thread = t) (heffects : e.effects = [])
    (hopens : e.opens = false) (hhistory : w'.history = e :: w.history) (hdb : w'.db = w.db)
    (htxn : w'.txn t = w.txn t) :
  Knows i t c w'
  := by
  have hsets : e.setsStatus i = false := by simp [Entry.setsStatus, heffects]
  constructor
  · rw [hhistory, ownsStatus_cons_self ht hsets, hdb]
    apply hknows.owns
  · apply hknows.keeps
  · rw [htxn]
    apply hknows.unread
  · rw [hhistory, undisturbed_cons_self ht hopens, Cluster.view, hdb, htxn]
    apply hknows.exact
  · rw [hhistory, undisturbed_cons_self ht hopens]
    apply hknows.lost
  · rw [htxn]
    apply hknows.setting

/-- What a thread has left after a commit is the row, as long as it owns the status. -/
theorem Knows.owns_commit (hknows : Knows i t c w) (hthread : e.thread = t)
    (heffects : e.effects = w.txn t) :
  ownsStatus i t (e :: w.history) = true →
    ∃ row, c.commit.wrote = some row ∧ (w.view t).execution? i = some row
  := by
  intro howns
  rw [ownsStatus, if_pos hthread, Bool.or_eq_true, Bool.and_eq_true, Entry.setsStatus, heffects]
    at howns
  have hundisturbed : undisturbed i t w.history = true := by
    rcases howns with ⟨-, hundisturbed⟩ | howns
    · apply hundisturbed
    · apply undisturbed_of_ownsStatus howns
  have howns' : (w.txn t).any (Effect.setsStatus i) = false → ownsStatus i t w.history = true := by
    intro hsets
    rcases howns with ⟨hsets', -⟩ | howns
    · cases hsets.symm.trans hsets'
    · apply howns
  cases hsight : c.sight with
  | unread =>
      have hupdates := hknows.unread hsight
      obtain ⟨row, hwrote, hrow⟩ := hknows.owns (howns' (setsStatus_of_not_updates hupdates))
      refine ⟨row, ?_, ?_⟩
      · simp [State.commit, hsight, hwrote]
      · rw [Cluster.view, execution?_view_of_not_updates hupdates, hrow]
  | exact row =>
      refine ⟨row, ?_, hknows.exact row hsight hundisturbed⟩
      cases hsetting : c.setting with
      | true => simp [State.commit, hsight, hsetting]
      | false =>
          obtain ⟨row', hwrote, -⟩ := hknows.owns (howns' (hknows.setting hsetting))
          simp [State.commit, hsight, hsetting, hwrote]
  | lost => cases hundisturbed.symm.trans (hknows.lost hsight)

/-- A commit keeps what a thread knows. -/
theorem Knows.commit (hknows : Knows i t c w) :
  Knows i t c.commit ((w.commit t).record t .commit (.ok ()) (w.txn t))
  := by
  have hundisturbed :
      undisturbed i t ((w.commit t).record t .commit (.ok ()) (w.txn t)).history
        = undisturbed i t w.history := undisturbed_cons_self rfl rfl _
  constructor
  · apply hknows.owns_commit rfl rfl
  · intro written row hwritten _ hrow
    have hread : c.sight ≠ .unread := by
      intro hunread
      cases hunread.symm.trans hrow
    rw [Sight.exact.inj ((State.wrote_commit hread hwritten).symm.trans hrow)]
  · intro _
    simp
  · intro row hrow
    rw [hundisturbed, Cluster.view]
    simp only [Cluster.db_record, Cluster.db_commit, Cluster.txn_record, Cluster.txn_commit,
      Function.update_self, Database.view_nil]
    apply hknows.exact row hrow
  · rw [hundisturbed]
    apply hknows.lost
  · intro _
    simp

/-- A read of the execution tells a thread whether the row is the one it knows. -/
theorem Knows.reads (hknows : Knows i t c w) (hfound : (w.db.execution? i).isSome) :
  ∃ row c', (w.view t).execution? i = some row ∧ c.Reads row c' ∧ Knows i t c' w
  := by
  obtain ⟨row, hrow⟩ := Option.isSome_iff_exists.mp (execution?_view_isSome hfound (w.txn t))
  change (w.view t).execution? i = some row at hrow
  cases hsight : c.sight with
  | unread =>
      have hupdates := hknows.unread hsight
      have hdb : w.db.execution? i = some row := by
        rwa [Cluster.view, execution?_view_of_not_updates hupdates] at hrow
      have hexact {wrote : Option TaskExecution} (hwrote : wrote = none ∨ wrote = some row)
          (howns : ownsStatus i t w.history = true → wrote = some row) :
          Knows i t { c with sight := .exact row, wrote } w := by
        constructor
        · intro h
          exact ⟨row, howns h, hdb⟩
        · intro written row' hwritten _ hrow'
          rcases hwrote with h | h
          · cases h.symm.trans hwritten
          · rw [← Sight.exact.inj hrow', Option.some_injective _ (h.symm.trans hwritten)]
        · rintro ⟨⟩
        · intro row' hrow' _
          rw [← Sight.exact.inj hrow', hrow]
        · rintro ⟨⟩
        · apply hknows.setting
      by_cases hwrote : c.wrote = some row
      · refine ⟨row, { c with sight := .exact row, wrote := some row }, hrow, ?_, ?_⟩
        · simp [State.Reads, hsight, hwrote]
        · apply hexact (Or.inr rfl) (fun _ => rfl)
      · refine ⟨row, { c with sight := .exact row, wrote := none }, hrow, ?_, ?_⟩
        · simp [State.Reads, hsight]
        · apply hexact (Or.inl rfl)
          intro howns
          obtain ⟨row', hwrote', hdb'⟩ := hknows.owns howns
          rw [Option.some_injective _ (hdb'.symm.trans hdb)] at hwrote'
          exact absurd hwrote' hwrote
  | exact row' =>
      by_cases heq : row = row'
      · refine ⟨row, c, hrow, ?_, hknows⟩
        simp [State.Reads, hsight, heq]
      · refine ⟨row, { c with sight := .lost }, hrow, ?_, ?_⟩
        · simp [State.Reads, hsight]
        · refine ⟨hknows.owns, ?_, ?_, ?_, ?_, hknows.setting⟩
          · rintro _ _ - - ⟨⟩
          · rintro ⟨⟩
          · rintro _ ⟨⟩
          · intro _
            by_contra hundisturbed
            have hrow' := hknows.exact row' hsight (Bool.of_not_eq_false hundisturbed)
            apply heq (Option.some_injective _ (hrow.symm.trans hrow'))
  | lost =>
      refine ⟨row, c, hrow, ?_, hknows⟩
      simp [State.Reads, hsight]

/-- The world after a statement of a thread knows what the thread knows of its new
transaction. -/
theorem Knows.push (hknows : Knows i t c w) {s : Statement} {r : s.Answer}
    (hupdates : s.effects.any (Effect.updates i) = false) :
  Knows i t c ((w.push t s).record t (.statement s) (.ok r) [])
  := by
  have howns : ownsStatus i t ((w.push t s).record t (.statement s) (.ok r) []).history
      = ownsStatus i t w.history := ownsStatus_cons_self rfl rfl _
  have hundisturbed : undisturbed i t ((w.push t s).record t (.statement s) (.ok r) []).history
      = undisturbed i t w.history := undisturbed_cons_self rfl rfl _
  have htxn : ((w.push t s).record t (.statement s) (.ok r) []).txn t = w.txn t ++ s.effects := by
    simp
  constructor
  · rw [howns]
    apply hknows.owns
  · apply hknows.keeps
  · intro hunread
    rw [htxn, List.any_append, hknows.unread hunread, hupdates]
    rfl
  · intro row hrow
    rw [hundisturbed, Cluster.view, htxn, Database.view_append,
      execution?_view_of_not_updates hupdates]
    apply hknows.exact row hrow
  · rw [hundisturbed]
    apply hknows.lost
  · intro hsetting
    rw [htxn, List.any_append, hknows.setting hsetting, setsStatus_of_not_updates hupdates]
    rfl

/-- The thread that has updated the row it knows knows the new row. -/
theorem Knows.push_update (hknows : Knows i t c w) {changes : ExecutionChanges}
    (hread : c.sight ≠ .unread) (hkeeps : (c.update changes).KeepsTerminal) :
  Knows i t (c.update changes) ((w.push t (.updateExecution i changes)).record t
    (.statement (.updateExecution i changes)) (.ok ()) [])
  := by
  have howns : ownsStatus i t ((w.push t (.updateExecution i changes)).record t
      (.statement (.updateExecution i changes)) (.ok ()) []).history
      = ownsStatus i t w.history := ownsStatus_cons_self rfl rfl _
  have hundisturbed : undisturbed i t ((w.push t (.updateExecution i changes)).record t
      (.statement (.updateExecution i changes)) (.ok ()) []).history
      = undisturbed i t w.history := undisturbed_cons_self rfl rfl _
  have htxn : ((w.push t (.updateExecution i changes)).record t
      (.statement (.updateExecution i changes)) (.ok ()) []).txn t
      = w.txn t ++ [.updateExecution i changes] := by
    simp [Statement.effects]
  constructor
  · rw [howns]
    apply hknows.owns
  · apply hkeeps
  · intro hunread
    cases hsight : c.sight with
    | unread => exact absurd hsight hread
    | exact row => simp [State.update, hsight] at hunread
    | lost => simp [State.update, hsight] at hunread
  · intro row hrow
    rw [hundisturbed]
    intro hdisturbed
    cases hsight : c.sight with
    | unread => exact absurd hsight hread
    | lost => simp [State.update, hsight] at hrow
    | exact row' =>
        simp only [State.update, hsight, Sight.exact.injEq] at hrow
        have hrow' := hknows.exact row' hsight hdisturbed
        rw [Cluster.view] at hrow' ⊢
        rw [htxn, Database.view_concat]
        change ((w.db.view (w.txn t)).apply _).execution? i = some row
        rw [Database.execution?_updateExecution_self, hrow', ← hrow]
        rfl
  · intro hlost
    rw [hundisturbed]
    apply hknows.lost
    cases hsight : c.sight with
    | unread => exact absurd hsight hread
    | exact row => simp [State.update, hsight] at hlost
    | lost => rfl
  · intro hsetting
    simp only [State.update, Bool.or_eq_false_iff] at hsetting
    rw [htxn, List.any_append, hknows.setting hsetting.1]
    simp [Effect.setsStatus, hsetting.2]

end Finality

end WorkerTemplate
