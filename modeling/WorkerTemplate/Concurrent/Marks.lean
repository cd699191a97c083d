import WorkerTemplate.Database
import WorkerTemplate.Services

/-!
# Times of a row

A row is started once it has a time of its start, and completed once it has a time of its
completion.  Updates only ever add these marks, and a transaction whose updates are permitted
by the marks of the rows they find is permitted by the marks other transactions have added in
the meantime.
-/

namespace WorkerTemplate

/-- A status an execution has only after it was started. -/
def TaskStatus.IsBegun (status : TaskStatus) : Prop := status ∈ [.running, .retrying, .completed]

instance : DecidablePred TaskStatus.IsBegun := fun status =>
  inferInstanceAs (Decidable (status ∈ [.running, .retrying, .completed]))

/-- Changed columns that keep a row coherent: they unset no mark, a status comes with its mark
or finds it, a time of completion comes with a terminal status, and an error is that of a body
that has raised. -/
structure ExecutionChanges.Permitted (started completed raised : Prop) (c : ExecutionChanges) :
    Prop where
  startedAt : c.startedAt ≠ some none
  completedAt : c.completedAt ≠ some none
  begun : ∀ s ∈ c.status, s.IsBegun → c.startedAt.isSome ∨ started
  terminal : ∀ s ∈ c.status, s.IsTerminal → c.completedAt.isSome ∨ completed
  ended : c.completedAt.isSome → (∃ s ∈ c.status, s.IsTerminal) ∨ completed
  error : c.errorDetail.isSome → raised

theorem ExecutionChanges.Permitted.mono {started completed raised : Prop}
    {started' completed' raised' : Prop} {c : ExecutionChanges}
    (h : c.Permitted started completed raised) (hstarted : started → started')
    (hcompleted : completed → completed') (hraised : raised → raised') :
  c.Permitted started' completed' raised'
  where
  startedAt := h.startedAt
  completedAt := h.completedAt
  begun := fun s hs hbegun => (h.begun s hs hbegun).imp_right hstarted
  terminal := fun s hs hterminal => (h.terminal s hs hterminal).imp_right hcompleted
  ended := fun hended => (h.ended hended).imp_right hcompleted
  error := fun herror => hraised (h.error herror)

/-- An effect sets a terminal status of an execution. -/
def Effect.terminates (i : UUID) : Effect → Bool
  | .updateExecution j c => j = i && c.status.any (fun s => s.IsTerminal)
  | _ => false

/-- The row of an execution after an effect. -/
def Effect.onRow (i : UUID) (row : TaskExecution) : Effect → TaskExecution
  | .updateExecution j c => if j = i then row.set c else row
  | _ => row

namespace TaskExecution

/-- The row of an execution after the effects of a transaction. -/
def after (i : UUID) (row : TaskExecution) (own : List Effect) : TaskExecution :=
  own.foldl (Effect.onRow i) row

/-- The marks of a row that another one has as well. -/
structure MarksLE (row row' : TaskExecution) : Prop where
  started : row.startedAt.isSome → row'.startedAt.isSome
  completed : row.completedAt.isSome → row'.completedAt.isSome

/-- An effect is permitted by the marks of the row. -/
def PermitsEffect (i : UUID) (raised : Prop) (row : TaskExecution) : Effect → Prop
  | .updateExecution j c =>
      j = i → c.Permitted row.startedAt.isSome row.completedAt.isSome raised
  | _ => True

/-- Every effect of a transaction is permitted by the marks of the row that it finds. -/
def Justifies (i : UUID) (raised : Prop) : TaskExecution → List Effect → Prop
  | _, [] => True
  | row, e :: own => row.PermitsEffect i raised e ∧ Justifies i raised (e.onRow i row) own

/-- A row is coherent: the times and the error agree with the status, with whether a terminal
status was ever set, and with whether a body has raised. -/
structure Coherent (ended raised : Prop) (row : TaskExecution) : Prop where
  begun : row.status.IsBegun → row.startedAt.isSome
  terminal : row.status.IsTerminal → row.completedAt.isSome
  ended : row.completedAt.isSome ↔ ended
  error : row.errorDetail.isSome → raised

variable {i : UUID} {raised raised' ended : Prop} {row row' : TaskExecution} {e : Effect}
  {own : List Effect}

/-! ### Marks -/

theorem MarksLE.refl (row : TaskExecution) : row.MarksLE row := ⟨fun h => h, fun h => h⟩

theorem MarksLE.trans {row'' : TaskExecution} (h : row.MarksLE row') (h' : row'.MarksLE row'') :
  row.MarksLE row''
  := ⟨h'.started ∘ h.started, h'.completed ∘ h.completed⟩

/-- A column that is not unset has a value when it had one or is given one. -/
theorem isSome_getD {α : Type} {new : Option (Option α)} (h : new ≠ some none) (old : Option α) :
  (new.getD old).isSome ↔ new.isSome ∨ old.isSome
  := by
  cases new with
  | none => simp
  | some value =>
      cases value with
      | none => exact absurd rfl h
      | some a => simp

/-- The same columns set in two rows keep the order of their marks. -/
theorem MarksLE.onRow (h : row.MarksLE row') (e : Effect) :
  (e.onRow i row).MarksLE (e.onRow i row')
  := by
  cases e with
  | insertAttempt _ => apply h
  | updateAttempt _ _ => apply h
  | updateExecution j c =>
      simp only [Effect.onRow]
      split
      · constructor
        · simp only [set]
          cases c.startedAt with
          | none => apply h.started
          | some t => exact fun h => h
        · simp only [set]
          cases c.completedAt with
          | none => apply h.completed
          | some t => exact fun h => h
      · apply h

theorem MarksLE.after (h : row.MarksLE row') (own : List Effect) :
  (row.after i own).MarksLE (row'.after i own)
  := by
  induction own generalizing row row' with
  | nil => apply h
  | cons e own ih => apply ih (h.onRow e)

/-- A permitted effect unsets no mark. -/
theorem PermitsEffect.marksLE (h : row.PermitsEffect i raised e) : row.MarksLE (e.onRow i row) := by
  cases e with
  | insertAttempt _ => exact .refl row
  | updateAttempt _ _ => exact .refl row
  | updateExecution j c =>
      simp only [Effect.onRow]
      split
      case isTrue hj =>
        have hc := h hj
        constructor
        · intro hstarted
          exact (isSome_getD hc.startedAt _).mpr (.inr hstarted)
        · intro hcompleted
          exact (isSome_getD hc.completedAt _).mpr (.inr hcompleted)
      case isFalse => exact .refl row

theorem PermitsEffect.mono (h : row.PermitsEffect i raised e) (hmarks : row.MarksLE row')
    (hraised : raised → raised') :
  row'.PermitsEffect i raised' e
  := by
  cases e with
  | insertAttempt _ => trivial
  | updateAttempt _ _ => trivial
  | updateExecution j c =>
      intro hj
      exact (h hj).mono hmarks.started hmarks.completed hraised

/-! ### Transactions -/

/-- What was justified stays so when the row gains marks. -/
theorem Justifies.mono (h : row.Justifies i raised own) (hmarks : row.MarksLE row')
    (hraised : raised → raised') :
  row'.Justifies i raised' own
  := by
  induction own generalizing row row' with
  | nil => trivial
  | cons e own ih => exact ⟨h.1.mono hmarks hraised, ih h.2 (hmarks.onRow e)⟩

/-- A transaction goes on with an effect that the row it has left permits. -/
theorem Justifies.concat (h : row.Justifies i raised own)
    (he : (row.after i own).PermitsEffect i raised e) :
  row.Justifies i raised (own ++ [e])
  := by
  induction own generalizing row with
  | nil => exact ⟨he, trivial⟩
  | cons e' own ih => exact ⟨h.1, ih h.2 he⟩

theorem Justifies.marksLE (h : row.Justifies i raised own) : row.MarksLE (row.after i own) := by
  induction own generalizing row with
  | nil => exact .refl row
  | cons e own ih => exact h.1.marksLE.trans (ih h.2)

theorem after_concat (i : UUID) (row : TaskExecution) (own : List Effect) (e : Effect) :
  row.after i (own ++ [e]) = e.onRow i (row.after i own)
  := List.foldl_concat ..

/-- A permitted effect keeps the row coherent. -/
theorem Coherent.onRow (h : row.Coherent ended raised) (he : row.PermitsEffect i raised e) :
  (e.onRow i row).Coherent (ended ∨ e.terminates i = true) raised
  := by
  have hsame : e.terminates i = false → row.Coherent (ended ∨ e.terminates i = true) raised := by
    intro hnot
    simpa [hnot] using h
  cases e with
  | insertAttempt _ => apply hsame rfl
  | updateAttempt _ _ => apply hsame rfl
  | updateExecution j c =>
      simp only [Effect.onRow]
      split
      case isFalse hj => exact hsame (by simp [Effect.terminates, hj])
      case isTrue hj =>
        have hc := he hj
        have hterminates : (Effect.updateExecution j c).terminates i = true ↔
            ∃ s ∈ c.status, s.IsTerminal := by
          simp [Effect.terminates, hj, Option.any_eq_true]
        have hcompleted : (row.set c).completedAt.isSome ↔
            c.completedAt.isSome ∨ row.completedAt.isSome := isSome_getD hc.completedAt _
        have hstarted : (row.set c).startedAt.isSome ↔
            c.startedAt.isSome ∨ row.startedAt.isSome := isSome_getD hc.startedAt _
        constructor
        · rw [hstarted]
          cases hstatus : c.status with
          | none =>
              intro hbegun
              exact .inr (h.begun (by simpa [set, hstatus] using hbegun))
          | some s =>
              intro hbegun
              apply hc.begun s hstatus (by simpa [set, hstatus] using hbegun)
        · rw [hcompleted]
          cases hstatus : c.status with
          | none =>
              intro hterminal
              exact .inr (h.terminal (by simpa [set, hstatus] using hterminal))
          | some s =>
              intro hterminal
              apply hc.terminal s hstatus (by simpa [set, hstatus] using hterminal)
        · rw [hcompleted, hterminates, ← h.ended]
          constructor
          · rintro (hset | hrow)
            · apply (hc.ended hset).symm
            · exact .inl hrow
          · rintro (hrow | ⟨s, hs, hterminal⟩)
            · exact .inr hrow
            · apply hc.terminal s hs hterminal
        · simp only [set]
          cases herror : c.errorDetail with
          | none => apply h.error
          | some _ =>
              intro _
              apply hc.error (by rw [herror]; rfl)

/-- A justified transaction keeps the row coherent. -/
theorem Coherent.after (h : row.Coherent ended raised) (hown : row.Justifies i raised own) :
  (row.after i own).Coherent (ended ∨ own.any (Effect.terminates i) = true) raised
  := by
  induction own generalizing row ended with
  | nil => simpa [TaskExecution.after] using h
  | cons e own ih =>
      have hrest := ih (h.onRow hown.1) hown.2
      rwa [or_assoc, ← Bool.or_eq_true, ← List.any_cons] at hrest

theorem Coherent.mono {ended' : Prop} (h : row.Coherent ended raised) (hended : ended ↔ ended')
    (hraised : raised → raised') :
  row.Coherent ended' raised'
  := ⟨h.begun, h.terminal, h.ended.trans hended, hraised ∘ h.error⟩

end TaskExecution

/-- A transaction reads the row after its effects. -/
theorem Database.execution?_view_after {i : UUID} {row : TaskExecution} {db : Database}
    (h : db.execution? i = some row) (own : List Effect) :
  (db.view own).execution? i = some (row.after i own)
  := by
  induction own generalizing db row with
  | nil => apply h
  | cons e own ih =>
      apply ih
      cases e with
      | insertAttempt _ => apply h
      | updateAttempt _ _ => apply h
      | updateExecution j c =>
          rw [Database.execution?_updateExecution, h, Effect.onRow]
          by_cases hj : j = i
          · simp [hj]
          · simp [hj, Ne.symm hj]

end WorkerTemplate
