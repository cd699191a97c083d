import WorkerTemplate.Concurrent.Cluster

/-!
# The statuses of an execution

The effects that a worker commits may give an execution a status, and the history of a cluster
tells which statuses the execution has had.
-/

namespace WorkerTemplate

namespace Statuses

variable {i : UUID} {first : TaskStatus}

/-- The status that an effect gives an execution. -/
def sets (i : UUID) : Effect → Option TaskStatus
  | .updateExecution j changes => if j = i then changes.status else none
  | _ => none

/-- The status that some effects leave an execution with, if they give it one. -/
def wrote (i : UUID) (es : List Effect) : Option TaskStatus := (es.filterMap (sets i)).getLast?

/-- The statuses that an execution has had, the last one first. -/
def statuses (i : UUID) (first : TaskStatus) : List Entry → List TaskStatus
  | [] => [first]
  | e :: h => (wrote i e.effects).toList ++ statuses i first h

@[simp] theorem wrote_nil (i : UUID) : wrote i [] = none := rfl

theorem wrote_append (i : UUID) (es es' : List Effect) :
  wrote i (es ++ es') = (wrote i es').or (wrote i es)
  := by rw [wrote, List.filterMap_append, List.getLast?_append, wrote, wrote]

theorem wrote_cons (i : UUID) (e : Effect) (es : List Effect) :
  wrote i (e :: es) = (wrote i es).or (sets i e)
  := by
  have hsingle : wrote i [e] = sets i e := by
    cases hsets : sets i e with
    | none => simp [wrote, hsets]
    | some status => simp [wrote, hsets]
  rw [← List.singleton_append, wrote_append, hsingle]

/-- An effect gives the row the status that it sets. -/
theorem status_apply (db : Database) (e : Effect) :
  ((db.apply e).execution? i).map (·.status) =
    (db.execution? i).map (fun row => (sets i e).getD row.status)
  := by
  cases e with
  | insertAttempt row => rfl
  | updateAttempt id d => rfl
  | updateExecution j changes =>
      rw [Database.execution?_updateExecution]
      by_cases hj : i = j
      · rw [if_pos hj, Option.map_map, sets, if_pos hj.symm]
        rfl
      · rw [if_neg hj, sets, if_neg (Ne.symm hj)]
        rfl

/-- A transaction leaves the row with the last status it gives it. -/
theorem status_view (db : Database) (es : List Effect) :
  ((db.view es).execution? i).map (·.status) =
    (db.execution? i).map (fun row => (wrote i es).getD row.status)
  := by
  induction es generalizing db with
  | nil => rfl
  | cons e es ih =>
      have happly := status_apply (i := i) db e
      rw [← List.singleton_append, Database.view_append, Database.view_singleton, ih,
        List.singleton_append, wrote_cons]
      cases hrow : db.execution? i with
      | none =>
          rw [hrow, Option.map_none, Option.map_eq_none_iff] at happly
          rw [happly]
          rfl
      | some row =>
          rw [hrow, Option.map_some, Option.map_eq_some_iff] at happly
          obtain ⟨row', hrow', hstatus⟩ := happly
          rw [hrow', Option.map_some, Option.map_some, hstatus]
          cases wrote i es with
          | none => rfl
          | some status => rfl

/-- The statuses that an execution has had stay in the past. -/
theorem statuses_suffix {h h' : List Entry} (hsuffix : h <:+ h') :
  statuses i first h <:+ statuses i first h'
  := by
  obtain ⟨l, rfl⟩ := hsuffix
  induction l with
  | nil => apply List.suffix_rfl
  | cons e l ih => apply ih.trans (List.suffix_append _ _)

end Statuses

end WorkerTemplate
