import WorkerTemplate.Chain.Completion
import WorkerTemplate.Concurrent.Statuses

/-!
# What the workers of a chain announce

An event announces a status that its worker has committed.  The history tells when the worker last
committed this status, so it tells whether the event comes after the change it announces, and
whether the events occur in the order of the changes.
-/

namespace WorkerTemplate

open Statuses

/-- When a thread last committed that an execution has the status with a text.  The operations of
the history are numbered from 1, and what the row has before them has the time 0. -/
def lastChange (i : UUID) (first : TaskStatus) (t : ℕ) (status : String) : List Entry → Option ℕ
  | [] => if first.value = status then some 0 else none
  | e :: h =>
      if e.thread = t ∧ (wrote i e.effects).map (·.value) = some status then some (h.length + 1)
      else lastChange i first t status h

/-- An event, and the time of the change it announces. -/
structure Announcement where
  event : TaskEvent
  change : Option ℕ
  deriving DecidableEq

/-- The events of a history, the last one first. -/
def announcements (i : UUID) (first : TaskStatus) : List Entry → List Announcement
  | [] => []
  | e :: h =>
      match e.op with
      | .emit _ event =>
          { event, change := lastChange i first e.thread event.status h }
            :: announcements i first h
      | _ => announcements i first h

namespace Announcement

/-- The change that an event announces does not come before that of another one. -/
def Follows (later earlier : Announcement) : Prop :=
  ∀ m ∈ earlier.change, ∀ n ∈ later.change, m ≤ n

instance (later earlier : Announcement) : Decidable (later.Follows earlier) :=
  inferInstanceAs (Decidable (∀ m ∈ earlier.change, ∀ n ∈ later.change, m ≤ n))

/-- An event tells about a retry. -/
def IsRetrying (a : Announcement) : Prop := a.event.status = TaskStatus.retrying.value

instance : DecidablePred IsRetrying := fun a =>
  inferInstanceAs (Decidable (a.event.status = TaskStatus.retrying.value))

end Announcement

/-- The events that tell about a status other than retrying. -/
def steadyAnnouncements (i : UUID) (first : TaskStatus) (h : List Entry) : List Announcement :=
  (announcements i first h).filter (fun a => ¬ a.IsRetrying)

/-- The last event of a list announces the status of the row. -/
def LastTells (i : UUID) (as : List Announcement) (db : Database) : Prop :=
  ∃ status : TaskStatus, as.head?.map (·.event.status) = some status.value ∧
    (db.execution? i).map (·.status) = some status

/-! ### The history goes on -/

section History

variable {i : UUID} {first status : TaskStatus} {text : String} {t n : ℕ} {e : Entry}
  {h : List Entry} {a : Announcement}

/-- A change lies in the past. -/
theorem le_of_lastChange (hn : lastChange i first t text h = some n) :
  n ≤ h.length
  := by
  induction h with
  | nil =>
      rw [lastChange, Option.ite_none_right_eq_some] at hn
      cases hn.2
      apply Nat.le_refl
  | cons e h ih =>
      rw [lastChange] at hn
      split at hn
      · cases hn
        apply Nat.le_refl
      · apply Nat.le_succ_of_le (ih hn)

/-- What is announced lies in the past. -/
theorem le_of_mem_announcements (ha : a ∈ announcements i first h) (hn : a.change = some n) :
  n ≤ h.length
  := by
  induction h with
  | nil => cases ha
  | cons e h ih =>
      rw [announcements] at ha
      split at ha
      · rcases List.mem_cons.mp ha with rfl | ha
        · apply Nat.le_succ_of_le (le_of_lastChange hn)
        · apply Nat.le_succ_of_le (ih ha)
      · apply Nat.le_succ_of_le (ih ha)

/-- The last change of a thread stays the last one until the thread commits a status. -/
theorem lastChange_cons (hwrote : e.thread = t → wrote i e.effects = none) :
  lastChange i first t text (e :: h) = lastChange i first t text h
  := by
  rw [lastChange, if_neg]
  rintro ⟨hthread, hstatus⟩
  rw [hwrote hthread] at hstatus
  cases hstatus

/-- A change is the last one of its thread. -/
theorem lastChange_self (hthread : e.thread = t) (hwrote : wrote i e.effects = some status) :
  lastChange i first t status.value (e :: h) = some (h.length + 1)
  := by
  rw [lastChange, if_pos]
  rw [hwrote]
  exact ⟨hthread, rfl⟩

/-- An event announces the last change of its thread to the status it is about. -/
theorem announcements_emit (room : Text) (event : TaskEvent) (r : Bool) :
  announcements i first ({ thread := t, op := .emit room event, answer := r, effects := [] } :: h)
    = { event, change := lastChange i first t event.status h } :: announcements i first h
  := rfl

/-- An operation that emits nothing announces nothing. -/
theorem announcements_cons (hop : ∀ room event, e.op ≠ .emit room event) :
  announcements i first (e :: h) = announcements i first h
  := by
  rw [announcements]
  split
  case h_1 room event hemit => exact absurd hemit (hop room event)
  case h_2 => rfl

end History

end WorkerTemplate
