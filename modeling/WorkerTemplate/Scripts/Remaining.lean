import WorkerTemplate.Scripts.Devspace
import WorkerTemplate.Scripts.Workflow

/-!
# Remaining references

In its last step the script looks for references that it has left behind, and exits with an
error if it finds one.  A line whose references were replaced has none, also when its expressions
are wrapped or the scheduler is gated.
-/

namespace WorkerTemplate.Templatize

open Substitution

variable {lines : List Text}

/-- `grep -l "worker_template"`. -/
def hasReference (lines : List Text) : Bool := lines.any (fun line => reference <:+: line)

theorem hasReference_eq_false (h : ∀ line ∈ lines, ¬ reference <:+: line) :
  hasReference lines = false
  := by
  rw [hasReference, List.any_eq_false]
  intro line hline
  simpa using h line hline

theorem not_infix_replaceReferences (line : Text) : ¬ reference <:+: replaceReferences line :=
  guarded_templateVar.not_infix_replace reference_ne_nil line

theorem expression_le_length (t : Text) : expression t ≤ t.length := by
  unfold expression
  split
  case h_1 t =>
    dsimp only
    split
    case isTrue h =>
      have hlength := h.length_le
      rw [List.length_drop] at hlength
      simp only [List.length_cons, List.length_nil] at hlength ⊢
      omega
    case isFalse => apply Nat.zero_le
  case h_2 => apply Nat.zero_le

/-- Raw blocks around expressions make no references. -/
theorem not_infix_templatizeWorkflow (line : Text) :
  ¬ reference <:+: templatizeWorkflow line
  := by
  intro h
  have hraw : Guarded reference rawTag := by constructor <;> decide
  have hendraw : Guarded reference endrawTag := by constructor <;> decide
  apply not_infix_replaceReferences line
  apply infix_of_infix_wrap expression_le_length reference_ne_nil hraw hendraw h

/-- The filter prints directives, empty lines and the lines that it reads. -/
theorem mem_run {s : State} {line : Text} (h : line ∈ run s lines) :
  line = ifLine ∨ line = endifLine ∨ line = [] ∨ line ∈ lines
  := by
  induction lines generalizing s with
  | nil =>
      rw [run, atEnd] at h
      split at h
      case isTrue => exact Or.inr (Or.inl (List.mem_singleton.mp h))
      case isFalse => exact Or.inr (Or.inr (Or.inl (List.eq_of_mem_replicate h)))
  | cons l lines ih =>
      rw [run, List.mem_append] at h
      rcases h with h | h
      · by_cases hl : l = []
        · rw [hl] at h
          cases h
        · rw [rule_of_ne_nil s hl, List.mem_append, List.mem_append, List.mem_append] at h
          rcases h with ((h | h) | h) | h
          · right
            left
            simpa using (List.mem_ite_nil_right.mp h).2
          · left
            simpa using (List.mem_ite_nil_right.mp h).2
          · exact Or.inr (Or.inr (Or.inl (List.eq_of_mem_replicate h)))
          · rw [List.mem_singleton.mp h]
            exact Or.inr (Or.inr (Or.inr List.mem_cons_self))
      · rcases ih h with h | h | h | h
        · exact Or.inl h
        · exact Or.inr (Or.inl h)
        · exact Or.inr (Or.inr (Or.inl h))
        · exact Or.inr (Or.inr (Or.inr (List.mem_cons_of_mem l h)))

theorem not_infix_templatizeDevspace {out : List Text}
    (hout : templatizeDevspace lines = some out) :
  ∀ line ∈ out, ¬ reference <:+: line
  := by
  rw [templatizeDevspace, Option.ite_none_right_eq_some] at hout
  rw [← Option.some.inj hout.2]
  intro line hline
  rcases mem_run hline with rfl | rfl | rfl | hline
  · decide +kernel
  · decide
  · decide
  · obtain ⟨line, -, rfl⟩ := List.mem_map.mp hline
    rw [templatizeLine_eq]
    apply not_infix_replaceReferences

end WorkerTemplate.Templatize
