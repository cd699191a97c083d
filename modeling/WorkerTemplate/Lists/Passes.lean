import Mathlib.Data.List.Forall2
import Mathlib.Control.Basic

/-!
# Passes over a list

A pass goes through a list and changes each element by itself, and it may fail.  Passes made one
after the other do to every element what the passes do to it one after the other.
-/

namespace Passes

universe u v

variable {ε : Type v} {α β : Type u}

/-- A computation succeeds when its first part does and the rest does from there. -/
theorem bind_eq_ok_iff {x : Except ε α} {f : α → Except ε β} {b : β} :
  x >>= f = .ok b ↔ ∃ a, x = .ok a ∧ f a = .ok b
  := by
  cases x with
  | error e => simp [bind, Except.bind]
  | ok a => simp [bind, Except.bind]

/-- A pass succeeds when it succeeds on every element. -/
theorem mapM_eq_ok_iff {f : α → Except ε β} {l : List α} {l' : List β} :
  l.mapM f = .ok l' ↔ List.Forall₂ (fun a b => f a = .ok b) l l'
  := by
  induction l generalizing l' with
  | nil =>
      rw [List.forall₂_nil_left_iff]
      constructor
      · rintro ⟨⟩
        rfl
      · rintro rfl
        rfl
  | cons a l ih =>
      rw [List.mapM_cons, List.forall₂_cons_left_iff, bind_eq_ok_iff]
      constructor
      · rintro ⟨b, ha, htail⟩
        obtain ⟨bs, hl, ⟨⟩⟩ := bind_eq_ok_iff.mp htail
        exact ⟨b, bs, ha, ih.mp hl, rfl⟩
      · rintro ⟨b, bs, ha, hl, rfl⟩
        use b, ha
        rw [ih.mpr hl]
        rfl

/-- The same of a pass that gives no reason for a failure. -/
theorem mapM_eq_some_iff {f : α → Option β} {l : List α} {l' : List β} :
  l.mapM f = some l' ↔ List.Forall₂ (fun a b => f a = some b) l l'
  := by
  induction l generalizing l' with
  | nil =>
      rw [List.forall₂_nil_left_iff]
      constructor
      · rintro ⟨⟩
        rfl
      · rintro rfl
        rfl
  | cons a l ih =>
      rw [List.mapM_cons, List.forall₂_cons_left_iff, Option.bind_eq_bind,
        Option.bind_eq_some_iff]
      constructor
      · rintro ⟨b, ha, htail⟩
        obtain ⟨bs, hl, ⟨⟩⟩ := Option.bind_eq_some_iff.mp htail
        exact ⟨b, bs, ha, ih.mp hl, rfl⟩
      · rintro ⟨b, bs, ha, hl, rfl⟩
        use b, ha
        rw [ih.mpr hl]
        rfl

/-- A relation that holds along two lists, through a list in between. -/
theorem forall₂_comp_iff {γ : Type*} {R : α → β → Prop} {S : β → γ → Prop} {l : List α}
    {l' : List γ} :
  (∃ m, List.Forall₂ R l m ∧ List.Forall₂ S m l') ↔
    List.Forall₂ (fun a c => ∃ b, R a b ∧ S b c) l l'
  := by
  constructor
  · rintro ⟨m, hR, hS⟩
    induction hR generalizing l' with
    | nil =>
        cases hS
        apply List.Forall₂.nil
    | cons ha _ ih =>
        cases hS with
        | cons hb hS => exact .cons ⟨_, ha, hb⟩ (ih hS)
  · intro h
    induction h with
    | nil => exact ⟨[], .nil, .nil⟩
    | cons h _ ih =>
        obtain ⟨b, ha, hb⟩ := h
        obtain ⟨m, hR, hS⟩ := ih
        exact ⟨b :: m, .cons ha hR, .cons hb hS⟩

/-- What related elements have in common, all elements of the two lists have in common. -/
theorem forall_mem_iff_of_forall₂ {R : α → β → Prop} {P : α → Prop} {Q : β → Prop} {l : List α}
    {l' : List β} (h : List.Forall₂ R l l') (hPQ : ∀ a b, R a b → (P a ↔ Q b)) :
  (∀ a ∈ l, P a) ↔ ∀ b ∈ l', Q b
  := by
  induction h with
  | nil => simp
  | cons hab _ ih => rw [List.forall_mem_cons, List.forall_mem_cons, hPQ _ _ hab, ih]

/-- One pass after the other over a list, or all of them on one element after the other. -/
theorem foldlM_mapM_eq_ok_iff (passes : List (α → Except ε α)) {l l' : List α} :
  passes.foldlM (fun l pass => l.mapM pass) l = .ok l' ↔
    List.Forall₂ (fun a a' => passes.foldlM (fun a pass => pass a) a = .ok a') l l'
  := by
  induction passes generalizing l with
  | nil =>
      simp only [List.foldlM_nil, pure, Except.pure, Except.ok.injEq]
      constructor
      · rintro rfl
        apply List.forall₂_same.mpr
        intro a _
        rfl
      · intro h
        rwa [List.forall₂_eq_eq_eq] at h
  | cons pass passes ih =>
      simp only [List.foldlM_cons, bind_eq_ok_iff]
      rw [← forall₂_comp_iff]
      simp only [mapM_eq_ok_iff, ih]

end Passes
