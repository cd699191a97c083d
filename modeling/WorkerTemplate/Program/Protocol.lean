import WorkerTemplate.Program.Basic

/-!
# Protocols of programs

A protocol says which operations a program may perform in a state of the protocol and
which states the answers lead to.  A program follows a protocol from a state to a
postcondition when, whatever the answers are, every operation it performs is allowed
and what it returns meets the postcondition.  Following is compositional: it is closed
under binding and under weakening the postcondition.

A handler refines a protocol when its operations move related states as the protocol says.
The run of a program that follows the protocol meets the postcondition, and leaves a related
state wherever it is stopped.
-/

universe u v w

/-- A protocol over the operations `Op` with states in `σ`: the operations allowed in a
state, and the states an operation may move to when it is answered. -/
structure Protocol {Op : Type u} (Answer : Op → Type u) (σ : Type v) where
  /-- The operations allowed in a state. -/
  allows : σ → Op → Prop
  /-- The states an operation leads to with an answer. -/
  moves : σ → (o : Op) → Answer o → σ → Prop

namespace Program

variable {Op : Type u} {Answer : Op → Type u} {α β : Type u} {σ : Type v}

/-- A program follows a protocol from a state to a postcondition. -/
def Follows (P : Protocol Answer σ) : Program Answer α → (α → σ → Prop) → σ → Prop
  | .pure a, post, s => post a s
  | .perform o k, post, s =>
      P.allows s o ∧ ∀ (r : Answer o) (s' : σ), P.moves s o r s' → (k r).Follows P post s'

variable {P : Protocol Answer σ} {post post' : α → σ → Prop}

@[simp]
theorem follows_pure (a : α) (s : σ) :
  (pure a : Program Answer α).Follows P post s ↔ post a s
  := Iff.rfl

/-- A bound program follows a protocol exactly when the first program follows it to the
states from which the second does. -/
theorem follows_bind (p : Program Answer α) (f : α → Program Answer β)
    (post : β → σ → Prop) (s : σ) :
  (p >>= f).Follows P post s ↔ p.Follows P (fun a s' => (f a).Follows P post s') s
  := by
  induction p generalizing s with
  | pure a => rfl
  | perform o k ih =>
      apply and_congr_right
      intro _
      apply forall_congr'
      intro r
      apply forall_congr'
      intro s'
      apply imp_congr_right
      intro _
      apply ih

/-- A program that follows a protocol follows it to a weaker postcondition. -/
theorem Follows.mono {p : Program Answer α} {s : σ} (h : p.Follows P post s)
    (hpost : ∀ a s', post a s' → post' a s') :
  p.Follows P post' s
  := by
  induction p generalizing s with
  | pure a => apply hpost _ _ h
  | perform o k ih =>
      obtain ⟨hallows, hnext⟩ := h
      use hallows
      intro r s' hmoves
      apply ih _ (hnext r s' hmoves)

/-- Following depends on what the postcondition says only. -/
theorem follows_congr {p : Program Answer α} {s : σ} (hpost : ∀ a s', post a s' ↔ post' a s') :
  p.Follows P post s ↔ p.Follows P post' s
  := by
  constructor
  · intro h
    apply h.mono
    intro a s' ha
    rwa [← hpost]
  · intro h
    apply h.mono
    intro a s' ha
    rwa [hpost]

/-- A program that follows a protocol keeps what every move of the protocol keeps. -/
theorem Follows.and_of_moves {I : σ → Prop} (hI : ∀ s o r s', P.moves s o r s' → I s → I s')
    {p : Program Answer α} {s : σ} (h : p.Follows P post s) (hs : I s) :
  p.Follows P (fun a s' => post a s' ∧ I s') s
  := by
  induction p generalizing s with
  | pure a => exact ⟨h, hs⟩
  | perform o k ih =>
      obtain ⟨hallows, hnext⟩ := h
      use hallows
      intro r s' hmoves
      apply ih _ (hnext r s' hmoves) (hI s o r s' hmoves hs)

/-! ### Families of protocols -/

/-- The protocol of programs each of which follows a protocol of its own. -/
def family {ι : Type w} (P : ι → Protocol Answer σ) : Protocol Answer (ι × σ) where
  allows x o := (P x.1).allows x.2 o
  moves x o r x' := x'.1 = x.1 ∧ (P x.1).moves x.2 o r x'.2

/-- A program that follows a protocol of a family follows the family. -/
theorem Follows.family {ι : Type w} {P : ι → Protocol Answer σ} {j : ι} {p : Program Answer α}
    {s : σ} (h : p.Follows (P j) post s) :
  p.Follows (Program.family P) (fun a x => x.1 = j ∧ post a x.2) (j, s)
  := by
  induction p generalizing s with
  | pure a => exact ⟨rfl, h⟩
  | perform o k ih =>
      obtain ⟨hallows, hnext⟩ := h
      use hallows
      rintro r ⟨j', s'⟩ ⟨hj, hmoves⟩
      obtain rfl : j' = j := hj
      apply ih r (hnext r s' hmoves)

/-! ### Handlers within a protocol -/

variable {ω : Type w} {handle : (o : Op) → ω → Answer o × ω} {R : σ → ω → Prop}

/-- A handler refines a protocol when an allowed operation moves related states to related
states. -/
def Refines (handle : (o : Op) → ω → Answer o × ω) (P : Protocol Answer σ) (R : σ → ω → Prop) :
    Prop :=
  ∀ s w o, R s w → P.allows s o → ∃ s', P.moves s o (handle o w).1 s' ∧ R s' (handle o w).2

/-- A program that follows a protocol leaves a related state wherever its run is stopped, and
meets the postcondition when it has returned. -/
theorem Follows.runFor {p : Program Answer α} {s : σ} {w : ω} (h : p.Follows P post s)
    (hrefines : Refines handle P R) (hR : R s w) (n : ℕ) :
  ∃ s', R s' (p.runFor handle n w).2 ∧ ∀ a, (p.runFor handle n w).1 = some a → post a s'
  := by
  induction p generalizing n s w with
  | pure a =>
      use s
      cases n with
      | zero => exact ⟨hR, by rintro b ⟨⟩; exact h⟩
      | succ n => exact ⟨hR, by rintro b ⟨⟩; exact h⟩
  | perform o k ih =>
      obtain ⟨hallows, hnext⟩ := h
      cases n with
      | zero => exact ⟨s, hR, by rintro b ⟨⟩⟩
      | succ n =>
          obtain ⟨s', hmoves, hR'⟩ := hrefines s w o hR hallows
          apply ih _ (hnext _ s' hmoves) hR' n

/-- A program that follows a protocol meets the postcondition in a related state. -/
theorem Follows.run {p : Program Answer α} {s : σ} {w : ω} (h : p.Follows P post s)
    (hrefines : Refines handle P R) (hR : R s w) :
  ∃ s', R s' (p.run handle w).2 ∧ post (p.run handle w).1 s'
  := by
  induction p generalizing s w with
  | pure a => exact ⟨s, hR, h⟩
  | perform o k ih =>
      obtain ⟨hallows, hnext⟩ := h
      obtain ⟨s', hmoves, hR'⟩ := hrefines s w o hR hallows
      apply ih _ (hnext _ s' hmoves) hR'

end Program
