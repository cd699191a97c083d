import Mathlib.Logic.Relation
import Mathlib.Order.WellFounded
import Mathlib.Tactic.Common

/-!
# Locks in an order

Threads hold the locks of resources and wait for the locks of others.  When every thread that
waits for a resource waits for one above all that it holds, the threads cannot wait for one
another in a circle: whoever waits, waits in the end for a thread that does not wait.
-/

universe u v w

/-- The resources that are locked and the ones that threads ask for. -/
structure Locking (τ : Type u) (ρ : Type v) where
  /-- The thread that holds the lock of a resource. -/
  holder : ρ → Option τ
  /-- The resource whose lock a thread asks for next. -/
  wants : τ → Option ρ

namespace Locking

variable {τ : Type u} {ρ : Type v} {α : Type w} (L : Locking τ ρ)

/-- A thread asks for a resource that another one holds. -/
def WaitsFor (t t' : τ) : Prop :=
  ∃ r, L.wants t = some r ∧ L.holder r = some t' ∧ t' ≠ t

/-- A thread waits. -/
def Waits (t : τ) : Prop := ∃ t', L.WaitsFor t t'

/-- A thread asks only for resources above the ones it holds, or for one of these again. -/
def Ascends [LT α] (rank : ρ → α) : Prop :=
  ∀ t r r', L.holder r = some t → L.wants t = some r' → L.holder r' = some t ∨ rank r < rank r'

variable {L}

/-- A thread that another one waits for either does not wait, or waits for a resource above the
one it is waited for. -/
theorem Ascends.lt_of_waitsFor [LT α] {rank : ρ → α} (h : L.Ascends rank) {t t' : τ} {r r' : ρ}
    (hr : L.holder r = some t) (hr' : L.wants t = some r') (ht' : L.holder r' = some t')
    (hne : t' ≠ t) :
  rank r < rank r'
  := by
  rcases h t r r' hr hr' with hself | hlt
  · rw [ht'] at hself
    exact absurd (Option.some.inj hself) hne
  · apply hlt

/-- When threads lock in an order without infinite ascents, whoever waits, waits in the end for a
thread that does not wait. -/
theorem Ascends.exists_not_waits [LT α] [WellFoundedGT α] {rank : ρ → α} (h : L.Ascends rank)
    (t : τ) :
  ∃ t', Relation.ReflTransGen L.WaitsFor t t' ∧ ¬ L.Waits t'
  := by
  -- The induction is on the resource a thread asks for, from the top of the order.
  have key (r : ρ) : ∀ t, L.wants t = some r →
      ∃ t', Relation.ReflTransGen L.WaitsFor t t' ∧ ¬ L.Waits t' := by
    induction hrank : rank r using WellFoundedGT.induction generalizing r with
    | _ a ih =>
        intro t ht
        by_cases hwaits : L.Waits t
        · obtain ⟨t₁, r₁, hr₁, hholder, hne⟩ := hwaits
          cases hr₁.symm.trans ht
          have hstep : L.WaitsFor t t₁ := ⟨r, ht, hholder, hne⟩
          by_cases hwaits₁ : L.Waits t₁
          · obtain ⟨t₂, r₂, hr₂, hholder₂, hne₂⟩ := hwaits₁
            have hlt := h.lt_of_waitsFor hholder hr₂ hholder₂ hne₂
            obtain ⟨t', hreach, hfree⟩ := ih (rank r₂) (hrank ▸ hlt) r₂ rfl t₁ hr₂
            exact ⟨t', .head hstep hreach, hfree⟩
          · exact ⟨t₁, .single hstep, hwaits₁⟩
        · exact ⟨t, .refl, hwaits⟩
  cases hwants : L.wants t with
  | some r => apply key r t hwants
  | none =>
      use t, .refl
      rintro ⟨t', r, hr, -⟩
      cases hwants.symm.trans hr

end Locking
