import Mathlib.Logic.Hydra
import Mathlib.Tactic.Abel
import WorkerTemplate.Program.Machine

/-!
# Termination of machines

An operation replaces the program of a thread by what is left of it.  A machine whose threads do
not crash and that cannot spawn without end has no infinite runs: the programs that are left
descend in the order of multisets of programs.
-/

universe u v

namespace Program

variable {Op : Type u} {Answer : Op → Type u} {α : Type u}

/-- What is left of a program after its next operation. -/
inductive Rest : Program Answer α → Program Answer α → Prop where
  | perform (o : Op) (k : Answer o → Program Answer α) (r : Answer o) :
      Rest (k r) (.perform o k)

/-- A program comes to its end, whatever the answers are. -/
theorem wellFounded_rest :
  WellFounded (Rest : Program Answer α → Program Answer α → Prop)
  := by
  constructor
  intro p
  induction p with
  | pure a =>
      constructor
      rintro q ⟨⟩
  | perform o k ih =>
      constructor
      rintro q ⟨o, k, r⟩
      apply ih r

end Program

namespace Machine

variable {Op : Type u} {Answer : Op → Type u} {ω : Type v} {M : Machine Answer ω}

/-- Replacing the program of a thread by what is left of it descends. -/
theorem cutExpand_set {ps : List (Program Answer PUnit)} {i : ℕ} {p q : Program Answer PUnit}
    (hp : ps[i]? = some p) (hq : q.Rest p) :
  Relation.CutExpand Program.Rest (↑(ps.set i q) : Multiset (Program Answer PUnit)) ↑ps
  := by
  obtain ⟨hi, rfl⟩ := List.getElem?_eq_some_iff.mp hp
  refine ⟨{q}, ps[i], ?_, ?_⟩
  · intro q' hq'
    rw [Multiset.mem_singleton] at hq'
    rw [hq']
    apply hq
  · calc
      (↑(ps.set i q) : Multiset (Program Answer PUnit)) + {ps[i]}
        = ↑(q :: ps.eraseIdx i) + {ps[i]} := by
          rw [Multiset.coe_eq_coe.mpr (List.set_perm_cons_eraseIdx hi q)]
      _ = ↑(ps[i] :: ps.eraseIdx i) + {q} := by
          rw [← Multiset.cons_coe, ← Multiset.cons_coe, ← Multiset.singleton_add,
            ← Multiset.singleton_add]
          abel
      _ = ↑ps + {q} := by
          rw [Multiset.coe_eq_coe.mpr (List.getElem_cons_eraseIdx_perm hi)]

/-- A machine whose threads do not crash has no infinite run with a bounded number of threads. -/
theorem not_forall_step (hcrash : ∀ i w w', ¬ M.crash i w w') {n : ℕ} {f : ℕ → Config Answer ω}
    (hthreads : ∀ k, (f k).threads.length ≤ n) :
  ¬ ∀ k, M.Step (f k) (f (k + 1))
  := by
  intro hstep
  let R : ℕ × Multiset (Program Answer PUnit) → ℕ × Multiset (Program Answer PUnit) → Prop :=
    Prod.Lex (· < ·) (Relation.CutExpand Program.Rest)
  have hwf : WellFounded R := WellFounded.prod_lex wellFounded_lt Program.wellFounded_rest.cutExpand
  have hdescends : ∀ k, R (n - (f (k + 1)).threads.length, (f (k + 1)).threads)
      (n - (f k).threads.length, (f k).threads) := by
    intro k
    have hk := hstep k
    have hle := hthreads (k + 1)
    generalize f k = c at hk ⊢
    generalize f (k + 1) = c' at hk hle ⊢
    cases hk with
    | exec thread exec =>
        rw [List.length_set]
        apply Prod.Lex.right _ (cutExpand_set thread (.perform _ _ _))
    | @spawn ps w w' p spawn =>
        rw [List.length_append, List.length_singleton] at hle ⊢
        have hlt : n - (ps.length + 1) < n - ps.length := by omega
        apply Prod.Lex.left _ _ hlt
    | crash thread crash => exact absurd crash (hcrash _ _ _)
  have hnone := wellFounded_iff_isEmpty_descending_chain.mp hwf
  apply hnone.false ⟨fun k => (n - (f k).threads.length, (f k).threads), hdescends⟩

end Machine
