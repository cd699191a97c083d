import WorkerTemplate.Program.Machine

/-!
# A program run by itself on a machine

A handler runs one program by itself, and a machine interleaves many.  When a thread of the machine
may do to its world whatever the handler does to its state, a run of the handler, stopped anywhere,
is a run of the machine in which the other threads stand still.
-/

universe u v w x

namespace Machine

variable {Op : Type u} {Answer : Op → Type u} {α : Type u} {ω : Type v} {σ : Type w} {τ : Type x}

/-- A thread may do what a handler does, as far as a protocol allows the operations: the relation
ties the state of the protocol and that of the handler to the world. -/
def Hosts (M : Machine Answer ω) (i : ℕ) (handle : (o : Op) → σ → Answer o × σ)
    (P : Protocol Answer τ) (R : τ → σ → ω → Prop) : Prop :=
  ∀ c s w o, R c s w → P.allows c o →
    ∃ c' w', P.moves c o (handle o s).1 c' ∧ M.exec i o w (handle o s).1 w' ∧ R c' (handle o s).2 w'

variable {M : Machine Answer ω} {i : ℕ} {handle : (o : Op) → σ → Answer o × σ}
  {P : Protocol Answer τ} {R : τ → σ → ω → Prop}

/-- A thread does what the handler does with the first part of its program, stopped anywhere.  When
that part has returned, the thread goes on with the other one. -/
theorem Hosts.reaches (h : M.Hosts i handle P R) {p : Program Answer α}
    {f : α → Program Answer PUnit} {post : α → τ → Prop} {c : τ} {s : σ} {w : ω}
    {ps : List (Program Answer PUnit)} (hp : p.Follows P post c) (hR : R c s w)
    (hps : ps[i]? = some (p >>= f)) (n : ℕ) :
  ∃ q c' w', Relation.ReflTransGen M.Step ⟨ps, w⟩ ⟨ps.set i q, w'⟩ ∧
    R c' (p.runFor handle n s).2 w' ∧
    ∀ a, (p.runFor handle n s).1 = some a → q = f a ∧ post a c'
  := by
  -- Where the handler stops, the thread stands still.
  have hstop {q : Program Answer PUnit} {w : ω} {ps : List (Program Answer PUnit)}
      (hps : ps[i]? = some q) : Relation.ReflTransGen M.Step ⟨ps, w⟩ ⟨ps.set i q, w⟩ := by
    obtain ⟨hi, rfl⟩ := List.getElem?_eq_some_iff.mp hps
    rw [List.set_getElem_self]
  induction p generalizing n c s w ps with
  | pure a =>
      use f a, c, w, hstop hps
      cases n with
      | zero => exact ⟨hR, by rintro b ⟨⟩; exact ⟨rfl, hp⟩⟩
      | succ n => exact ⟨hR, by rintro b ⟨⟩; exact ⟨rfl, hp⟩⟩
  | perform o k ih =>
      obtain ⟨hallows, hnext⟩ := hp
      cases n with
      | zero => exact ⟨_, c, w, hstop hps, hR, by rintro b ⟨⟩⟩
      | succ n =>
          obtain ⟨c', w', hmoves, hexec, hR'⟩ := h c s w o hR hallows
          have hi : i < ps.length := (List.getElem?_eq_some_iff.mp hps).1
          obtain ⟨q, c'', w'', hrun, hR'', hreturns⟩ := ih _ (hnext _ c' hmoves) hR'
            (List.getElem?_set_self hi) n
          rw [List.set_set] at hrun
          exact ⟨q, c'', w'', .head (.exec hps hexec) hrun, hR'', hreturns⟩

end Machine
