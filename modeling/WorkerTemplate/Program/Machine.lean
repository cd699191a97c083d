import Mathlib.Data.List.Basic
import Mathlib.Logic.Relation
import WorkerTemplate.Program.Protocol

/-!
# Machines of interleaved programs

A machine is a world shared by threads, each of which runs a program.  In one step of
the machine a thread performs its next operation, a program is spawned as a new thread,
or a thread crashes.

A machine refines a protocol when every thread can be given a state of the protocol that
its program follows, and the steps of the machine move these states as the protocol
says.  The invariant of a refinement that holds at the beginning holds at every
reachable configuration.
-/

universe u v w

/-- A machine over a world `ω`: what an operation of a thread does to the world, which
programs may be spawned, and what the crash of a thread does. -/
structure Machine {Op : Type u} (Answer : Op → Type u) (ω : Type v) where
  /-- The answer to an operation of a thread and the world it leaves. -/
  exec : ℕ → (o : Op) → ω → Answer o → ω → Prop
  /-- A program that may be spawned and the world its spawning leaves. -/
  spawn : ω → Program Answer PUnit → ω → Prop
  /-- The world the crash of a thread leaves. -/
  crash : ℕ → ω → ω → Prop

namespace Machine

variable {Op : Type u} {Answer : Op → Type u} {ω : Type v} {σ : Type w}

/-- A configuration of a machine: the program each thread has still to run, in the order
in which the threads were spawned, and the world. -/
structure Config {Op : Type u} (Answer : Op → Type u) (ω : Type v) where
  threads : List (Program Answer PUnit)
  world : ω

/-- One step of a machine. -/
inductive Step (M : Machine Answer ω) : Config Answer ω → Config Answer ω → Prop where
  | exec {ps : List (Program Answer PUnit)} {w w' : ω} {i : ℕ} {o : Op}
      {k : Answer o → Program Answer PUnit} {r : Answer o}
      (thread : ps[i]? = some (.perform o k)) (exec : M.exec i o w r w') :
      Step M ⟨ps, w⟩ ⟨ps.set i (k r), w'⟩
  | spawn {ps : List (Program Answer PUnit)} {w w' : ω} {p : Program Answer PUnit}
      (spawn : M.spawn w p w') :
      Step M ⟨ps, w⟩ ⟨ps ++ [p], w'⟩
  | crash {ps : List (Program Answer PUnit)} {w w' : ω} {i : ℕ} {p : Program Answer PUnit}
      (thread : ps[i]? = some p) (crash : M.crash i w w') :
      Step M ⟨ps, w⟩ ⟨ps.set i (.pure ⟨⟩), w'⟩

/-- The configurations a machine reaches from a world without threads. -/
def Reachable (M : Machine Answer ω) (w : ω) : Config Answer ω → Prop :=
  Relation.ReflTransGen M.Step ⟨[], w⟩

/-- The machine whose operations meet a condition on the world before them and their
answer. -/
def restrict (M : Machine Answer ω) (meets : ω → (o : Op) → Answer o → Prop) :
    Machine Answer ω where
  exec i o w r w' := M.exec i o w r w' ∧ meets w o r
  spawn := M.spawn
  crash := M.crash

/-- A run meets a condition on its operations when its last world says that it has. -/
theorem reachable_restrict {M : Machine Answer ω} {meets : ω → (o : Op) → Answer o → Prop}
    (tells : ω → Prop)
    (hexec : ∀ {i o w r w'}, M.exec i o w r w' → tells w' → meets w o r ∧ tells w)
    (hspawn : ∀ {w p w'}, M.spawn w p w' → tells w' → tells w)
    (hcrash : ∀ {i w w'}, M.crash i w w' → tells w' → tells w) {w : ω} {c : Config Answer ω}
    (hc : M.Reachable w c) (htells : tells c.world) :
  (M.restrict meets).Reachable w c
  := by
  induction hc with
  | refl => exact .refl
  | tail _ hstep ih =>
      cases hstep with
      | exec thread exec =>
          obtain ⟨hmeets, htells⟩ := hexec exec htells
          exact (ih htells).tail (.exec thread ⟨exec, hmeets⟩)
      | spawn spawn => exact (ih (hspawn spawn htells)).tail (.spawn spawn)
      | crash thread crash => exact (ih (hcrash crash htells)).tail (.crash thread crash)

/-- A refinement of a protocol by a machine: an invariant of the states of the threads and
the world that every step of the machine keeps, moving the states as the protocol says,
and the states `final` in which a thread has nothing left to do. -/
structure Refinement (M : Machine Answer ω) (P : Protocol Answer σ) where
  final : σ → Prop
  inv : List σ → ω → Prop
  exec : ∀ {ss w w' i s o r}, inv ss w → ss[i]? = some s → P.allows s o →
    M.exec i o w r w' → ∃ s', P.moves s o r s' ∧ inv (ss.set i s') w'
  spawn : ∀ {ss w w' p}, inv ss w → M.spawn w p w' →
    ∃ s, p.Follows P (fun _ => final) s ∧ inv (ss ++ [s]) w'
  crash : ∀ {ss w w' i s}, inv ss w → ss[i]? = some s → M.crash i w w' →
    ∃ s', final s' ∧ inv (ss.set i s') w'

/-! ### The states of threads -/

section States

variable {ss : List σ} {s s' : σ} {i j : ℕ}

/-- Where a state was set there is the new one, and elsewhere the one that was there before. -/
theorem state_of_set (h : (ss.set i s)[j]? = some s') :
  j = i ∧ s' = s ∨ j ≠ i ∧ ss[j]? = some s'
  := by
  rw [List.getElem?_set] at h
  split at h
  case isTrue hi =>
    split at h
    · exact Or.inl ⟨hi.symm, (Option.some.inj h).symm⟩
    · cases h
  case isFalse hi => exact Or.inr ⟨Ne.symm hi, h⟩

/-- A state that was added is the last one. -/
theorem state_of_concat (h : (ss ++ [s])[j]? = some s') :
  ss[j]? = some s' ∨ j = ss.length ∧ s' = s
  := by
  rw [List.getElem?_append] at h
  split at h
  case isTrue => exact Or.inl h
  case isFalse hj =>
    rw [List.getElem?_singleton] at h
    split at h
    · exact Or.inr ⟨by omega, (Option.some.inj h).symm⟩
    · cases h

end States

/-! ### Remembering -/

/-- The machine that remembers for every thread what it was spawned with. -/
def remembers {κ : Type w} (M : Machine Answer ω)
    (spawns : κ → ω → Program Answer PUnit → ω → Prop) : Machine Answer (ω × List κ) where
  exec i o w r w' := M.exec i o w.1 r w'.1 ∧ w'.2 = w.2
  spawn w p w' := ∃ k, spawns k w.1 p w'.1 ∧ w'.2 = w.2 ++ [k]
  crash i w w' := M.crash i w.1 w'.1 ∧ w'.2 = w.2

namespace Refinement

variable {M : Machine Answer ω} {P : Protocol Answer σ}

/-- Protocol states account for a configuration when every thread follows the protocol
from its state, and the invariant holds of the states and the world. -/
structure Accounts (R : Refinement M P) (ss : List σ) (c : Config Answer ω) : Prop where
  length : c.threads.length = ss.length
  follows : ∀ (i : ℕ) (p : Program Answer PUnit) (s : σ), c.threads[i]? = some p → ss[i]? = some s →
    p.Follows P (fun _ => R.final) s
  inv : R.inv ss c.world

variable {R : Refinement M P} {ss : List σ}

/-- Every thread of an accounted configuration has a protocol state. -/
theorem Accounts.state {c : Config Answer ω} (h : R.Accounts ss c) {i : ℕ}
    {p : Program Answer PUnit} (hp : c.threads[i]? = some p) :
  ∃ s, ss[i]? = some s ∧ p.Follows P (fun _ => R.final) s
  := by
  have hi : i < ss.length := by
    rw [← h.length]
    apply (List.getElem?_eq_some_iff.mp hp).1
  use ss[i], List.getElem?_eq_getElem hi
  apply h.follows i p _ hp (List.getElem?_eq_getElem hi)

/-- When every thread has returned, none of them has anything left to do. -/
theorem Accounts.final_of_returned {c : Config Answer ω} (h : R.Accounts ss c)
    (hreturned : ∀ p ∈ c.threads, p.hasReturned = true) {i : ℕ} {s : σ} (hs : ss[i]? = some s) :
  R.final s
  := by
  have hi : i < c.threads.length := by
    rw [h.length]
    apply (List.getElem?_eq_some_iff.mp hs).1
  have hfollows := h.follows i _ s (List.getElem?_eq_getElem hi) hs
  have hreturns := hreturned _ (List.getElem_mem hi)
  cases hp : c.threads[i] with
  | pure a =>
      rw [hp] at hfollows
      apply hfollows
  | perform o k =>
      rw [hp] at hreturns
      cases hreturns

/-- Replacing the program of a thread and its protocol state keeps the other threads
accounted for. -/
theorem Accounts.set {ps : List (Program Answer PUnit)} {w w' : ω}
    (h : R.Accounts ss ⟨ps, w⟩) (i : ℕ) {p : Program Answer PUnit} {s : σ}
    (hp : p.Follows P (fun _ => R.final) s) (hinv : R.inv (ss.set i s) w') :
  R.Accounts (ss.set i s) ⟨ps.set i p, w'⟩
  where
  length := by simpa using h.length
  follows := by
    intro j q t hq ht
    rw [List.getElem?_set] at hq ht
    split at hq
    · simp_all
    · apply h.follows j q t hq
      simp_all
  inv := hinv

/-- Spawning a program that follows the protocol keeps the other threads accounted
for. -/
theorem Accounts.append {ps : List (Program Answer PUnit)} {w w' : ω}
    (h : R.Accounts ss ⟨ps, w⟩) {p : Program Answer PUnit} {s : σ}
    (hp : p.Follows P (fun _ => R.final) s) (hinv : R.inv (ss ++ [s]) w') :
  R.Accounts (ss ++ [s]) ⟨ps ++ [p], w'⟩
  where
  length := by simpa using h.length
  follows := by
    intro j q t hq ht
    have hlength : ps.length = ss.length := h.length
    rw [List.getElem?_append] at hq ht
    rw [← hlength] at ht
    split at hq
    · apply h.follows j q t hq
      simp_all
    · simp_all [List.getElem?_singleton]
  inv := hinv

/-- A step from an accounted configuration leads to an accounted configuration. -/
theorem Accounts.step {c c' : Config Answer ω} (h : R.Accounts ss c) (hstep : M.Step c c') :
  ∃ ss', R.Accounts ss' c'
  := by
  cases hstep with
  | @exec ps w w' i o k r thread exec =>
      obtain ⟨s, hs, hallows, hnext⟩ := h.state thread
      obtain ⟨s', hmoves, hinv⟩ := R.exec h.inv hs hallows exec
      use ss.set i s'
      apply h.set i (hnext r s' hmoves) hinv
  | spawn spawn =>
      obtain ⟨s, hp, hinv⟩ := R.spawn h.inv spawn
      use ss ++ [s]
      apply h.append hp hinv
  | @crash ps w w' i p thread crash =>
      obtain ⟨s, hs, -⟩ := h.state thread
      obtain ⟨s', hfinal, hinv⟩ := R.crash h.inv hs crash
      use ss.set i s'
      apply h.set i (p := .pure ⟨⟩) hfinal hinv

/-- The invariant of a refinement that holds of a world without threads holds at every
reachable configuration. -/
theorem reachable (R : Refinement M P) {w : ω} (hw : R.inv [] w) {c : Config Answer ω}
    (hc : M.Reachable w c) :
  ∃ ss, R.Accounts ss c
  := by
  induction hc with
  | refl =>
      use []
      constructor
      · rfl
      · simp
      · apply hw
  | tail _ hstep ih =>
      obtain ⟨ss, h⟩ := ih
      apply h.step hstep

end Refinement

end Machine
