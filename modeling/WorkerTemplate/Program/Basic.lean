import Mathlib.Control.Basic
import Mathlib.Data.Nat.Notation
import Mathlib.Tactic.Common

/-!
# Programs over operations

A program either has returned a value or performs an operation and continues with the
answer to it.  What an operation does is left open: a handler runs a program on a state
of its own, and a machine interleaves several programs over a shared world.  Programs
form a lawful monad.
-/

universe u v

/-- A program over the operations `Op`, where an operation `o` is answered by a value of
`Answer o`. -/
inductive Program {Op : Type u} (Answer : Op → Type u) (α : Type u) : Type u where
  | pure : α → Program Answer α
  | perform : (o : Op) → (Answer o → Program Answer α) → Program Answer α

namespace Program

variable {Op : Type u} {Answer : Op → Type u} {α β γ : Type u}

/-- The program that performs `p` and continues with `f` at the value `p` returns. -/
def bind : Program Answer α → (α → Program Answer β) → Program Answer β
  | .pure a, f => f a
  | .perform o k, f => .perform o (fun r => (k r).bind f)

/-- The program that performs one operation and returns the answer to it. -/
def call (o : Op) : Program Answer (Answer o) :=
  .perform o .pure

instance : Monad (Program Answer) where
  pure := .pure
  bind := bind

/-- Returning after a program changes nothing. -/
theorem bind_pure (p : Program Answer α) :
  p.bind .pure = p
  := by
  induction p with
  | pure a => rfl
  | perform o k ih =>
      simp only [bind]
      congr 1
      funext r
      apply ih

/-- Binding is associative. -/
theorem bind_assoc (p : Program Answer α) (f : α → Program Answer β)
    (g : β → Program Answer γ) :
  (p.bind f).bind g = p.bind (fun a => (f a).bind g)
  := by
  induction p with
  | pure a => rfl
  | perform o k ih =>
      simp only [bind]
      congr 1
      funext r
      apply ih

instance : LawfulMonad (Program Answer) :=
  LawfulMonad.mk' _ bind_pure (fun _ _ => rfl) bind_assoc

/-- Whether a program has returned. -/
def hasReturned : Program Answer α → Bool
  | .pure _ => true
  | .perform _ _ => false

/-! ### Running a program -/

variable {σ : Type v}

/-- The value a program returns and the state it leaves when every operation is answered
by `handle`. -/
def run (handle : (o : Op) → σ → Answer o × σ) : Program Answer α → σ → α × σ
  | .pure a, s => (a, s)
  | .perform o k, s => (k (handle o s).1).run handle (handle o s).2

/-- The state a program leaves when it is stopped after at most `n` operations, with the
value it has returned by then. -/
def runFor (handle : (o : Op) → σ → Answer o × σ) : ℕ → Program Answer α → σ → Option α × σ
  | _, .pure a, s => (some a, s)
  | 0, .perform _ _, s => (none, s)
  | n + 1, .perform o k, s => (k (handle o s).1).runFor handle n (handle o s).2

variable (handle : (o : Op) → σ → Answer o × σ)

/-- Running `p` and then `f` is running `f` from the state `p` leaves. -/
@[simp]
theorem run_bind (p : Program Answer α) (f : α → Program Answer β) (s : σ) :
  (p >>= f).run handle s = (f (p.run handle s).1).run handle (p.run handle s).2
  := by
  induction p generalizing s with
  | pure a => rfl
  | perform o k ih => apply ih

/-- A program that is stopped late enough has returned. -/
theorem exists_runFor (p : Program Answer α) (s : σ) :
  ∃ n, p.runFor handle n s = (some (p.run handle s).1, (p.run handle s).2)
  := by
  induction p generalizing s with
  | pure a => exact ⟨0, rfl⟩
  | perform o k ih =>
      obtain ⟨n, hn⟩ := ih (handle o s).1 (handle o s).2
      exact ⟨n + 1, hn⟩

end Program
