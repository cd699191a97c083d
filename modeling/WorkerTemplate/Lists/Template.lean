import Mathlib.Data.List.Infix

/-!
# Templates

A template is a list with tags in it. A tag prints a value, opens or closes a part that is
printed on a condition, or begins a part that is printed as it stands; everything else is
printed verbatim, but for the blanks that some tags take away before them. The meaning of
templates is a relation that goes through a template from left to right; an engine is a
function that computes what the relation says.
-/

namespace Template

variable {α : Type*}

/-- What a tag does. -/
inductive Action (α : Type*) where
  | prints (value : List α)
  | opens (condition : Bool)
  | closes
  | raw

/-- A dialect of templates. -/
structure Dialect (α : Type*) where
  /-- What begins at the head of a list is taken for a tag. -/
  marks : List α → Bool
  /-- The length of the tag at the head of a list, and what it does. -/
  tag : List α → Option (ℕ × Action α)
  marks_of_tag : ∀ l, (tag l).isSome → marks l
  /-- A tag at the head of a list takes away the blanks before it. -/
  trims : List α → Bool
  blank : α → Bool
  /-- The elements that stand for themselves. -/
  plain : α → Bool
  /-- What begins at the head of a list is taken for the end of a raw part. -/
  marksEnd : List α → Bool
  endRaw : List α
  endRaw_ne_nil : endRaw ≠ []
  marksEnd_endRaw : ∀ l, marksEnd (endRaw ++ l)

/-- What is printed under some conditions. -/
def shown (conditions : List Bool) (l : List α) : List α := if conditions.all id then l else []

@[simp] theorem shown_nil (l : List α) : shown [] l = l := rfl

@[simp] theorem shown_append (σ : List Bool) (l l' : List α) :
  shown σ (l ++ l') = shown σ l ++ shown σ l'
  := by
  unfold shown
  split <;> rfl

theorem shown_element (σ : List Bool) (a : α) (l : List α) :
  shown σ (a :: l) = shown σ [a] ++ shown σ l
  := shown_append σ [a] l

@[simp] theorem shown_empty (σ : List Bool) : shown σ ([] : List α) = [] := ite_self []

/-- A condition that holds makes no difference. -/
theorem shown_cons_true (σ : List Bool) (l : List α) : shown (true :: σ) l = shown σ l := by
  simp [shown]

@[simp] theorem shown_cons_false (σ : List Bool) (l : List α) : shown (false :: σ) l = [] := rfl

namespace Dialect

variable (L : Dialect α)

/-- An element that is taken away by the tag after it. -/
def trimmed (l : List α) : Bool :=
  match l with
  | [] => false
  | a :: _ => L.blank a && L.trims (l.dropWhile L.blank)

/-- The meaning of a template under the conditions of the parts that are open. -/
inductive Renders : List Bool → List α → List α → Prop
  | nil : Renders [] [] []
  | verbatim {σ : List Bool} {a : α} {l u : List α} (plain : L.plain a)
      (marks : L.marks (a :: l) = false) (trimmed : L.trimmed (a :: l) = false)
      (rest : Renders σ l u) :
      Renders σ (a :: l) (shown σ [a] ++ u)
  | trimmed {σ : List Bool} {a : α} {l u : List α} (marks : L.marks (a :: l) = false)
      (trimmed : L.trimmed (a :: l)) (rest : Renders σ l u) :
      Renders σ (a :: l) u
  | prints {σ : List Bool} {m l u value : List α} (ne : m ≠ [])
      (tag : L.tag (m ++ l) = some (m.length, .prints value)) (rest : Renders σ l u) :
      Renders σ (m ++ l) (shown σ value ++ u)
  | opens {σ : List Bool} {m l u : List α} {condition : Bool} (ne : m ≠ [])
      (tag : L.tag (m ++ l) = some (m.length, .opens condition))
      (rest : Renders (condition :: σ) l u) :
      Renders σ (m ++ l) u
  | closes {σ : List Bool} {m l u : List α} {condition : Bool} (ne : m ≠ [])
      (tag : L.tag (m ++ l) = some (m.length, .closes)) (rest : Renders σ l u) :
      Renders (condition :: σ) (m ++ l) u
  | raw {σ : List Bool} {m body l u : List α} (ne : m ≠ [])
      (tag : L.tag (m ++ (body ++ (L.endRaw ++ l))) = some (m.length, .raw))
      (plain : ∀ a ∈ body, L.plain a)
      (quiet : ∀ s, s <:+ body → s ≠ [] → L.marksEnd (s ++ (L.endRaw ++ l)) = false)
      (rest : Renders σ l u) :
      Renders σ (m ++ (body ++ (L.endRaw ++ l))) (shown σ body ++ u)

/-- An engine prints every template that has a meaning as it means. -/
structure Engine where
  render : List α → Option (List α)
  renders : ∀ {t u}, L.Renders [] t u → render t = some u

/-! ### Rules -/

section Rules

variable {L} {σ : List Bool} {l u : List α}

/-- A text that nothing takes for a tag, and of which nothing is taken away, is printed as it
stands. -/
theorem Renders.append {p : List α} (hplain : ∀ a ∈ p, L.plain a)
    (hquiet : ∀ s, s <:+ p → s ≠ [] →
      L.marks (s ++ l) = false ∧ L.trimmed (s ++ l) = false)
    (h : L.Renders σ l u) :
  L.Renders σ (p ++ l) (shown σ p ++ u)
  := by
  induction p with
  | nil =>
      rw [shown_empty]
      apply h
  | cons a p ih =>
      have htail := ih (fun b hb => hplain b (List.mem_cons_of_mem a hb))
        (fun s hs => hquiet s (hs.trans (List.suffix_cons a p)))
      obtain ⟨hmarks, htrimmed⟩ := hquiet (a :: p) List.suffix_rfl (List.cons_ne_nil a p)
      have hcons := Renders.verbatim (hplain a List.mem_cons_self) hmarks htrimmed htail
      rw [← List.append_assoc, ← shown_append] at hcons
      apply hcons

end Rules

/-! ### The engine of a dialect -/

variable [DecidableEq α]

/-- What an engine prints: `skip` counts the elements left of the tag that is being read, and `raw`
says whether the part being read is raw. -/
def run : (skip : ℕ) → (raw : Bool) → (conditions : List Bool) → List α → Option (List α)
  | skip, raw, σ, [] => if skip = 0 ∧ raw = false ∧ σ = [] then some [] else none
  | skip + 1, raw, σ, _ :: l => run skip raw σ l
  | 0, true, σ, a :: l =>
      if L.marksEnd (a :: l) then
        if L.endRaw <+: a :: l then run (L.endRaw.length - 1) false σ l else none
      else if L.plain a then (run 0 true σ l).map (shown σ [a] ++ ·)
      else none
  | 0, false, σ, a :: l =>
      if L.marks (a :: l) then
        match L.tag (a :: l) with
        | some (n, .prints value) => (run (n - 1) false σ l).map (shown σ value ++ ·)
        | some (n, .opens condition) => run (n - 1) false (condition :: σ) l
        | some (n, .closes) => if σ = [] then none else run (n - 1) false σ.tail l
        | some (n, .raw) => run (n - 1) true σ l
        | none => none
      else if L.trimmed (a :: l) then run 0 false σ l
      else if L.plain a then (run 0 false σ l).map (shown σ [a] ++ ·)
      else none

section Run

variable {L} {σ : List Bool} {l m u : List α} {raw : Bool} {n : ℕ}

/-- The elements of a tag are skipped. -/
theorem run_skip (h : n = m.length) : L.run n raw σ (m ++ l) = L.run 0 raw σ l := by
  induction m generalizing n with
  | nil =>
      subst h
      rfl
  | cons a m ih =>
      subst h
      rw [List.length_cons, List.cons_append, run]
      apply ih rfl

/-- A raw part is printed up to its end. -/
theorem run_raw {body : List α} (hplain : ∀ a ∈ body, L.plain a)
    (hquiet : ∀ s, s <:+ body → s ≠ [] → L.marksEnd (s ++ (L.endRaw ++ l)) = false)
    (h : L.run 0 false σ l = some u) :
  L.run 0 true σ (body ++ (L.endRaw ++ l)) = some (shown σ body ++ u)
  := by
  induction body with
  | nil =>
      obtain ⟨a, e, he⟩ := List.exists_cons_of_ne_nil L.endRaw_ne_nil
      have hmarks := L.marksEnd_endRaw l
      have hbegins : L.endRaw <+: L.endRaw ++ l := List.prefix_append ..
      rw [he, List.cons_append] at hmarks hbegins
      rw [List.nil_append, he, List.cons_append, run, if_pos hmarks, he, if_pos hbegins,
        run_skip (by simp), h, shown_empty, List.nil_append]
  | cons a body ih =>
      have htail := ih (fun b hb => hplain b (List.mem_cons_of_mem a hb))
        (fun s hs => hquiet s (hs.trans (List.suffix_cons a body)))
      have hmarks := hquiet (a :: body) List.suffix_rfl (List.cons_ne_nil a body)
      rw [List.cons_append] at hmarks ⊢
      rw [run, hmarks, if_neg Bool.false_ne_true, if_pos (hplain a List.mem_cons_self), htail,
        Option.map_some, ← List.append_assoc, ← shown_append]
      rfl

/-- The engine prints every template as it means. -/
theorem run_eq_some {t : List α} (h : L.Renders σ t u) : L.run 0 false σ t = some u := by
  have hmarks {l : List α} {x : ℕ × Action α} (htag : L.tag l = some x) : L.marks l = true :=
    L.marks_of_tag l (by rw [htag, Option.isSome_some])
  have hskip {m l : List α} {σ : List Bool} {raw : Bool} :
      L.run m.length raw σ (m ++ l) = L.run 0 raw σ l := run_skip rfl
  induction h with
  | nil => rfl
  | verbatim plain marks trimmed rest ih =>
      simp [run, marks, trimmed, plain, ih]
  | trimmed marks trimmed rest ih =>
      simp [run, marks, trimmed, ih]
  | prints ne tag rest ih =>
      obtain ⟨a, m, rfl⟩ := List.exists_cons_of_ne_nil ne
      rw [List.cons_append] at tag ⊢
      simp [run, hmarks tag, tag, hskip, ih]
  | opens ne tag rest ih =>
      obtain ⟨a, m, rfl⟩ := List.exists_cons_of_ne_nil ne
      rw [List.cons_append] at tag ⊢
      simp [run, hmarks tag, tag, hskip, ih]
  | closes ne tag rest ih =>
      obtain ⟨a, m, rfl⟩ := List.exists_cons_of_ne_nil ne
      rw [List.cons_append] at tag ⊢
      simp [run, hmarks tag, tag, hskip, ih]
  | raw ne tag plain quiet rest ih =>
      obtain ⟨a, m, rfl⟩ := List.exists_cons_of_ne_nil ne
      rw [List.cons_append] at tag ⊢
      have hraw := run_raw plain quiet ih
      simp [run, hmarks tag, tag, hskip, hraw]

end Run

/-- The engine of a dialect. -/
def engine : L.Engine where
  render := L.run 0 false []
  renders h := run_eq_some h

end Dialect

end Template
