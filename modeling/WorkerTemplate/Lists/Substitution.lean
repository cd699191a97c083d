import Mathlib.Data.List.Infix

/-!
# Substitution in a list

A substitution reads a list from left to right and replaces what it finds there. What it
finds is given by a function that says how long a match at the head of a list is. When a
match is always an occurrence of one pattern, and the replacement cannot be mistaken for a
part of the pattern at either of its ends, the pattern does not occur afterwards.
-/

namespace Substitution

variable {α : Type*}

/-! What holds of the elements of a list is decided by going through the list, also where the type
is finite and could be gone through itself. -/

scoped instance (priority := high) decidableOnList (p : α → Prop) [DecidablePred p]
    (l : List α) : Decidable (∀ a ∈ l, p a) := List.decidableBAll p l

scoped instance (priority := high) decidableOnOption (p : α → Prop) [DecidablePred p]
    (a : Option α) : Decidable (∀ b ∈ a, p b) := Option.decidableForallMem a

/-- A list with its matches replaced: `found` is the length of the match at the head of a
list, zero if there is none, and `skip` counts the elements left of the match that is being
replaced. -/
def scan (found : List α → ℕ) (f : List α → List α) : (skip : ℕ) → List α → List α
  | _, [] => []
  | skip + 1, _ :: l => scan found f skip l
  | 0, a :: l =>
      if found (a :: l) = 0 then a :: scan found f 0 l
      else f ((a :: l).take (found (a :: l))) ++ scan found f (found (a :: l) - 1) l

/-! ### What a substitution does at the head of a list -/

section Scan

variable {found : List α → ℕ} {f : List α → List α} {a : α} {l m : List α}

@[simp] theorem scan_nil (skip : ℕ) : scan found f skip [] = [] := by
  cases skip <;> rfl

/-- The elements of a match are skipped. -/
theorem scan_eq_scan_drop (skip : ℕ) (l : List α) :
  scan found f skip l = scan found f 0 (l.drop skip)
  := by
  induction l generalizing skip with
  | nil => simp
  | cons a l ih =>
      cases skip with
      | zero => rfl
      | succ skip => apply ih

/-- Where there is no match, an element is kept. -/
theorem scan_cons (h : found (a :: l) = 0) :
  scan found f 0 (a :: l) = a :: scan found f 0 l
  := if_pos h

/-- A match is replaced. -/
theorem scan_append (hm : m ≠ []) (h : found (m ++ l) = m.length) :
  scan found f 0 (m ++ l) = f m ++ scan found f 0 l
  := by
  obtain ⟨a, m, rfl⟩ := List.exists_cons_of_ne_nil hm
  rw [List.cons_append] at h ⊢
  have hne : found (a :: (m ++ l)) ≠ 0 := by simp [h]
  rw [scan, if_neg hne, scan_eq_scan_drop, h]
  simp

/-- Elements at which no match begins, whatever comes after them, are kept. -/
theorem scan_append_of_forall (h : ∀ a ∈ m, ∀ l, found (a :: l) = 0) :
  scan found f 0 (m ++ l) = m ++ scan found f 0 l
  := by
  induction m with
  | nil => rfl
  | cons a m ih =>
      rw [List.cons_append, scan_cons (h a List.mem_cons_self _),
        ih (fun b hb => h b (List.mem_cons_of_mem a hb)), List.cons_append]

/-- Induction along a substitution: a list is empty, or there is no match at its head, or it begins
with a match. -/
theorem scan_induction {motive : List α → Prop} (hfound : ∀ l, found l ≤ l.length)
    (nil : motive []) (kept : ∀ a l, found (a :: l) = 0 → motive l → motive (a :: l))
    (matched : ∀ m l, m ≠ [] → found (m ++ l) = m.length → motive l → motive (m ++ l))
    (l : List α) :
  motive l
  := by
  induction hlength : l.length using Nat.strong_induction_on generalizing l with
  | _ n ih =>
      cases l with
      | nil => apply nil
      | cons a l =>
          by_cases h : found (a :: l) = 0
          · apply kept a l h (ih _ (by simp [← hlength]) l rfl)
          · have hle := hfound (a :: l)
            have hsplit := List.take_append_drop (found (a :: l)) (a :: l)
            have htake : ((a :: l).take (found (a :: l))).length = found (a :: l) := by
              rw [List.length_take]
              omega
            rw [← hsplit]
            apply matched
            · rw [← List.length_pos_iff, htake]
              omega
            · rw [hsplit, htake]
            · apply ih ((a :: l).drop (found (a :: l))).length _ _ rfl
              rw [List.length_drop]
              omega

end Scan

/-! ### Occurrences around a guarded list -/

section Occurrences

variable {pattern replacement l l' : List α}

/-- No occurrence of a pattern goes across the beginning of a list whose first element is foreign
to the pattern. -/
theorem infix_or_infix_of_head (hhead : ∀ a ∈ l'.head?, a ∉ pattern)
    (h : pattern <:+: l ++ l') :
  pattern <:+: l ∨ pattern <:+: l'
  := by
  rcases List.infix_append_iff.mp h with h | h | ⟨p, q, rfl, hp, hq⟩
  · exact Or.inl h
  · exact Or.inr h
  · left
    cases q with
    | nil =>
        rw [List.append_nil]
        apply hp.isInfix
    | cons b q =>
        obtain ⟨r, rfl⟩ := hq
        exact absurd (by simp) (hhead b rfl)

/-- No occurrence of a pattern goes across the end of a list whose last element is foreign to the
pattern. -/
theorem infix_or_infix_of_getLast (hlast : ∀ a ∈ l.getLast?, a ∉ pattern)
    (h : pattern <:+: l ++ l') :
  pattern <:+: l ∨ pattern <:+: l'
  := by
  rw [← List.reverse_infix, List.reverse_append] at h
  have hhead : ∀ a ∈ l.reverse.head?, a ∉ pattern.reverse := by simpa using hlast
  rcases infix_or_infix_of_head hhead h with h | h
  · exact Or.inr (List.reverse_infix.mp h)
  · exact Or.inl (List.reverse_infix.mp h)

/-- A replacement that begins and ends with elements foreign to a pattern, and in which the pattern
does not occur. -/
structure Guarded (pattern replacement : List α) : Prop where
  ne_nil : replacement ≠ []
  head : ∀ a ∈ replacement.head?, a ∉ pattern
  last : ∀ a ∈ replacement.getLast?, a ∉ pattern
  not_infix : ¬ pattern <:+: replacement

/-- A pattern that occurs around a replacement occurs before it or after it. -/
theorem Guarded.infix_or_infix (h : Guarded pattern replacement)
    (hl : pattern <:+: l ++ (replacement ++ l')) :
  pattern <:+: l ∨ pattern <:+: l'
  := by
  have hhead : ∀ a ∈ (replacement ++ l').head?, a ∉ pattern := by
    obtain ⟨b, r, hr⟩ := List.exists_cons_of_ne_nil h.ne_nil
    simpa [hr] using h.head
  rcases infix_or_infix_of_head hhead hl with hl | hl
  · exact Or.inl hl
  · rcases infix_or_infix_of_getLast h.last hl with hr | hl
    · exact absurd hr h.not_infix
    · exact Or.inr hl

/-- A pattern that does not begin a list does not begin it when a guarded list follows. -/
theorem Guarded.not_prefix_append (h : Guarded pattern replacement) (hl : ¬ pattern <+: l) :
  ¬ pattern <+: l ++ (replacement ++ l')
  := by
  intro hbegins
  rcases List.prefix_or_prefix_of_prefix hbegins (List.prefix_append ..) with hpattern | hlist
  · exact hl hpattern
  · obtain ⟨q, rfl⟩ := hlist
    cases q with
    | nil => exact hl (by simp)
    | cons a q =>
        obtain ⟨b, r, hr⟩ := List.exists_cons_of_ne_nil h.ne_nil
        rw [List.prefix_append_right_inj, hr, List.cons_append, List.cons_prefix_cons] at hbegins
        have hb : b ∉ l ++ a :: q := h.head b (by simp [hr])
        exact hb (by simp [hbegins.1])

/-- A pattern begins nowhere in a list that it does not occur in and whose end is foreign to it. -/
theorem not_prefix_append_of_not_infix (hlast : ∀ a ∈ l.getLast?, a ∉ pattern)
    (hl : ¬ pattern <:+: l) {s : List α} (hs : s <:+ l) (hne : s ≠ []) :
  ¬ pattern <+: s ++ l'
  := by
  intro hbegins
  rcases List.prefix_or_prefix_of_prefix hbegins (List.prefix_append ..) with h | h
  · exact hl (h.isInfix.trans hs.isInfix)
  · obtain ⟨r, rfl⟩ := hs
    apply hlast (s.getLast hne) _ (h.subset (List.getLast_mem hne))
    rw [Option.mem_def, List.getLast?_append_of_ne_nil r hne, List.getLast?_eq_some_getLast hne]

/-- A pattern begins nowhere in a list that its first element is foreign to. -/
theorem not_prefix_append_of_head {m : List α} (hpattern : pattern ≠ [])
    (h : ∀ a ∈ pattern.head?, a ∉ m) {s : List α} (hs : s <:+ m) (hne : s ≠ []) :
  ¬ pattern <+: s ++ l
  := by
  obtain ⟨a, p, rfl⟩ := List.exists_cons_of_ne_nil hpattern
  obtain ⟨b, s, rfl⟩ := List.exists_cons_of_ne_nil hne
  rw [List.cons_append, List.cons_prefix_cons]
  rintro ⟨rfl, -⟩
  exact h a rfl (hs.subset List.mem_cons_self)

end Occurrences

/-! ### Occurrences after matches have been wrapped -/

section Wrap

variable {found : List α → ℕ} {pattern before after l : List α}

/-- What comes of a list begins like the list, as far as words go in which what is put before a
match cannot begin. -/
theorem prefix_of_prefix_wrap (hfound : ∀ l, found l ≤ l.length) (hne : before ≠ [])
    {word : List α} (hword : ∀ a ∈ before.head?, a ∉ word)
    (hbegins : word <+: scan found (fun m => before ++ (m ++ after)) 0 l) :
  word <+: l
  := by
  induction l using scan_induction hfound generalizing word with
  | nil => apply hbegins
  | kept a l h ih =>
      rw [scan_cons h] at hbegins
      cases word with
      | nil => apply List.nil_prefix
      | cons b word =>
          rw [List.cons_prefix_cons] at hbegins ⊢
          exact ⟨hbegins.1,
            ih (fun c hc hmem => hword c hc (List.mem_cons_of_mem b hmem)) hbegins.2⟩
  | matched m l hm h ih =>
      rw [scan_append hm h] at hbegins
      cases word with
      | nil => apply List.nil_prefix
      | cons b word =>
          obtain ⟨c, r, hr⟩ := List.exists_cons_of_ne_nil hne
          rw [hr, List.cons_append, List.cons_append, List.cons_prefix_cons] at hbegins
          have hc : c ∉ b :: word := hword c (by simp [hr])
          exact absurd (hbegins.1 ▸ List.mem_cons_self) hc

/-- Wrapping matches in guarded parts makes no occurrence of a pattern. -/
theorem infix_of_infix_wrap (hfound : ∀ l, found l ≤ l.length) (hpattern : pattern ≠ [])
    (hbefore : Guarded pattern before) (hafter : Guarded pattern after)
    (h : pattern <:+: scan found (fun m => before ++ (m ++ after)) 0 l) :
  pattern <:+: l
  := by
  obtain ⟨b, p, rfl⟩ := List.exists_cons_of_ne_nil hpattern
  induction l using scan_induction hfound with
  | nil => exact absurd (List.infix_nil.mp h) hpattern
  | kept a l hl ih =>
      rw [scan_cons hl] at h
      rcases List.infix_cons_iff.mp h with h | h
      · rw [List.cons_prefix_cons] at h
        have hbegins := prefix_of_prefix_wrap hfound hbefore.ne_nil
          (fun c hc hmem => hbefore.head c hc (List.mem_cons_of_mem b hmem)) h.2
        exact (List.cons_prefix_cons.mpr ⟨h.1, hbegins⟩).isInfix
      · exact List.infix_cons (ih h)
  | matched m l hm hl ih =>
      rw [scan_append hm hl, List.append_assoc, List.append_assoc] at h
      rcases hbefore.infix_or_infix (l := []) h with h | h
      · exact absurd (List.infix_nil.mp h) hpattern
      · rcases hafter.infix_or_infix h with h | h
        · apply List.infix_append_of_infix_left h
        · apply List.infix_append_of_infix_right (ih h)

end Wrap

/-! ### Replacing a pattern -/

variable [DecidableEq α] {pattern replacement : List α} {a : α} {l l' : List α}

/-- The length of an occurrence of a pattern at the head of a list. -/
def literal (pattern l : List α) : ℕ := if pattern <+: l then pattern.length else 0

theorem literal_le_length (l : List α) : literal pattern l ≤ l.length := by
  unfold literal
  split
  case isTrue h => apply h.length_le
  case isFalse => apply Nat.zero_le

/-- A list with every occurrence of a pattern replaced. -/
def replace (pattern replacement l : List α) : List α :=
  scan (literal pattern) (fun _ => replacement) 0 l

@[simp] theorem replace_nil : replace pattern replacement [] = [] := rfl

/-- An element where the pattern does not occur is kept. -/
theorem replace_cons (h : ¬ pattern <+: a :: l) :
  replace pattern replacement (a :: l) = a :: replace pattern replacement l
  := scan_cons (if_neg h)

/-- An occurrence of the pattern is replaced. -/
theorem replace_append (hpattern : pattern ≠ []) (l : List α) :
  replace pattern replacement (pattern ++ l) = replacement ++ replace pattern replacement l
  := scan_append hpattern (if_pos (List.prefix_append ..))

/-- Induction along a replacement: a list is empty, or the pattern does not occur at its head, or
it begins with the pattern. -/
theorem induction {motive : List α → Prop} (hpattern : pattern ≠ []) (nil : motive [])
    (kept : ∀ a l, ¬ pattern <+: a :: l → motive l → motive (a :: l))
    (replaced : ∀ l, motive l → motive (pattern ++ l)) (l : List α) :
  motive l
  := by
  have hlength : ∀ l, literal pattern l ≤ l.length := literal_le_length
  induction l using scan_induction hlength with
  | nil => apply nil
  | kept a l h ih =>
      apply kept a l _ ih
      intro hbegins
      rw [literal, if_pos hbegins, List.length_eq_zero_iff] at h
      exact hpattern h
  | matched m l hm h ih =>
      have hm : m.length ≠ 0 := mt List.length_eq_zero_iff.mp hm
      by_cases hbegins : pattern <+: m ++ l
      case pos =>
        rw [literal, if_pos hbegins] at h
        have hpattern : pattern = m :=
          (List.prefix_of_prefix_length_le hbegins (List.prefix_append m l) h.le).eq_of_length h
        rw [← hpattern]
        apply replaced l ih
      case neg =>
        rw [literal, if_neg hbegins] at h
        exact absurd h.symm hm

/-- Replacing a pattern by itself changes nothing. -/
theorem replace_self (hpattern : pattern ≠ []) (l : List α) : replace pattern pattern l = l := by
  induction l using induction hpattern with
  | nil => rfl
  | kept a l h ih => rw [replace_cons h, ih]
  | replaced l ih => rw [replace_append hpattern, ih]

/-- Where the pattern does not occur, nothing is replaced. -/
theorem replace_of_not_infix (h : ¬ pattern <:+: l) : replace pattern replacement l = l := by
  induction l with
  | nil => rfl
  | cons a l ih =>
      rw [List.infix_cons_iff, not_or] at h
      rw [replace_cons h.1, ih h.2]

/-- A part in which no occurrence of the pattern begins is kept. -/
theorem replace_append_of_forall {m : List α}
    (h : ∀ s, s <:+ m → s ≠ [] → ¬ pattern <+: s ++ l) :
  replace pattern replacement (m ++ l) = m ++ replace pattern replacement l
  := by
  induction m with
  | nil => rfl
  | cons a m ih =>
      have ha : ¬ pattern <+: a :: (m ++ l) := h (a :: m) List.suffix_rfl (List.cons_ne_nil a m)
      rw [List.cons_append, replace_cons ha, ih (fun s hs => h s (hs.trans (List.suffix_cons a m))),
        List.cons_append]

/-- A part in which the pattern does not occur, and which ends with an element foreign to it, is
kept. -/
theorem replace_append_of_not_infix {m : List α} (hlast : ∀ a ∈ m.getLast?, a ∉ pattern)
    (hm : ¬ pattern <:+: m) (l : List α) :
  replace pattern replacement (m ++ l) = m ++ replace pattern replacement l
  := replace_append_of_forall (fun _ => not_prefix_append_of_not_infix hlast hm)

/-- A guarded part divides the occurrences into those before it and those after it. -/
theorem Guarded.replace_around {m : List α} (h : Guarded pattern m) (hpattern : pattern ≠ [])
    (l l' : List α) :
  replace pattern replacement (l ++ (m ++ l')) =
    replace pattern replacement l ++ (m ++ replace pattern replacement l')
  := by
  induction l using induction hpattern with
  | nil => apply replace_append_of_not_infix h.last h.not_infix
  | kept a l hl ih =>
      have ha : ¬ pattern <+: a :: (l ++ (m ++ l')) := h.not_prefix_append hl
      rw [replace_cons hl, List.cons_append, replace_cons ha, ih, List.cons_append]
  | replaced l ih =>
      rw [List.append_assoc, replace_append hpattern,
        replace_append hpattern, ih, List.append_assoc]

/-! ### Occurrences after a replacement -/

/-- What comes of a list begins like the list, as far as words go in which the replacement cannot
begin. -/
theorem prefix_of_prefix_replace (hpattern : pattern ≠ []) (hne : replacement ≠ [])
    {word : List α} (hword : ∀ a ∈ replacement.head?, a ∉ word)
    (hbegins : word <+: replace pattern replacement l) :
  word <+: l
  := by
  induction l using induction hpattern generalizing word with
  | nil => simpa using hbegins
  | kept a l hl ih =>
      rw [replace_cons hl] at hbegins
      cases word with
      | nil => apply List.nil_prefix
      | cons b word =>
          rw [List.cons_prefix_cons] at hbegins ⊢
          exact ⟨hbegins.1,
            ih (fun c hc hmem => hword c hc (List.mem_cons_of_mem b hmem)) hbegins.2⟩
  | replaced l ih =>
      rw [replace_append hpattern] at hbegins
      cases word with
      | nil => apply List.nil_prefix
      | cons b word =>
          obtain ⟨c, r, hr⟩ := List.exists_cons_of_ne_nil hne
          rw [hr, List.cons_append, List.cons_prefix_cons] at hbegins
          have hc : c ∉ b :: word := hword c (by simp [hr])
          exact absurd (hbegins.1 ▸ List.mem_cons_self) hc

/-- After a guarded replacement the pattern does not occur. -/
theorem Guarded.not_infix_replace (h : Guarded pattern replacement) (hpattern : pattern ≠ [])
    (l : List α) :
  ¬ pattern <:+: replace pattern replacement l
  := by
  induction l using induction hpattern with
  | nil => simpa using hpattern
  | kept a l hl ih =>
      rw [replace_cons hl, List.infix_cons_iff, not_or]
      refine ⟨?_, ih⟩
      intro hbegins
      obtain ⟨b, word, rfl⟩ := List.exists_cons_of_ne_nil hpattern
      rw [List.cons_prefix_cons] at hbegins
      have hword := prefix_of_prefix_replace hpattern h.ne_nil
        (fun c hc hmem => h.head c hc (List.mem_cons_of_mem b hmem)) hbegins.2
      exact hl (List.cons_prefix_cons.mpr ⟨hbegins.1, hword⟩)
  | replaced l ih =>
      rw [replace_append hpattern]
      intro hl
      rcases h.infix_or_infix (l := []) hl with hnil | hl
      · exact hpattern (List.infix_nil.mp hnil)
      · exact ih hl

/-- A part behind which nothing is replaced is kept. -/
theorem replace_append_of_head {m : List α} (hpattern : pattern ≠ [])
    (hhead : ∀ a ∈ m.head?, a ∉ pattern) (hm : ¬ pattern <:+: m) (l : List α) :
  replace pattern replacement (l ++ m) = replace pattern replacement l ++ m
  := by
  cases m with
  | nil => rw [List.append_nil, List.append_nil]
  | cons a m =>
      have ha : a ∉ pattern := hhead a rfl
      have hguarded : Guarded pattern [a] := by
        constructor
        · apply List.cons_ne_nil
        · apply hhead
        · apply hhead
        · intro h
          obtain ⟨b, p, rfl⟩ := List.exists_cons_of_ne_nil hpattern
          have hb : b = a := List.mem_singleton.mp (h.subset List.mem_cons_self)
          exact ha (hb ▸ List.mem_cons_self)
      have hm' : ¬ pattern <:+: m := fun h => hm (h.trans (List.suffix_cons a m).isInfix)
      have haround : replace pattern replacement (l ++ ([a] ++ m)) =
          replace pattern replacement l ++ ([a] ++ replace pattern replacement m) :=
        hguarded.replace_around hpattern l m
      have hkept : replace pattern replacement m = m := replace_of_not_infix hm'
      rw [hkept] at haround
      apply haround

/-- What is foreign to the pattern and to the replacement is neither removed nor added. -/
theorem mem_replace_iff (hpattern : pattern ≠ []) {b : α} (hb : b ∉ pattern)
    (hb' : b ∉ replacement) (l : List α) :
  b ∈ replace pattern replacement l ↔ b ∈ l
  := by
  induction l using induction hpattern with
  | nil => rfl
  | kept a l h ih => rw [replace_cons h, List.mem_cons, List.mem_cons, ih]
  | replaced l ih =>
      rw [replace_append hpattern, List.mem_append, List.mem_append, ih]
      simp [hb, hb']

/-- An element that is foreign to the replacement was an element of the list, with what comes before
it and after it. -/
theorem exists_of_replace_eq (hpattern : pattern ≠ []) {b : α} (hb : b ∉ replacement)
    {m m' : List α} (h : replace pattern replacement l = m ++ b :: m') :
  ∃ k k', l = k ++ b :: k' ∧ replace pattern replacement k = m ∧
    replace pattern replacement k' = m'
  := by
  induction l using induction hpattern generalizing m with
  | nil => simp at h
  | kept a l hbegins ih =>
      rw [replace_cons hbegins] at h
      cases m with
      | nil =>
          obtain ⟨rfl, htail⟩ := List.cons.inj h
          exact ⟨[], l, rfl, rfl, htail⟩
      | cons c m =>
          obtain ⟨rfl, htail⟩ := List.cons.inj h
          obtain ⟨k, k', rfl, hk, hk'⟩ := ih htail
          have hnot : ¬ pattern <+: a :: k := by
            intro hstarts
            apply hbegins
            rw [← List.cons_append]
            apply hstarts.trans (List.prefix_append ..)
          use a :: k, k'
          rw [replace_cons hnot, hk]
          exact ⟨rfl, rfl, hk'⟩
  | replaced l ih =>
      rw [replace_append hpattern] at h
      rcases List.append_eq_append_iff.mp h with ⟨n, rfl, hn⟩ | ⟨n, hn, hm'⟩
      · obtain ⟨k, k', rfl, hk, hk'⟩ := ih hn
        use pattern ++ k, k'
        rw [replace_append hpattern, hk, List.append_assoc]
        exact ⟨rfl, rfl, hk'⟩
      · cases n with
        | nil =>
            rw [List.append_nil] at hn
            subst hn
            obtain ⟨k, k', rfl, hk, hk'⟩ := ih (m := []) hm'.symm
            use pattern ++ k, k'
            rw [replace_append hpattern, hk, List.append_assoc, List.append_nil]
            exact ⟨rfl, rfl, hk'⟩
        | cons c n =>
            obtain ⟨rfl, -⟩ := List.cons.inj hm'
            exact absurd (by simp [hn]) hb

/-! ### Replacing the first occurrence -/

/-- A list with the first occurrence of a pattern replaced. -/
def replaceFirst (pattern replacement : List α) : List α → List α
  | [] => []
  | a :: l =>
      if pattern <+: a :: l then replacement ++ (a :: l).drop pattern.length
      else a :: replaceFirst pattern replacement l

theorem replaceFirst_cons (h : ¬ pattern <+: a :: l) :
  replaceFirst pattern replacement (a :: l) = a :: replaceFirst pattern replacement l
  := if_neg h

theorem replaceFirst_append (hpattern : pattern ≠ []) (l : List α) :
  replaceFirst pattern replacement (pattern ++ l) = replacement ++ l
  := by
  obtain ⟨a, p, rfl⟩ := List.exists_cons_of_ne_nil hpattern
  have hbegins : a :: p <+: a :: (p ++ l) := List.prefix_append (a :: p) l
  rw [List.cons_append, replaceFirst, if_pos hbegins, ← List.cons_append, List.drop_left]

/-- A part in which no occurrence of the pattern begins is kept. -/
theorem replaceFirst_append_of_forall {m : List α}
    (h : ∀ s, s <:+ m → s ≠ [] → ¬ pattern <+: s ++ l) :
  replaceFirst pattern replacement (m ++ l) = m ++ replaceFirst pattern replacement l
  := by
  induction m with
  | nil => rfl
  | cons a m ih =>
      have ha : ¬ pattern <+: a :: (m ++ l) := h (a :: m) List.suffix_rfl (List.cons_ne_nil a m)
      rw [List.cons_append, replaceFirst_cons ha,
        ih (fun s hs => h s (hs.trans (List.suffix_cons a m))), List.cons_append]

/-- Where the pattern does not occur, nothing is replaced. -/
theorem replaceFirst_of_absent (h : ¬ pattern <:+: l) :
  replaceFirst pattern replacement l = l
  := by
  induction l with
  | nil => rfl
  | cons a l ih =>
      rw [List.infix_cons_iff, not_or] at h
      rw [replaceFirst_cons h.1, ih h.2]

/-- Replacing a pattern by itself changes nothing. -/
theorem replaceFirst_self (hpattern : pattern ≠ []) (l : List α) :
  replaceFirst pattern pattern l = l
  := by
  induction l with
  | nil => rfl
  | cons a l ih =>
      by_cases h : pattern <+: a :: l
      case pos =>
        obtain ⟨b, hb⟩ := h
        rw [← hb, replaceFirst_append hpattern]
      case neg => rw [replaceFirst_cons h, ih]

/-- What comes of a list begins like the list, as far as words go in which the replacement cannot
begin. -/
theorem prefix_of_prefix_replaceFirst (hne : replacement ≠ []) {word : List α}
    (hword : ∀ a ∈ replacement.head?, a ∉ word)
    (hbegins : word <+: replaceFirst pattern replacement l) :
  word <+: l
  := by
  induction l generalizing word with
  | nil => apply hbegins
  | cons a l ih =>
      cases word with
      | nil => apply List.nil_prefix
      | cons b word =>
          by_cases h : pattern <+: a :: l
          case pos =>
            obtain ⟨c, r, hr⟩ := List.exists_cons_of_ne_nil hne
            rw [replaceFirst, if_pos h, hr, List.cons_append, List.cons_prefix_cons] at hbegins
            have hc : c ∉ b :: word := hword c (by simp [hr])
            exact absurd (hbegins.1 ▸ List.mem_cons_self) hc
          case neg =>
            rw [replaceFirst_cons h, List.cons_prefix_cons] at hbegins
            rw [List.cons_prefix_cons]
            exact ⟨hbegins.1, ih (fun c hc hmem => hword c hc (List.mem_cons_of_mem b hmem))
              hbegins.2⟩

/-- The pattern does not occur, or its first occurrence is replaced. -/
theorem not_infix_or_exists (hpattern : pattern ≠ []) (l : List α) :
  ¬ pattern <:+: l ∨
    ∃ a b, l = a ++ (pattern ++ b) ∧ ∀ r, replaceFirst pattern r l = a ++ (r ++ b)
  := by
  induction l with
  | nil => exact Or.inl (fun h => hpattern (List.infix_nil.mp h))
  | cons c l ih =>
      by_cases h : pattern <+: c :: l
      case pos =>
        obtain ⟨b, hb⟩ := h
        right
        refine ⟨[], b, hb.symm, ?_⟩
        intro r
        rw [← hb, replaceFirst_append hpattern, List.nil_append]
      case neg =>
        rcases ih with hl | ⟨a, b, hl, hreplace⟩
        · left
          rw [List.infix_cons_iff, not_or]
          exact ⟨h, hl⟩
        · right
          refine ⟨c :: a, b, congrArg (c :: ·) hl, ?_⟩
          intro r
          rw [replaceFirst_cons h, hreplace, List.cons_append]

/-- An occurrence before a guarded part is the first one. -/
theorem Guarded.replaceFirst_before {m : List α} (h : Guarded pattern m) (hl : pattern <:+: l)
    (l' r : List α) :
  replaceFirst pattern r (l ++ (m ++ l')) = replaceFirst pattern r l ++ (m ++ l')
  := by
  have hpattern : pattern ≠ [] := by
    rintro rfl
    exact h.not_infix List.nil_infix
  induction l with
  | nil => exact absurd (List.infix_nil.mp hl) hpattern
  | cons a l ih =>
      by_cases hbegins : pattern <+: a :: l
      case pos =>
        obtain ⟨b, hb⟩ := hbegins
        rw [← hb, List.append_assoc, replaceFirst_append hpattern, replaceFirst_append hpattern,
          List.append_assoc]
      case neg =>
        have ha : ¬ pattern <+: a :: (l ++ (m ++ l')) := h.not_prefix_append hbegins
        rw [List.cons_append, replaceFirst_cons ha, replaceFirst_cons hbegins,
          ih ((List.infix_cons_iff.mp hl).resolve_left hbegins), List.cons_append]

/-- Where there is no occurrence before a guarded part, the first one is after it. -/
theorem Guarded.replaceFirst_after {m : List α} (h : Guarded pattern m) (hl : ¬ pattern <:+: l)
    (l' r : List α) :
  replaceFirst pattern r (l ++ (m ++ l')) = l ++ (m ++ replaceFirst pattern r l')
  := by
  rw [replaceFirst_append_of_forall, replaceFirst_append_of_forall]
  · intro s
    apply not_prefix_append_of_not_infix h.last h.not_infix
  · rintro s hs -
    apply h.not_prefix_append
    exact fun hbegins => hl (hbegins.isInfix.trans hs.isInfix)

/-- Replacing a first occurrence commutes with replacing all occurrences of another pattern, when
the one cannot be mistaken for the other. -/
theorem replaceFirst_replace {word r : List α} (hpattern : pattern ≠ [])
    (hne : replacement ≠ []) (hword : Guarded pattern word) (hr : Guarded pattern r)
    (hhead : ∀ a ∈ word.head?, a ∉ replacement)
    (hhead' : ∀ a ∈ replacement.head?, a ∉ word) (l : List α) :
  replaceFirst word r (replace pattern replacement l) =
    replace pattern replacement (replaceFirst word r l)
  := by
  obtain ⟨b, w, rfl⟩ := List.exists_cons_of_ne_nil hword.ne_nil
  induction l using induction hpattern with
  | nil => rfl
  | kept a l h ih =>
      by_cases hbegins : b :: w <+: a :: l
      case pos =>
        obtain ⟨l', hl'⟩ := hbegins
        have hwhole {m : List α} (hm : Guarded pattern m) :
            replace pattern replacement (m ++ l') = m ++ replace pattern replacement l' := by
          apply hm.replace_around hpattern []
        rw [← hl', hwhole hword, replaceFirst_append hword.ne_nil,
          replaceFirst_append hword.ne_nil, hwhole hr]
      case neg =>
        have hkept : ¬ b :: w <+: a :: replace pattern replacement l := by
          intro h'
          rw [List.cons_prefix_cons] at h' hbegins
          apply hbegins ⟨h'.1, prefix_of_prefix_replace hpattern hne _ h'.2⟩
          exact fun c hc hmem => hhead' c hc (List.mem_cons_of_mem b hmem)
        have hkept' : ¬ pattern <+: a :: replaceFirst (b :: w) r l := by
          intro h'
          obtain ⟨c, p, rfl⟩ := List.exists_cons_of_ne_nil hpattern
          rw [List.cons_prefix_cons] at h' h
          apply h ⟨h'.1, prefix_of_prefix_replaceFirst hr.ne_nil _ h'.2⟩
          exact fun d hd hmem => hr.head d hd (List.mem_cons_of_mem c hmem)
        rw [replace_cons h, replaceFirst_cons hkept, replaceFirst_cons hbegins,
          replace_cons hkept', ih]
  | replaced l ih =>
      rw [replace_append hpattern,
        replaceFirst_append_of_forall (fun _ => not_prefix_append_of_head hword.ne_nil hhead),
        replaceFirst_append_of_forall (fun _ => not_prefix_append_of_head hword.ne_nil hword.head),
        replace_append hpattern, ih]

end Substitution
