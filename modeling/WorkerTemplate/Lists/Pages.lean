import Mathlib.Data.List.Flatten
import Mathlib.Data.List.Nodup
import Mathlib.Data.List.Sort
import Mathlib.Order.Basic

/-!
# Pages of a sorted list

A list is read page by page, from orders that put greater keys first and that place
elements with equal keys differently for each page.  The pages put together are the list,
whatever the orders are, exactly when no page boundary splits a group of equal keys.
-/

namespace Pages

variable {α β : Type} [LinearOrder β] (key : α → β)

/-- The number of elements with a greater key. -/
def above (rows : List α) (a : α) : ℕ := rows.countP (fun b => key a < key b)

/-- The number of elements with the same key. -/
def tied (rows : List α) (a : α) : ℕ := rows.countP (fun b => key b = key a)

/-- The boundary after `b` elements splits a group of equal keys. -/
def Splits (rows : List α) (b : ℕ) : Prop :=
  ∃ a ∈ rows, above key rows a < b ∧ b < above key rows a + tied key rows a

/-- An order of the elements that puts greater keys first. -/
structure Descending (rows order : List α) : Prop where
  perm : order.Perm rows
  sorted : order.Pairwise (fun a b => key b ≤ key a)

/-- The page of `n` elements after `k` pages. -/
def page (order : List α) (n k : ℕ) : List α := (order.drop (k * n)).take n

variable {key} {rows order : List α} {n : ℕ}

/-! ### One boundary -/

/-- The elements of an order with greater or equal keys are the ones above and the tied
ones. -/
theorem above_add_tied (a : α) :
  above key rows a + tied key rows a = rows.countP (fun b => key a ≤ key b)
  := by
  rw [above, tied]
  induction rows with
  | nil => rfl
  | cons b rows ih =>
      rw [List.countP_cons, List.countP_cons, List.countP_cons, ← ih]
      rcases lt_trichotomy (key a) (key b) with h | h | h
      · simp [h, h.le, h.ne']
        omega
      · simp [h]
        omega
      · simp [h.not_gt, h.not_ge, h.ne]

/-- An element is not above itself. -/
theorem above_lt_length {a : α} (h : a ∈ rows) :
  above key rows a < rows.length
  := by
  refine lt_of_le_of_ne List.countP_le_length ?_
  rw [above, ne_eq, List.countP_eq_length]
  intro hall
  simpa using hall a h

namespace Descending

/-- Elements before a boundary have keys at least those after it. -/
theorem le_of_mem (h : Descending key rows order) {b : ℕ} {x y : α} (hx : x ∈ order.take b)
    (hy : y ∈ order.drop b) :
  key y ≤ key x
  := by
  have hsorted := h.sorted
  rw [← List.take_append_drop b order, List.pairwise_append] at hsorted
  apply hsorted.2.2 x hx y hy

/-- The counts of the elements before a boundary and of those after it. -/
theorem countP_eq (h : Descending key rows order) (p : α → Bool) (b : ℕ) :
  rows.countP p = (order.take b).countP p + (order.drop b).countP p
  := by
  rw [← List.countP_append, List.take_append_drop, h.perm.countP_eq]

/-- An element before a boundary has fewer elements above it. -/
theorem above_lt (h : Descending key rows order) {b : ℕ} {x : α} (hx : x ∈ order.take b) :
  above key rows x < b
  := by
  have hafter : (order.drop b).countP (fun y => key x < key y) = 0 := by
    rw [List.countP_eq_zero]
    intro y hy
    simpa using h.le_of_mem hx hy
  have hbefore : (order.take b).countP (fun y => key x < key y) < (order.take b).length :=
    above_lt_length hx
  have hlength : (order.take b).length ≤ b := List.length_take_le b order
  rw [above, h.countP_eq _ b]
  omega

/-- The group of an element after a boundary ends after it. -/
theorem lt_above_add_tied (h : Descending key rows order) {b : ℕ} {y : α}
    (hy : y ∈ order.drop b) :
  b < above key rows y + tied key rows y
  := by
  have hbefore : (order.take b).countP (fun x => key y ≤ key x) = (order.take b).length := by
    rw [List.countP_eq_length]
    intro x hx
    simpa using h.le_of_mem hx hy
  have hafter : 0 < (order.drop b).countP (fun x => key y ≤ key x) := by
    rw [List.countP_pos_iff]
    exact ⟨y, hy, by simp⟩
  have hlength : b < order.length := by
    by_contra hle
    rw [List.drop_eq_nil_of_le (by omega)] at hy
    cases hy
  rw [above_add_tied, h.countP_eq _ b, hbefore, List.length_take]
  omega

/-- The elements before a boundary that splits no group do not depend on the order. -/
theorem take_perm (h : Descending key rows order) {b : ℕ} (hb : ¬ Splits key rows b) :
  (order.take b).Perm (rows.filter (fun a => above key rows a < b))
  := by
  have hbefore : (order.take b).filter (fun a => above key rows a < b) = order.take b := by
    rw [List.filter_eq_self]
    intro x hx
    simpa using h.above_lt hx
  have hafter : (order.drop b).filter (fun a => above key rows a < b) = [] := by
    rw [List.filter_eq_nil_iff]
    intro y hy habove
    apply hb
    have hmem : y ∈ rows := h.perm.mem_iff.mp (List.mem_of_mem_drop hy)
    exact ⟨y, hmem, by simpa using habove, h.lt_above_add_tied hy⟩
  have hsplit : order.filter (fun a => above key rows a < b) = order.take b := by
    conv_lhs => rw [← List.take_append_drop b order]
    rw [List.filter_append, hbefore, hafter, List.append_nil]
  rw [← hsplit]
  apply h.perm.filter _

end Descending

/-! ### All pages -/

/-- The first pages of one order are its first elements. -/
theorem flatMap_page (order : List α) (n K : ℕ) :
  (List.range K).flatMap (page order n) = order.take (K * n)
  := by
  induction K with
  | zero => simp
  | succ K ih =>
      rw [List.range_succ, List.flatMap_append, ih, List.flatMap_singleton, page, Nat.add_mul,
        Nat.one_mul,
        List.take_add]

/-- The first pages, each of an order of its own, are the first elements, when no boundary
splits a group. -/
theorem flatMap_page_perm {orders : ℕ → List α} (horders : ∀ k, Descending key rows (orders k))
    (hsplits : ∀ k, ¬ Splits key rows (k * n)) (K : ℕ) :
  ((List.range K).flatMap (fun k => page (orders k) n k)).Perm
    (rows.filter (fun a => above key rows a < K * n))
  := by
  induction K with
  | zero => simp
  | succ K ih =>
      have hpages : (orders K).take ((K + 1) * n) =
          (orders K).take (K * n) ++ page (orders K) n K := by
        rw [page, Nat.add_mul,
        Nat.one_mul, List.take_add]
      have hfirst : ((List.range K).flatMap (fun k => page (orders k) n k)).Perm
          ((orders K).take (K * n)) :=
        ih.trans ((horders K).take_perm (hsplits K)).symm
      rw [List.range_succ, List.flatMap_append, List.flatMap_singleton]
      refine (hfirst.append_right _).trans ?_
      rw [← hpages]
      exact (horders K).take_perm (hsplits (K + 1))

/-- Around a boundary that splits a group stand two elements with equal keys. -/
theorem Descending.exists_of_splits (h : Descending key rows order) {b : ℕ}
    (hb : Splits key rows b) :
  ∃ l x y r, order = l ++ x :: y :: r ∧ l.length + 1 = b ∧ key x = key y
  := by
  obtain ⟨a, -, habove, htied⟩ := hb
  rw [above_add_tied] at htied
  have hbefore : ∃ x ∈ order.take b, key x ≤ key a := by
    by_contra! hall
    have hcount : (order.take b).countP (fun x => key a < key x) = (order.take b).length := by
      rw [List.countP_eq_length]
      intro x hx
      simpa using hall x hx
    have hlength : rows.countP (fun y => key a ≤ key y) ≤ order.length :=
      h.perm.length_eq ▸ List.countP_le_length
    rw [above, h.countP_eq _ b, hcount, List.length_take] at habove
    omega
  have hafter : ∃ y ∈ order.drop b, key a ≤ key y := by
    by_contra! hall
    have hcount : (order.drop b).countP (fun y => key a ≤ key y) = 0 := by
      rw [List.countP_eq_zero]
      intro y hy
      simpa using hall y hy
    have hlength : (order.take b).countP (fun y => key a ≤ key y) ≤ b :=
      List.countP_le_length.trans (List.length_take_le b order)
    rw [h.countP_eq _ b, hcount] at htied
    omega
  obtain ⟨x₀, hx₀, hxa⟩ := hbefore
  obtain ⟨y₀, hy₀, hay⟩ := hafter
  obtain ⟨l, x, htake⟩ :=
    (List.eq_nil_or_concat' (order.take b)).resolve_left (List.ne_nil_of_mem hx₀)
  obtain ⟨y, r, hdrop⟩ := List.exists_cons_of_ne_nil (List.ne_nil_of_mem hy₀)
  have hsorted := h.sorted
  have horder : order = l ++ x :: y :: r := by
    rw [← List.take_append_drop b order, htake, hdrop, List.append_assoc]
    rfl
  rw [← List.take_append_drop b order, List.pairwise_append] at hsorted
  obtain ⟨hl, hr, hlr⟩ := hsorted
  have hx : key x ≤ key x₀ := by
    rw [htake, List.pairwise_append] at hl
    rw [htake, List.mem_append, List.mem_singleton] at hx₀
    rcases hx₀ with hmem | rfl
    · apply hl.2.2 x₀ hmem x (List.mem_singleton_self x)
    · apply le_rfl
  have hy : key y₀ ≤ key y := by
    rw [hdrop, List.pairwise_cons] at hr
    rw [hdrop, List.mem_cons] at hy₀
    rcases hy₀ with rfl | hmem
    · apply le_rfl
    · apply hr.1 y₀ hmem
  have hlength : (order.take b).length = l.length + 1 := by rw [htake]; simp
  refine ⟨l, x, y, r, horder, ?_, ?_⟩
  · have hb : b < order.length := by
      by_contra hle
      rw [List.drop_eq_nil_of_le (by omega)] at hy₀
      cases hy₀
    rw [List.length_take] at hlength
    omega
  · apply le_antisymm (hx.trans (hxa.trans (hay.trans hy)))
      (hlr x (by rw [htake]; simp) y (by rw [hdrop]; simp))

/-- Two neighbours with equal keys can be exchanged. -/
theorem Descending.exchange {l r : List α} {x y : α}
    (h : Descending key rows (l ++ x :: y :: r)) (hxy : key x = key y) :
  Descending key rows (l ++ y :: x :: r)
  where
  perm := (List.Perm.append_left l (List.Perm.swap x y r)).trans h.perm
  sorted := by
    have hsorted := h.sorted
    simp only [List.pairwise_append, List.pairwise_cons, List.mem_cons, forall_eq_or_imp]
      at hsorted ⊢
    grind

/-- The elements in some order that puts greater keys first. -/
theorem exists_descending (key : α → β) (rows : List α) : ∃ order, Descending key rows order := by
  refine ⟨rows.mergeSort (fun a b => key b ≤ key a), List.mergeSort_perm .., ?_⟩
  have hsorted := @List.pairwise_mergeSort α (fun a b => decide (key b ≤ key a))
    (by grind) (by grind) rows
  simpa using hsorted

/-- When a boundary splits a group, some orders give an element twice. -/
theorem exists_orders_of_splits {k : ℕ} (hk : Splits key rows (k * n)) :
  ∃ orders : ℕ → List α, (∀ j, Descending key rows (orders j)) ∧
    ∀ K, k < K → ¬ ((List.range K).flatMap (fun j => page (orders j) n j)).Nodup
  := by
  obtain ⟨order, horder⟩ := exists_descending key rows
  obtain ⟨l, x, y, r, rfl, hlength, hxy⟩ := horder.exists_of_splits hk
  use fun j => if j < k then l ++ x :: y :: r else l ++ y :: x :: r
  constructor
  · intro j
    split
    · apply horder
    · apply horder.exchange hxy
  · intro K hK hnodup
    have hfirst : (List.range (k + 1)).Sublist (List.range K) := List.range_sublist.mpr hK
    have hpages := (hfirst.flatMap _).nodup hnodup
    rw [List.range_succ, List.flatMap_append, List.flatMap_singleton] at hpages
    -- the last element before the boundary is the first one on the page after it
    have hbefore : x ∈ (List.range k).flatMap
        (fun j => page (if j < k then l ++ x :: y :: r else l ++ y :: x :: r) n j) := by
      have hcongr : (List.range k).flatMap
          (fun j => page (if j < k then l ++ x :: y :: r else l ++ y :: x :: r) n j) =
            (List.range k).flatMap (page (l ++ [x] ++ y :: r) n) := by
        apply List.flatMap_congr
        intro j hj
        rw [if_pos (List.mem_range.mp hj), List.append_assoc]
        rfl
      rw [hcongr, flatMap_page, List.take_left' (by simpa using hlength)]
      simp
    have hafter : x ∈ page (if k < k then l ++ x :: y :: r else l ++ y :: x :: r) n k := by
      have happend : l ++ y :: x :: r = l ++ [y] ++ x :: r := by simp
      have hn : n ≠ 0 := by
        rintro rfl
        omega
      rw [if_neg (lt_irrefl k), page, happend, List.drop_left' (by simpa using hlength)]
      cases n with
      | zero => exact absurd rfl hn
      | succ n => simp
    apply (List.disjoint_of_nodup_append hpages) hbefore hafter

/-- The pages put together are the elements, whatever orders they are taken from, exactly
when no page boundary splits a group of equal keys. -/
theorem forall_flatMap_page_perm_iff (hrows : rows.Nodup) (hn : 1 ≤ n) :
  (∀ orders : ℕ → List α, (∀ k, Descending key rows (orders k)) →
    ∀ K, rows.length ≤ K * n → ((List.range K).flatMap (fun k => page (orders k) n k)).Perm rows)
  ↔ ∀ k, ¬ Splits key rows (k * n)
  := by
  constructor
  · intro hall k hk
    obtain ⟨orders, horders, htwice⟩ := exists_orders_of_splits hk
    have hK : rows.length ≤ (k + 1 + rows.length) * n := by
      have := Nat.mul_le_mul (Nat.le_add_left rows.length (k + 1)) hn
      omega
    have hperm := hall orders horders (k + 1 + rows.length) hK
    apply htwice _ (by omega) (hperm.nodup_iff.mpr hrows)
  · intro hsplits orders horders K hK
    have hperm := flatMap_page_perm horders hsplits K
    have hall : rows.filter (fun a => above key rows a < K * n) = rows := by
      rw [List.filter_eq_self]
      intro a ha
      simpa using (above_lt_length ha).trans_le hK
    rwa [hall] at hperm

end Pages
