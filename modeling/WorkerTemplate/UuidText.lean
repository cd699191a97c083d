import Mathlib.Data.List.Basic
import Mathlib.Tactic.Ring
import WorkerTemplate.Text

/-!
# The text of a UUID

The text of every UUID reads back as the UUID.  Reading deletes prefixes, braces and
hyphens, of which the text has only the hyphens, and reads the hexadecimal digits that
are left.
-/

namespace WorkerTemplate

namespace Text

/-! ### Hexadecimal digits -/

/-- What reading a UUID relies on of its digits: each is the digit of its value, and none is
a character that reading replaces or treats apart. -/
structure IsDigit (c : Char) : Prop where
  value : ∃ v, hexDigitValue c = some v ∧ v < 16
  apart : c ∉ ['u', '{', '}', '-', '+', 'x', 'X', '_']
  ascii : toAscii c = c
  space : isSpace c = false

theorem isDigit_hexDigit : ∀ d, d < 16 →
    hexDigitValue (hexDigit d) = some d ∧
      hexDigit d ∉ ['u', '{', '}', '-', '+', 'x', 'X', '_'] ∧
      toAscii (hexDigit d) = hexDigit d ∧ isSpace (hexDigit d) = false
  := by decide

/-- The digits of a number are digits. -/
theorem isDigit_of_mem_hexDigits {k n : ℕ} {c : Char} (h : c ∈ hexDigits k n) :
  IsDigit c
  := by
  induction k generalizing n with
  | zero => cases h
  | succ k ih =>
      rw [hexDigits, List.mem_append, List.mem_singleton] at h
      rcases h with h | rfl
      · apply ih h
      · obtain ⟨hvalue, hapart, hascii, hspace⟩ :=
          isDigit_hexDigit (n % 16) (Nat.mod_lt _ (by omega))
        constructor
        · use n % 16, hvalue
          apply Nat.mod_lt
          omega
        · apply hapart
        · apply hascii
        · apply hspace

@[simp]
theorem length_hexDigits (k n : ℕ) :
  (hexDigits k n).length = k
  := by
  induction k generalizing n with
  | zero => rfl
  | succ k ih => rw [hexDigits, List.length_append, ih, List.length_singleton]

/-- The value of digits after the number `value`, digit by digit. -/
def foldDigits (value : ℕ) (t : Text) : ℕ :=
  t.foldl (fun value c => 16 * value + (hexDigitValue c).getD 0) value

/-- Digits are read one by one. -/
theorem hexDigitsValue_of_isDigit {t : Text} (h : ∀ c ∈ t, IsDigit c) (value : ℕ) :
  hexDigitsValue value t = some (foldDigits value t)
  := by
  induction t generalizing value with
  | nil => rfl
  | cons c t ih =>
      obtain ⟨v, hv, -⟩ := (h c (List.mem_cons_self ..)).value
      have hrest := ih (fun d hd => h d (List.mem_cons_of_mem c hd)) (16 * value + v)
      cases t with
      | nil =>
          rw [hexDigitsValue, hv, foldDigits, List.foldl_cons, hv]
          rfl
      | cons d t =>
          have hd : d ≠ '_' := by
            have hapart := (h d (by simp)).apart
            rintro rfl
            simp at hapart
          rw [hexDigitsValue, hv]
          · rw [foldDigits, List.foldl_cons, hv]
            apply hrest
          · simp
          · simp [hd]

/-- The digits of a number denote the number. -/
theorem foldDigits_hexDigits (k n value : ℕ) :
  foldDigits value (hexDigits k n) = 16 ^ k * value + n % 16 ^ k
  := by
  induction k generalizing n value with
  | zero =>
      rw [pow_zero, Nat.mod_one, one_mul, add_zero]
      rfl
  | succ k ih =>
      obtain ⟨hvalue, -⟩ := isDigit_hexDigit (n % 16) (Nat.mod_lt _ (by omega))
      have hfold := ih (n / 16) value
      rw [foldDigits] at hfold ⊢
      rw [hexDigits, List.foldl_append, hfold, List.foldl_cons, List.foldl_nil, hvalue,
        Option.getD_some]
      have hsplit : n % 16 ^ (k + 1) = 16 * (n / 16 % 16 ^ k) + n % 16 := by
        rw [pow_succ', Nat.mod_mul]
        omega
      rw [hsplit, pow_succ]
      ring

/-! ### Reading -/

/-- Nothing is deleted from a text without the first character of the pattern. -/
theorem deleteAll_of_not_mem {c : Char} (pattern : Text) {t : Text} (h : c ∉ t) :
  deleteAll (c :: pattern) 0 t = t
  := by
  induction t with
  | nil => rfl
  | cons d t ih =>
      have hne : c ≠ d := by
        rintro rfl
        apply h
        apply List.mem_cons_self
      have hrest : c ∉ t := fun hc => h (List.mem_cons_of_mem d hc)
      rw [deleteAll, if_neg (by simp [hne]), ih hrest]

/-- Nothing is stripped from a text without the characters to strip. -/
theorem stripWhile_of_forall {p : Char → Bool} {t : Text} (h : ∀ c ∈ t, p c = false) :
  t.stripWhile p = t
  := by
  have hdrop (u : Text) (hu : ∀ c ∈ u, p c = false) : u.dropWhile p = u := by
    cases u with
    | nil => rfl
    | cons c u => simp [hu c (List.mem_cons_self ..)]
  rw [stripWhile, hdrop t h, hdrop, List.reverse_reverse]
  intro c hc
  apply h c (List.mem_reverse.mp hc)

/-- The ASCII white space is white space. -/
theorem isAsciiSpace_of_isSpace {c : Char} (h : isSpace c = false) :
  isAsciiSpace c = false
  := by
  simp only [isSpace, isAsciiSpace, Bool.or_eq_false_iff, Bool.and_eq_false_iff,
    decide_eq_false_iff_not, beq_eq_false_iff_ne] at h ⊢
  omega

/-- Digits have no sign and no mark of the base, and denote their value. -/
theorem intOfHex_of_isDigit {t : Text} (h : ∀ c ∈ t, IsDigit c) (hne : t ≠ []) :
  intOfHex t = some (foldDigits 0 t : ℤ)
  := by
  have hascii : t.map toAscii = t := by
    nth_rewrite 2 [← List.map_id t]
    apply List.map_congr_left
    intro c hc
    apply (h c hc).ascii
  have hstrip : t.stripWhile isAsciiSpace = t :=
    stripWhile_of_forall (fun c hc => isAsciiSpace_of_isSpace (h c hc).space)
  have happart (c : Char) (hc : c ∈ t) (d : Char)
      (hd : d ∈ ['u', '{', '}', '-', '+', 'x', 'X', '_']) : c ≠ d := by
    rintro rfl
    exact (h c hc).apart hd
  have hmagnitude : hexMagnitude t = some (foldDigits 0 t) := by
    rw [← hexDigitsValue_of_isDigit h]
    unfold hexMagnitude
    split
    case h_1 => exact absurd rfl (happart 'x' (by simp) 'x' (by simp))
    case h_2 => exact absurd rfl (happart 'x' (by simp) 'x' (by simp))
    case h_3 => exact absurd rfl (happart 'X' (by simp) 'X' (by simp))
    case h_4 => exact absurd rfl (happart 'X' (by simp) 'X' (by simp))
    case h_5 => exact absurd rfl hne
    case h_6 => rfl
  rw [intOfHex, hascii, hstrip]
  split
  case h_1 => exact absurd rfl (happart '-' (by simp) '-' (by simp))
  case h_2 => exact absurd rfl (happart '+' (by simp) '+' (by simp))
  case h_3 =>
    rw [hmagnitude]
    rfl

end Text

namespace UUID

open Text

/-- The digits of a UUID with their hyphens. -/
theorem exists_text (u : UUID) :
  ∃ a b c d e, hexDigits 32 u.toNat = a ++ (b ++ (c ++ (d ++ e))) ∧
    u.text = a ++ '-' :: b ++ '-' :: c ++ '-' :: d ++ '-' :: e
  := by
  rw [text]
  generalize hexDigits 32 u.toNat = h
  refine ⟨_, _, _, _, _, ?_, rfl⟩
  have hdrop (m n : ℕ) : (h.drop m).take n ++ h.drop (m + n) = h.drop m := by
    rw [← List.drop_drop, List.take_append_drop]
  rw [hdrop 16 4, hdrop 12 4, hdrop 8 4, List.take_append_drop]

/-- Hyphens put between the parts of a text are the only characters that are new. -/
theorem mem_of_mem_hyphenated {a b c d e : Text} {x : Char}
    (h : x ∈ a ++ '-' :: b ++ '-' :: c ++ '-' :: d ++ '-' :: e) :
  x ∈ a ++ (b ++ (c ++ (d ++ e))) ∨ x = '-'
  := by
  simp only [List.mem_append, List.mem_cons] at h ⊢
  tauto

/-- The text of a UUID consists of its digits and hyphens. -/
theorem isDigit_of_mem_text (u : UUID) :
  ∀ x ∈ u.text, IsDigit x ∨ x = '-'
  := by
  intro x hx
  obtain ⟨a, b, c, d, e, hdigits, htext⟩ := u.exists_text
  rw [htext] at hx
  apply (mem_of_mem_hyphenated hx).imp_left
  rw [← hdigits]
  apply isDigit_of_mem_hexDigits

/-- Without its hyphens the text of a UUID is its 32 digits. -/
theorem filter_text (u : UUID) :
  u.text.filter (· ≠ '-') = hexDigits 32 u.toNat
  := by
  have hfilter : (hexDigits 32 u.toNat).filter (· ≠ '-') = hexDigits 32 u.toNat := by
    rw [List.filter_eq_self]
    intro c hc
    have hapart := (isDigit_of_mem_hexDigits hc).apart
    simp only [List.mem_cons, not_or] at hapart
    simpa using hapart.2.2.2.1
  obtain ⟨a, b, c, d, e, hdigits, htext⟩ := u.exists_text
  rw [hdigits] at hfilter ⊢
  rw [htext]
  simpa using hfilter

/-- Reading a UUID reads the 32 digits that are left of its text. -/
theorem ofText_eq {t digits : Text}
    (hdigits : (stripWhile (fun c => c == '{' || c == '}')
      (deleteAll "uuid:".toList 0 (deleteAll "urn:".toList 0 t))).filter (· ≠ '-') = digits)
    (hlength : digits.length = 32) :
  ofText t = (intOfHex digits).bind
    (fun n => if 0 ≤ n ∧ n < 2 ^ 128 then some (BitVec.ofInt 128 n) else none)
  := by
  subst hdigits
  exact if_neg (fun hne => hne hlength)

/-- Digits and hyphens have no prefix and no braces to delete. -/
theorem ofText_of_isDigit {t : Text} (h : ∀ c ∈ t, IsDigit c ∨ c = '-') {digits : Text}
    (hdigits : t.filter (· ≠ '-') = digits) (hlength : digits.length = 32) {n : ℕ}
    (hn : intOfHex digits = some (n : ℤ)) (hlt : n < 2 ^ 128) :
  ofText t = some (BitVec.ofInt 128 n)
  := by
  have hapart (c : Char) (hc : c ∈ ['u', '{', '}']) : c ∉ t := by
    intro hmem
    rcases h c hmem with hdigit | rfl
    · apply hdigit.apart
      simp only [List.mem_cons, List.not_mem_nil, or_false] at hc ⊢
      tauto
    · simp at hc
  have hbraces : stripWhile (fun c => c == '{' || c == '}') t = t := by
    apply stripWhile_of_forall
    intro c hc
    rw [Bool.or_eq_false_iff, beq_eq_false_iff_ne, beq_eq_false_iff_ne]
    constructor
    · rintro rfl
      apply hapart '{' (by simp) hc
    · rintro rfl
      apply hapart '}' (by simp) hc
  have hprefix (pattern : Text) : deleteAll ('u' :: pattern) 0 t = t :=
    deleteAll_of_not_mem pattern (hapart 'u' (by simp))
  have hurn : "urn:".toList = 'u' :: "rn:".toList := rfl
  have huuid : "uuid:".toList = 'u' :: "uid:".toList := rfl
  have hbound : 0 ≤ (n : ℤ) ∧ (n : ℤ) < 2 ^ 128 := by
    constructor
    · apply Int.natCast_nonneg n
    · exact_mod_cast hlt
  have hread : (stripWhile (fun c => c == '{' || c == '}')
      (deleteAll "uuid:".toList 0 (deleteAll "urn:".toList 0 t))).filter (· ≠ '-') = digits := by
    rw [hurn, huuid, hprefix, hprefix, hbraces, hdigits]
  rw [ofText_eq hread hlength, hn, Option.bind_some, if_pos hbound]

/-- The text of every UUID reads back as the UUID. -/
theorem ofText_text (u : UUID) :
  ofText u.text = some u
  := by
  have hint : intOfHex (hexDigits 32 u.toNat) = some (u.toNat : ℤ) := by
    have hpow : (16 : ℕ) ^ 32 = 2 ^ 128 := by norm_num
    rw [intOfHex_of_isDigit (fun c hc => isDigit_of_mem_hexDigits hc), foldDigits_hexDigits,
      hpow, Nat.mod_eq_of_lt u.isLt, mul_zero, zero_add]
    apply List.ne_nil_of_length_pos
    rw [length_hexDigits]
    omega
  rw [ofText_of_isDigit u.isDigit_of_mem_text u.filter_text (length_hexDigits 32 _) hint u.isLt]
  rw [BitVec.ofInt_natCast, BitVec.ofNat_toNat, BitVec.setWidth_eq]

end UUID

end WorkerTemplate
