import Mathlib.Data.BitVec
import Mathlib.Tactic.Common

/-!
# Texts and UUIDs

The operations on strings and UUIDs the worker takes from the Python standard library,
on lists of characters: `strip`, `split` at commas, deleting a substring, reading an
integer in base 16, and the text of a UUID and its reading.
-/

namespace WorkerTemplate

/-- A text, as its list of characters. -/
abbrev Text : Type := List Char

namespace Text

/-- The characters Python counts as whitespace. -/
def isSpace (c : Char) : Bool :=
  let n := c.toNat
  (9 ≤ n && n ≤ 13) || (28 ≤ n && n ≤ 32) || n == 0x85 || n == 0xA0 || n == 0x1680 ||
    (0x2000 ≤ n && n ≤ 0x200A) || n == 0x2028 || n == 0x2029 || n == 0x202F || n == 0x205F ||
    n == 0x3000

/-- The text without the characters satisfying `p` at its two ends. -/
def stripWhile (p : Char → Bool) (t : Text) : Text :=
  ((t.dropWhile p).reverse.dropWhile p).reverse

/-- `t.strip()`. -/
def strip (t : Text) : Text := t.stripWhile isSpace

/-- `t.split(",")`. -/
def splitComma (t : Text) : List Text := t.splitOn ','

/-- The entries of a comma-separated list that are not blank, stripped:
`{value.strip() for value in t.split(",") if value.strip()}`. -/
def entries (t : Text) : List Text :=
  (t.splitComma.map strip).filter (· ≠ [])

/-- `t.replace(pattern, "")`, for a `pattern` that is not empty; `skip` counts the
characters left of the occurrence being deleted. -/
def deleteAll (pattern : Text) : (skip : ℕ) → Text → Text
  | _, [] => []
  | skip + 1, _ :: t => deleteAll pattern skip t
  | 0, c :: t =>
      if pattern.isPrefixOf (c :: t) then deleteAll pattern (pattern.length - 1) t
      else c :: deleteAll pattern 0 t

/-- The value of a hexadecimal digit. -/
def hexDigitValue (c : Char) : Option ℕ :=
  let n := c.toNat
  if 48 ≤ n ∧ n ≤ 57 then some (n - 48)
  else if 65 ≤ n ∧ n ≤ 70 then some (n - 55)
  else if 97 ≤ n ∧ n ≤ 102 then some (n - 87)
  else none

/-- The number hexadecimal digits denote after the number `value`; between two digits
there may be one underscore. -/
def hexDigitsValue (value : ℕ) : Text → Option ℕ
  | [] => some value
  | [c] => (hexDigitValue c).map (16 * value + ·)
  | c :: '_' :: d :: t => do
      let v ← hexDigitValue c
      hexDigitsValue (16 * value + v) (d :: t)
  | c :: t => do
      let v ← hexDigitValue c
      hexDigitsValue (16 * value + v) t

/-- The digits of an integer literal in base 16 without its sign: after the mark `0x`
there may be one underscore. -/
def hexMagnitude : Text → Option ℕ
  | '0' :: 'x' :: '_' :: c :: t => hexDigitsValue 0 (c :: t)
  | '0' :: 'x' :: c :: t => hexDigitsValue 0 (c :: t)
  | '0' :: 'X' :: '_' :: c :: t => hexDigitsValue 0 (c :: t)
  | '0' :: 'X' :: c :: t => hexDigitsValue 0 (c :: t)
  | [] => none
  | c :: t => hexDigitsValue 0 (c :: t)

/-- The digits zero of the scripts of Unicode 16; the digits one to nine follow each. -/
def decimalZeros : List ℕ :=
  [0x30, 0x660, 0x6F0, 0x7C0, 0x966, 0x9E6, 0xA66, 0xAE6, 0xB66, 0xBE6, 0xC66, 0xCE6, 0xD66,
   0xDE6, 0xE50, 0xED0, 0xF20, 0x1040, 0x1090, 0x17E0, 0x1810, 0x1946, 0x19D0, 0x1A80, 0x1A90,
   0x1B50, 0x1BB0, 0x1C40, 0x1C50, 0xA620, 0xA8D0, 0xA900, 0xA9D0, 0xA9F0, 0xAA50, 0xABF0,
   0xFF10, 0x104A0, 0x10D30, 0x10D40, 0x11066, 0x110F0, 0x11136, 0x111D0, 0x112F0, 0x11450,
   0x114D0, 0x11650, 0x116C0, 0x116D0, 0x116DA, 0x11730, 0x118E0, 0x11950, 0x11BF0, 0x11C50,
   0x11D50, 0x11DA0, 0x11F50, 0x16130, 0x16A60, 0x16AC0, 0x16B50, 0x16D70, 0x1CCF0, 0x1D7CE,
   0x1D7D8, 0x1D7E2, 0x1D7EC, 0x1D7F6, 0x1E140, 0x1E2F0, 0x1E4F0, 0x1E5F1, 0x1E950, 0x1FBF0]

/-- The value of a decimal digit of any script: `unicodedata.decimal(c)`. -/
def decimalValue (c : Char) : Option ℕ :=
  (decimalZeros.find? (fun n => n ≤ c.toNat && c.toNat < n + 10)).map (c.toNat - ·)

/-- The ASCII character `int` reads for a character: a blank for white space and a digit
for a decimal digit of another script; any other character is read as one that no integer
has. -/
def toAscii (c : Char) : Char :=
  if c.toNat < 127 then c
  else if isSpace c then ' '
  else (decimalValue c).elim '?' (fun d => Char.ofNat (48 + d))

/-- The ASCII white space, which `int` skips around an integer. -/
def isAsciiSpace (c : Char) : Bool :=
  let n := c.toNat
  (9 ≤ n && n ≤ 13) || n == 32

/-- `int(t, 16)`, or `none` when it raises `ValueError`. -/
def intOfHex (t : Text) : Option ℤ :=
  match stripWhile isAsciiSpace (t.map toAscii) with
  | '-' :: u => (hexMagnitude u).map (fun n => -(n : ℤ))
  | '+' :: u => (hexMagnitude u).map (fun n => (n : ℤ))
  | u => (hexMagnitude u).map (fun n => (n : ℤ))

/-- The hexadecimal digit of a number below 16. -/
def hexDigit (n : ℕ) : Char :=
  Char.ofNat (if n < 10 then 48 + n else 87 + n)

/-- The last `k` hexadecimal digits of a number. -/
def hexDigits : ℕ → ℕ → Text
  | 0, _ => []
  | k + 1, n => hexDigits k (n / 16) ++ [hexDigit (n % 16)]

end Text

/-- A UUID. -/
abbrev UUID : Type := BitVec 128

namespace UUID

/-- `str(u)`. -/
def text (u : UUID) : Text :=
  let h := Text.hexDigits 32 u.toNat
  h.take 8 ++ '-' :: (h.drop 8).take 4 ++ '-' :: (h.drop 12).take 4 ++ '-' ::
    (h.drop 16).take 4 ++ '-' :: h.drop 20

/-- `UUID(t)`, or `none` when it raises `ValueError`. -/
def ofText (t : Text) : Option UUID := do
  let t := Text.deleteAll "uuid:".toList 0 (Text.deleteAll "urn:".toList 0 t)
  let t := (Text.stripWhile (fun c => c == '{' || c == '}') t).filter (· ≠ '-')
  if t.length ≠ 32 then none
  else
    let n ← Text.intOfHex t
    if 0 ≤ n ∧ n < 2 ^ 128 then some (BitVec.ofInt 128 n) else none

/-- The text of a UUID is read back as the UUID, with and without its hyphens. -/
example : ofText (text 0xdeadbeef) = some 0xdeadbeef := by decide

/-- Digits of another script count as digits, a separator of files does not count as blank. -/
example : ofText (List.replicate 32 '٣') = some 0x33333333333333333333333333333333 ∧
    ofText ('\u001f' :: List.replicate 31 '3') = none := by decide

end UUID

end WorkerTemplate
