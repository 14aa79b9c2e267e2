/-!
# Numerals

Natural numbers are written with `Nat.toDigits`, in lower case above nine. This module adds a
fixed least width and the reading of unsigned numerals.

## Main definitions

* `Text.paddedDigits` — a numeral filled up with zeros from the left.
* `Text.hexValue?` — the value of a hexadecimal digit in either case.
* `Text.readDecimal?` — the value of a run of decimal digits.
-/

namespace GeoPolicy

namespace Text

/-- The digits of `n` in base `base`, filled up from the left with zeros to `width` digits. A
longer numeral keeps all its digits. -/
def paddedDigits (base width n : Nat) : List Char :=
  (Nat.toDigits base n).leftpad width '0'

/-- The value of a hexadecimal digit, in upper or lower case. -/
def hexValue? (c : Char) : Option Nat :=
  if c.isDigit then some (c.toNat - 48)
  else if 'a' ≤ c ∧ c ≤ 'f' then some (c.toNat - 87)
  else if 'A' ≤ c ∧ c ≤ 'F' then some (c.toNat - 55)
  else none

/-- The value of hexadecimal digits, on top of the digits read before. -/
def readHex? (before : Nat) : List Char → Option Nat
  | [] => some before
  | c :: rest => do readHex? (16 * before + (← hexValue? c)) rest

/-- The value of one or more decimal digits, and nothing where another character stands. -/
def readDecimal? (s : List Char) : Option Nat :=
  if s ≠ [] ∧ s.all Char.isDigit then some (Nat.ofDigitChars 10 s 0) else none

end Text

end GeoPolicy
