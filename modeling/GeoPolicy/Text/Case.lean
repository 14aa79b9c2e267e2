import GeoPolicy.Text.Case.Table

/-!
# Upper and lower case

`upper` is full upper casing: a letter may become several characters, so that `ß` is written `SS`
and `ﬁ` is written `FI`. Names made of ASCII letters are compared after `asciiUpper` or
`asciiLower`, which change the letters of ASCII alone.

## Main definitions

* `Text.upper` — a text in upper case.
* `Text.asciiUpper`, `Text.asciiLower` — a text with its ASCII letters in one case.
-/

namespace GeoPolicy

namespace Text

/-! ## ASCII letters -/

theorem isUpper_iff_toNat (c : Char) : c.isUpper = true ↔ 65 ≤ c.toNat ∧ c.toNat ≤ 90 :=
  decide_eq_true_iff

/-- A string with the ASCII letters in upper case. -/
def asciiUpper (s : String) : String :=
  String.ofList (s.toList.map Char.toUpper)

/-- A string with the ASCII letters in lower case. -/
def asciiLower (s : String) : String :=
  String.ofList (s.toList.map Char.toLower)

/-! ## All letters -/

namespace Case

/-- The capital that a run gives to a code point, if the code point belongs to the run. -/
def Run.capital? (r : Run) (n : Nat) : Option Nat :=
  if r.first ≤ n ∧ n ≤ r.last ∧ (n - r.first) % r.step = 0 then
    some (r.capital + (n - r.first))
  else
    none

/-- The upper case of a code point outside ASCII. -/
def upperCodes (n : Nat) : List Nat :=
  match expansions.lookup n with
  | some codes => codes
  | none => [(runs.findSome? (·.capital? n)).getD n]

end Case

/-- The upper case of one character. -/
def upperChar (c : Char) : List Char :=
  if c.toNat < 128 then [c.toUpper] else (Case.upperCodes c.toNat).map Char.ofNat

/-- A text in upper case, letter by letter. -/
def upper (s : List Char) : List Char :=
  s.flatMap upperChar

end Text

end GeoPolicy
