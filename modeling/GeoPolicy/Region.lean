import GeoPolicy.Error

/-!
# Region codes

A region is named by two capital letters. `RegionCode.parse` finds the code in a text that a
person wrote.

## Main definitions

* `RegionCode` — two capital letters of ASCII.
* `RegionCode.parse` — the region code a person wrote.
* `RegionCode.default` — the region of a policy that names none.
-/

namespace GeoPolicy

/-- A region code: two capital letters of ASCII. -/
structure RegionCode where
  first : Char
  second : Char
  first_isUpper : first.isUpper = true := by decide
  second_isUpper : second.isUpper = true := by decide
  deriving DecidableEq, Repr

namespace RegionCode

/-- The letters of a code. -/
def chars (r : RegionCode) : List Char :=
  [r.first, r.second]

/-- The text of a code. -/
def text (r : RegionCode) : String :=
  String.ofList r.chars

/-- The code with given letters. -/
def ofChars? : List Char → Option RegionCode
  | [a, b] => if h : a.isUpper ∧ b.isUpper then some ⟨a, b, h.1, h.2⟩ else none
  | _ => none

/-- The code a person wrote, in any case, between blanks. The text is put into upper case first,
so a letter whose capital is two letters of ASCII is a code as well; a text that is no code is
quoted in upper case. -/
def parse (s : String) : Except Error RegionCode :=
  let folded := Text.upper (Text.trimChars s.toList)
  match ofChars? folded with
  | some r => .ok r
  | none => .error (.invalidRegion (String.ofList folded))

/-- The region that a policy is about when it names none. -/
def default : RegionCode where
  first := 'C'
  second := 'N'

end RegionCode

end GeoPolicy
