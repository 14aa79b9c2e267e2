import GeoPolicy.Yaml.Place

/-!
# Marked characters of YAML text

The layout of YAML text carries meaning, so each character is read together with its place. All
line breaks count as one character; those that come from older systems read as a line feed.

## Main definitions

* `Yaml.Mark` — a character and its place.
* `Yaml.marks?` — the characters of a text, unless one of them is not allowed.
-/

namespace GeoPolicy

namespace Yaml

/-- A character and its place: how many bytes of UTF-8 and how many lines come before it, and how
many characters come before it on its line. -/
structure Mark where
  char : Char
  index : Nat
  line : Nat
  column : Nat
  deriving DecidableEq, Repr

/-- The place of a character. -/
def Mark.place (m : Mark) : Place where
  line := m.line
  column := m.column

/-- Whether a character may occur in YAML text. -/
def isAllowed (c : Char) : Bool :=
  let n := c.toNat
  n == 0x09 || n == 0x0A || n == 0x0D || (0x20 ≤ n && n ≤ 0x7E) || n == 0x85 ||
    (0xA0 ≤ n && n ≤ 0xFFFD) || 0x10000 ≤ n

/-- The line separator and the paragraph separator, line breaks that are kept as they are. -/
def isSeparator (c : Char) : Bool :=
  c == '\u2028' || c == '\u2029'

/-- The characters of a text from a place on. -/
def marksFrom (index line column : Nat) : List Char → List Mark
  | [] => []
  | '\r' :: '\n' :: rest => ⟨'\n', index, line, column⟩ :: marksFrom (index + 2) (line + 1) 0 rest
  | c :: rest =>
    if c = '\n' ∨ c = '\r' ∨ c = '\u0085' then
      ⟨'\n', index, line, column⟩ :: marksFrom (index + c.utf8Size) (line + 1) 0 rest
    else if isSeparator c then
      ⟨c, index, line, column⟩ :: marksFrom (index + c.utf8Size) (line + 1) 0 rest
    else
      ⟨c, index, line, column⟩ :: marksFrom (index + c.utf8Size) line (column + 1) rest

/-- The characters of a text, unless one of them is not allowed. -/
def marks? (s : String) : Option (List Mark) :=
  if s.toList.all isAllowed then some (marksFrom 0 0 0 s.toList) else none

/-! ## Classes -/

/-- Whether a character is a space or a tab. -/
def isBlank (c : Char) : Bool :=
  c == ' ' || c == '\t'

/-- Whether a character is a line break. -/
def isBreak (c : Char) : Bool :=
  c == '\n' || isSeparator c

/-- Whether a text has ended, or goes on with a blank or a line break. -/
def atGap : List Mark → Bool
  | [] => true
  | m :: _ => isBlank m.char || isBreak m.char

/-- Whether a text goes on with a given character. -/
def atChar (c : Char) : List Mark → Bool
  | [] => false
  | m :: _ => m.char == c

/-- Whether a text goes on with one of given characters. -/
def atAny (allowed : List Char) : List Mark → Bool
  | [] => false
  | m :: _ => allowed.contains m.char

/-- Whether a character may stand in names. -/
def isWord (c : Char) : Bool :=
  c.isAlphanum || c == '_' || c == '-'

/-- Whether a text goes on with three equal marks at the start of a line and then a gap. -/
def atTriple (c : Char) : List Mark → Bool
  | m :: n :: o :: rest =>
    m.column == 0 && m.char == c && n.char == c && o.char == c && atGap rest
  | _ => false

/-- Whether a line that starts or ends a document follows. -/
def atDocumentMark (s : List Mark) : Bool :=
  atTriple '-' s || atTriple '.' s

/-- A text without the blanks at its start. -/
def skipBlanks (s : List Mark) : List Mark :=
  s.dropWhile (isBlank ·.char)

/-- The rest of a line: blanks, a comment, and the line break. Nothing else may stand there. -/
def skipLineEnd? (s : List Mark) : Option (List Mark) :=
  let s := skipBlanks s
  let s := if atChar '#' s then s.dropWhile (!isBreak ·.char) else s
  match s with
  | [] => some []
  | m :: rest => if isBreak m.char then some rest else none

/-- The characters of marks. -/
def charsOf (s : List Mark) : List Char :=
  s.map (·.char)

end Yaml

end GeoPolicy
