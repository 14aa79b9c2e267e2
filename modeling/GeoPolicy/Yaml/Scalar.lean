import GeoPolicy.Text.Numeral
import GeoPolicy.Yaml.Mark
import GeoPolicy.Yaml.Token

/-!
# Scalars of YAML

The three ways to write a scalar: plain, between quotation marks, and as an indented block. Where
a plain or quoted scalar runs over several lines, the lines are folded.

## Main definitions

* `Yaml.Gap` — blanks and line breaks between two words.
* `Yaml.readPlain?`, `Yaml.readQuoted?`, `Yaml.readBlock?` — the three readings. Each gives the
  text and what follows the scalar.
-/

namespace GeoPolicy

namespace Yaml

/-! ## Gaps -/

/-- The blanks and line breaks since the last word, the last one first. A first line break that is
escaped leaves nothing of itself. -/
structure Gap where
  blanks : List Char := []
  firstBreak : Option (List Char) := none
  moreBreaks : List Char := []
  deriving DecidableEq, Repr

namespace Gap

/-- The gap without any character. -/
def empty : Gap := {}

/-- Whether the gap reaches over a line break. -/
def hasBreak (g : Gap) : Bool :=
  g.firstBreak.isSome

/-- Whether the gap has any character. -/
def isEmpty (g : Gap) : Bool :=
  g.blanks.isEmpty && !g.hasBreak

/-- The gap with one more blank. Blanks after a line break do not count. -/
def addBlank (g : Gap) (c : Char) : Gap :=
  if g.hasBreak then g else { g with blanks := c :: g.blanks }

/-- The gap with one more line break. Blanks before it do not count. -/
def addBreak (g : Gap) (c : Char) : Gap :=
  if g.hasBreak then { g with moreBreaks := c :: g.moreBreaks }
  else { blanks := [], firstBreak := some [c], moreBreaks := [] }

/-- What a gap leaves in the text, the last character first. A single line feed becomes a space,
and several lose the first one. -/
def folded (g : Gap) : List Char :=
  match g.firstBreak with
  | none => g.blanks
  | some ['\n'] => if g.moreBreaks.isEmpty then [' '] else g.moreBreaks
  | some first => g.moreBreaks ++ first

end Gap

/-! ## Plain scalars -/

/-- The characters that end a plain scalar inside brackets. -/
def flowIndicators : List Char := [',', '[', ']', '\x7b', '\x7d']

/-- The rest of a plain scalar, after the text so far with its last character first, and the gap
since then. `isFlow` tells whether it stands inside brackets; elsewhere its lines are indented to
`indent` at least. The flag in the result tells whether a line break came last. -/
def readPlainFrom? (isFlow : Bool) (indent : Int) (text : List Char) (gap : Gap) :
    List Mark → Option (List Char × Bool × List Mark)
  | [] => some (text.reverse, gap.hasBreak, [])
  | m :: rest =>
    if isBlank m.char then
      if gap.hasBreak ∧ m.column < indent ∧ m.char = '\t' then none
      else readPlainFrom? isFlow indent text (gap.addBlank m.char) rest
    else if isBreak m.char then
      readPlainFrom? isFlow indent text (gap.addBreak m.char) rest
    else if !gap.isEmpty &&
        ((!isFlow && decide (m.column < indent)) || atDocumentMark (m :: rest) ||
          m.char == '#') then
      some (text.reverse, gap.hasBreak, m :: rest)
    else if isFlow && m.char == ':' && atAny ('?' :: flowIndicators) rest then
      none
    else if (m.char == ':' && atGap rest) || (isFlow && flowIndicators.contains m.char) then
      some (text.reverse, gap.hasBreak, m :: rest)
    else
      readPlainFrom? isFlow indent (m.char :: gap.folded ++ text) .empty rest

/-- A plain scalar at the start of a text. -/
def readPlain? (isFlow : Bool) (indent : Int) (s : List Mark) :
    Option (List Char × Bool × List Mark) :=
  readPlainFrom? isFlow indent [] .empty s

/-! ## Quoted scalars -/

/-- The character that a one-letter escape stands for. -/
def escaped? : Char → Option Char
  | '0' => some '\x00'
  | 'a' => some '\x07'
  | 'b' => some '\x08'
  | 't' | '\t' => some '\t'
  | 'n' => some '\n'
  | 'v' => some '\x0b'
  | 'f' => some '\x0c'
  | 'r' => some '\r'
  | 'e' => some '\x1b'
  | ' ' => some ' '
  | '"' => some '"'
  | '/' => some '/'
  | '\\' => some '\\'
  | 'N' => some '\u0085'
  | '_' => some '\u00a0'
  | 'L' => some '\u2028'
  | 'P' => some '\u2029'
  | _ => none

/-- The number of hexadecimal digits after the letter of an escape by code point. -/
def codeLength? : Char → Option Nat
  | 'x' => some 2
  | 'u' => some 4
  | 'U' => some 8
  | _ => none

/-- An escape whose backslash has been read: the character it stands for, and what follows. -/
def readEscape? : List Mark → Option (Char × List Mark)
  | [] => none
  | m :: rest =>
    match codeLength? m.char with
    | none => (escaped? m.char).map (·, rest)
    | some count => do
      if rest.length < count then none
      else
        let value ← Text.readHex? 0 (charsOf (rest.take count))
        if value.isValidChar then some (Char.ofNat value, rest.drop count) else none

theorem length_readEscape? {s t : List Mark} {c : Char} (h : readEscape? s = some (c, t)) :
    t.length < s.length := by
  cases s with
  | nil => simp [readEscape?] at h
  | cons m rest =>
    simp only [readEscape?] at h
    split at h
    · obtain ⟨_, _, h⟩ := Option.map_eq_some_iff.1 h
      cases h
      simp
    · split at h
      · cases h
      · obtain ⟨v, _, h⟩ := Option.bind_eq_some_iff.1 h
        split at h
        · cases h
          simp only [List.length_drop, List.length_cons]
          omega
        · cases h

/-- The rest of a quoted scalar, after the text so far with its last character first, and the gap
since then. The two quotation marks differ in what may be escaped. -/
def readQuotedFrom? (isSingle : Bool) (text : List Char) (gap : Gap) (s : List Mark) :
    Option (List Char × List Mark) :=
  match s with
  | [] => none
  | m :: rest =>
    if isBlank m.char then readQuotedFrom? isSingle text (gap.addBlank m.char) rest
    else if isBreak m.char then readQuotedFrom? isSingle text (gap.addBreak m.char) rest
    else if atDocumentMark (m :: rest) then none
    else
      let text := gap.folded ++ text
      if isSingle then
        if m.char = '\'' then
          match rest with
          | [] => some (text.reverse, [])
          | n :: after =>
            if n.char = '\'' then readQuotedFrom? isSingle ('\'' :: text) .empty after
            else some (text.reverse, n :: after)
        else readQuotedFrom? isSingle (m.char :: text) .empty rest
      else if m.char = '"' then some (text.reverse, rest)
      else if m.char = '\\' then
        match rest with
        | [] => none
        | n :: after =>
          if isBreak n.char then
            readQuotedFrom? isSingle text { Gap.empty with firstBreak := some [] } after
          else
            match escape : readEscape? (n :: after) with
            | none => none
            | some (c, following) =>
              have : following.length < after.length + 1 := length_readEscape? escape
              readQuotedFrom? isSingle (c :: text) .empty following
      else readQuotedFrom? isSingle (m.char :: text) .empty rest
termination_by s.length

/-- A quoted scalar whose opening mark has been read. -/
def readQuoted? (isSingle : Bool) (s : List Mark) : Option (List Char × List Mark) :=
  readQuotedFrom? isSingle [] .empty s

/-! ## Block scalars -/

/-- What happens to the line breaks at the end of a block. -/
inductive Chomping where
  /-- All are dropped. -/
  | strip
  /-- The first one is kept. -/
  | clip
  /-- All are kept. -/
  | keep
  deriving DecidableEq, Repr

/-- The indicator of a chomping, if one is given. -/
def readChomping (s : List Mark) : Option Chomping × List Mark :=
  match s with
  | m :: rest =>
    if m.char = '+' then (some .keep, rest)
    else if m.char = '-' then (some .strip, rest)
    else (none, s)
  | [] => (none, [])

/-- The indicator of an indentation from one to nine, if one is given. -/
def readIncrement? (s : List Mark) : Option (Nat × List Mark) :=
  match s with
  | m :: rest =>
    if m.char = '0' then none
    else if m.char.isDigit then some (m.char.toNat - 48, rest)
    else some (0, s)
  | [] => some (0, [])

/-- The two indicators of a block in either order. An indentation of zero says that none is
given. -/
def readIndicators? (s : List Mark) : Option (Chomping × Nat × List Mark) :=
  match readChomping s with
  | (some chomping, s) => do
    let (increment, s) ← readIncrement? s
    return (chomping, increment, s)
  | (none, s) => do
    let (increment, s) ← readIncrement? s
    let (chomping, s) := if increment = 0 then (none, s) else readChomping s
    return (chomping.getD .clip, increment, s)

/-- Empty lines and the indentation of the line after them: the line breaks on top of those so
far, the last one first, the deepest column reached, and what follows. An indentation of zero says
that the depth is not known yet. -/
def skipIndentation? (indent deepest : Nat) (breaks : List Char) :
    List Mark → Option (List Char × Nat × List Mark)
  | [] => some (breaks, deepest, [])
  | m :: rest =>
    if (indent = 0 ∨ m.column < indent) ∧ m.char = ' ' then
      skipIndentation? indent deepest breaks rest
    else if (indent = 0 ∨ m.column < indent) ∧ m.char = '\t' then none
    else if isBreak m.char then
      skipIndentation? indent (max deepest m.column) (m.char :: breaks) rest
    else some (breaks, max deepest m.column, m :: rest)

/-- The lines of a block, after the text so far, with its last character first, its last line
break, and the empty lines since then. `wasBlank` tells whether the last line began with a blank.
At most `fuel` lines are read. -/
def readBlockLines? (isFolded : Bool) (indent : Nat) (chomping : Chomping) :
    Nat → List Char → List Char → List Char → Bool → List Mark → Option (List Char × List Mark)
  | 0, _, _, _, _, _ => none
  | fuel + 1, text, lineBreak, breaks, wasBlank, s =>
    let finish (s : List Mark) :=
      let tail := match chomping with
        | .strip => []
        | .clip => lineBreak
        | .keep => breaks ++ lineBreak
      some ((tail ++ text).reverse, s)
    match s with
    | [] => finish []
    | m :: rest =>
      if m.column ≠ indent then finish (m :: rest)
      else
        let startsBlank := isBlank m.char
        let joint :=
          if isFolded ∧ lineBreak = ['\n'] ∧ !wasBlank ∧ !startsBlank then
            if breaks.isEmpty then [' '] else []
          else lineBreak
        let line := charsOf ((m :: rest).takeWhile (!isBreak ·.char))
        let text := line.reverse ++ breaks ++ joint ++ text
        match (m :: rest).dropWhile (!isBreak ·.char) with
        | [] => readBlockLines? isFolded indent chomping fuel text [] [] startsBlank []
        | n :: after => do
          let (breaks, _, after) ← skipIndentation? indent 0 [] after
          readBlockLines? isFolded indent chomping fuel text [n.char] breaks startsBlank after

/-- A block scalar whose first mark has been read. `parent` is the indentation around it. -/
def readBlock? (isFolded : Bool) (parent : Int) (s : List Mark) :
    Option (List Char × List Mark) := do
  let (chomping, increment, s) ← readIndicators? s
  let s ← skipLineEnd? s
  let given := if increment = 0 then 0 else (max parent 0).toNat + increment
  let (breaks, deepest, s) ← skipIndentation? given 0 [] s
  let indent := if given = 0 then max deepest (max (parent + 1).toNat 1) else given
  readBlockLines? isFolded indent chomping (s.length + 1) [] [] breaks false s

end Yaml

end GeoPolicy
