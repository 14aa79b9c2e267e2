import GeoPolicy.Text.Numeral
import GeoPolicy.Text.Utf8
import GeoPolicy.Yaml.Mark
import GeoPolicy.Yaml.Token

/-!
# Anchors, tags and directives of YAML

## Main definitions

* `Yaml.readName?` — the name of an anchor or an alias.
* `Yaml.readTag?` — a tag, as a handle and a suffix.
* `Yaml.readDirective?` — a line that says how to read a document.
-/

namespace GeoPolicy

namespace Yaml

/-- The word characters at the start of a text, and what follows. -/
def readWord (s : List Mark) : List Char × List Mark :=
  (charsOf (s.takeWhile (isWord ·.char)), s.dropWhile (isWord ·.char))

/-- The name of an anchor or an alias, whose mark has been read. A gap or one of a few indicators
has to follow. -/
def readName? (s : List Mark) : Option (String × List Mark) :=
  let (name, rest) := readWord s
  if name ≠ [] ∧ (atGap rest ∨ atAny ['?', ':', ',', ']', '\x7d', '%', '@', '\x60'] rest) then
    some (String.ofList name, rest)
  else
    none

/-! ## Tags -/

/-- The characters of tags beside word characters. -/
def tagChars : List Char :=
  [';', '/', '?', ':', '@', '&', '=', '+', '$', '.', '!', '~', '*', '\'', '(', ')']

/-- The characters that a tag may have only between angle brackets. -/
def verbatimChars : List Char := [',', '[', ']']

/-- The number of bytes that a character takes in UTF-8, told from its first byte. -/
def width? (b : Nat) : Option Nat :=
  if b < 0x80 then some 1
  else if b / 32 = 6 then some 2
  else if b / 16 = 14 then some 3
  else if b / 8 = 30 then some 4
  else none

/-- The characters of a tag that are escaped as bytes, and the others. `owed` counts the bytes
that the current character still lacks. -/
def readTagBytes? (isVerbatim : Bool) (owed : Nat) : List Mark → Option (Tag × List Mark)
  | [] => if owed = 0 then some ([], []) else none
  | m :: rest =>
    if m.char = '%' then
      match rest with
      | a :: b :: after => do
        let byte ← Text.readHex? 0 [a.char, b.char]
        let owed ← if owed = 0 then (· - 1) <$> width? byte
          else if byte / 64 = 2 then some (owed - 1) else none
        let (bytes, after) ← readTagBytes? isVerbatim owed after
        return (UInt8.ofNat byte :: bytes, after)
      | _ => none
    else if owed ≠ 0 then none
    else if isWord m.char || tagChars.contains m.char ||
        (isVerbatim && verbatimChars.contains m.char) then do
      let (bytes, after) ← readTagBytes? isVerbatim 0 rest
      return (Utf8.encode (String.singleton m.char) ++ bytes, after)
    else some ([], m :: rest)

/-- A tag up to its first zero byte, which ends it wherever it stands. -/
def cutTag (bytes : Tag) : Tag :=
  bytes.takeWhile (· ≠ 0)

/-- The bytes of a tag that has to have some, and what follows. -/
def readSomeTag? (isVerbatim : Bool) (s : List Mark) : Option (Tag × List Mark) := do
  let (bytes, rest) ← readTagBytes? isVerbatim 0 s
  if bytes = [] then none else some (cutTag bytes, rest)

/-- A handle at the start of a text: `!`, word characters, and perhaps another `!`. -/
def readHandle? : List Mark → Option (List Char × List Mark)
  | m :: rest =>
    if m.char = '!' then
      let (name, rest) := readWord rest
      match rest with
      | n :: after => if n.char = '!' then some ('!' :: name ++ ['!'], after)
          else some ('!' :: name, rest)
      | [] => some ('!' :: name, [])
    else none
  | [] => none

/-- Whether the text of a handle is that of a named one. -/
def isNamed (handle : List Char) : Bool :=
  1 < handle.length && handle.getLast? == some '!'

/-- A tag as a handle and a suffix: `!<suffix>`, `!name!suffix`, `!suffix`, or `!` alone. A gap
has to follow, or a comma inside brackets. -/
def readTag? (isFlow : Bool) (s : List Mark) : Option (Token × List Mark) := do
  let (token, rest) ← match s with
    | _ :: m :: after =>
      if m.char = '<' then do
        let (suffix, rest) ← readSomeTag? true after
        match rest with
        | n :: rest => if n.char = '>' then some (Token.tag "" suffix, rest) else none
        | [] => none
      else readShort? s
    | _ => readShort? s
  if atGap rest || (isFlow && atChar ',' rest) then some (token, rest) else none
where
  /-- A tag that is not between angle brackets. -/
  readShort? (s : List Mark) : Option (Token × List Mark) := do
    let (handle, rest) ← readHandle? s
    if isNamed handle then
      let (suffix, rest) ← readSomeTag? false rest
      return (.tag (String.ofList handle) suffix, rest)
    else
      let (bytes, rest) ← readTagBytes? false 0 rest
      let suffix := cutTag (Utf8.encode (String.ofList (handle.drop 1)) ++ bytes)
      return (if suffix = [] then .tag "" (Utf8.encode "!") else .tag "!" suffix, rest)

/-! ## Directives -/

/-- A number of one to nine digits. -/
def readVersionNumber? (s : List Mark) : Option (Nat × List Mark) :=
  let digits := s.takeWhile (·.char.isDigit)
  if digits.length ≤ 9 then
    (Text.readDecimal? (charsOf digits)).map (·, s.dropWhile (·.char.isDigit))
  else
    none

/-- The two numbers of a version, with a point between them. -/
def readVersion? (s : List Mark) : Option (Token × List Mark) := do
  let (major, s) ← readVersionNumber? s
  match s with
  | m :: s =>
    if m.char = '.' then
      let (minor, s) ← readVersionNumber? s
      return (.versionDirective major minor, s)
    else none
  | [] => none

/-- A handle and the start of the tags that it is short for, with a blank between them. -/
def readShorthand? (s : List Mark) : Option (Token × List Mark) := do
  let (handle, s) ← readHandle? s
  if (handle = ['!'] ∨ isNamed handle) ∧ !s.isEmpty ∧ s.head?.any (isBlank ·.char) then
    let (start, s) ← readSomeTag? true (skipBlanks s)
    if atGap s then some (.tagDirective (String.ofList handle) start, s) else none
  else
    none

/-- A directive whose mark has been read, to the end of its line. -/
def readDirective? (s : List Mark) : Option (Token × List Mark) := do
  let (name, s) := readWord s
  if !atGap s then none
  else
    let (token, s) ←
      if name = "YAML".toList then readVersion? (skipBlanks s)
      else if name = "TAG".toList then readShorthand? (skipBlanks s)
      else none
    return (token, ← skipLineEnd? s)

end Yaml

end GeoPolicy
