import GeoPolicy.Json.Basic
import GeoPolicy.Text.Numeral

/-!
# Writing JSON

A value is written compactly, without any blank, or over several lines, with two spaces for each
level.

## Main definitions

* `Json.quote` — a text between quotation marks.
* `Json.compact` — a value on one line.
* `Json.pretty` — a value over several lines.
-/

namespace GeoPolicy

namespace Json

/-- A character inside quotation marks. Only the quotation mark, the backslash and control
characters are escaped. -/
def escape (c : Char) : List Char :=
  if c = '"' then ['\\', '"']
  else if c = '\\' then ['\\', '\\']
  else if c = '\x08' then ['\\', 'b']
  else if c = '\x0c' then ['\\', 'f']
  else if c = '\n' then ['\\', 'n']
  else if c = '\r' then ['\\', 'r']
  else if c = '\t' then ['\\', 't']
  else if c.toNat < 0x20 then ['\\', 'u'] ++ Text.paddedDigits 16 4 c.toNat
  else [c]

/-- A text between quotation marks. -/
def quote (s : String) : List Char :=
  ['"'] ++ s.toList.flatMap escape ++ ['"']

/-- Quoted content. Half of a surrogate pair is written as the replacement character. -/
def writeQuoted (content : Quoted) : List Char :=
  quote (content.getD "\ufffd")

mutual

/-- A value without any blank. -/
def compactChars : Json → List Char
  | null => "null".toList
  | bool true => "true".toList
  | bool false => "false".toList
  | number literal => literal.toList
  | text content => writeQuoted content
  | array elements => ['['] ++ compactElements elements ++ [']']
  | object members => ['\x7b'] ++ compactMembers members ++ ['\x7d']

/-- The elements of an array, with commas between them. -/
def compactElements : List Json → List Char
  | [] => []
  | [v] => compactChars v
  | v :: w :: rest => compactChars v ++ [','] ++ compactElements (w :: rest)

/-- The members of an object, with commas between them. -/
def compactMembers : List (Quoted × Json) → List Char
  | [] => []
  | [(key, v)] => writeQuoted key ++ [':'] ++ compactChars v
  | (key, v) :: m :: rest =>
    writeQuoted key ++ [':'] ++ compactChars v ++ [','] ++ compactMembers (m :: rest)

end

/-- A value on one line. -/
def compact (v : Json) : String :=
  String.ofList (compactChars v)

/-- The start of a line at a level. -/
def newLine (level : Nat) : List Char :=
  '\n' :: List.replicate (2 * level) ' '

mutual

/-- A value over several lines, at a level. -/
def prettyChars (level : Nat) : Json → List Char
  | null => "null".toList
  | bool true => "true".toList
  | bool false => "false".toList
  | number literal => literal.toList
  | text content => writeQuoted content
  | array [] => ['[', ']']
  | array (v :: rest) =>
    ['['] ++ prettyElements (level + 1) (v :: rest) ++ newLine level ++ [']']
  | object [] => ['\x7b', '\x7d']
  | object (m :: rest) =>
    ['\x7b'] ++ prettyMembers (level + 1) (m :: rest) ++ newLine level ++ ['\x7d']

/-- The elements of an array, each on a line of its own. -/
def prettyElements (level : Nat) : List Json → List Char
  | [] => []
  | [v] => newLine level ++ prettyChars level v
  | v :: w :: rest =>
    newLine level ++ prettyChars level v ++ [','] ++ prettyElements level (w :: rest)

/-- The members of an object, each on a line of its own. -/
def prettyMembers (level : Nat) : List (Quoted × Json) → List Char
  | [] => []
  | [(key, v)] => newLine level ++ writeQuoted key ++ [':', ' '] ++ prettyChars level v
  | (key, v) :: m :: rest =>
    newLine level ++ writeQuoted key ++ [':', ' '] ++ prettyChars level v ++ [','] ++
      prettyMembers level (m :: rest)

end

/-- A value over several lines. -/
def pretty (v : Json) : String :=
  String.ofList (prettyChars 0 v)

end Json

end GeoPolicy
