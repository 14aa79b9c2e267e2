import GeoPolicy.Json.Basic
import GeoPolicy.Text.Numeral

/-!
# Tokens of JSON

## Main definitions

* `Json.Token` — the words and marks that JSON text is made of.
* `Json.readQuoted?` — a text up to its closing quotation mark.
* `Json.readNumber?` — a number literal.
* `Json.tokens?` — the tokens of a whole text.
-/

namespace GeoPolicy

namespace Json

/-- A word or mark of JSON text. -/
inductive Token where
  | openArray
  | closeArray
  | openObject
  | closeObject
  | comma
  | colon
  | null
  | bool (value : Bool)
  | number (literal : String)
  | quoted (content : Quoted)
  deriving DecidableEq, Repr

/-! ## Quoted text -/

/-- A UTF-16 code unit that an escape named, or a character that stands for itself. -/
inductive Piece where
  | unit (value : Nat)
  | char (c : Char)
  deriving DecidableEq, Repr

/-- The text of pieces. A code unit from the upper half of a surrogate pair joins with the one
right after it; half a pair alone leaves no text. -/
def joinPieces : List Piece → Option (List Char)
  | [] => some []
  | .char c :: rest => (joinPieces rest).map (c :: ·)
  | .unit high :: .unit low :: rest =>
    if 0xD800 ≤ high ∧ high < 0xDC00 then
      if 0xDC00 ≤ low ∧ low < 0xE000 then
        (joinPieces rest).map (Char.ofNat ((high - 0xD800) * 0x400 + (low - 0xDC00) + 0x10000) :: ·)
      else none
    else if 0xDC00 ≤ high ∧ high < 0xE000 then none
    else (joinPieces (.unit low :: rest)).map (Char.ofNat high :: ·)
  | .unit value :: rest =>
    if 0xD800 ≤ value ∧ value < 0xE000 then none
    else (joinPieces rest).map (Char.ofNat value :: ·)

/-- The character that a one-letter escape stands for. -/
def escaped? : Char → Option Char
  | '"' => some '"'
  | '\\' => some '\\'
  | '/' => some '/'
  | 'b' => some '\x08'
  | 'f' => some '\x0c'
  | 'n' => some '\n'
  | 'r' => some '\r'
  | 't' => some '\t'
  | _ => none

/-- The pieces up to the closing quotation mark, and what follows it. Control characters have to
be escaped. -/
def readPieces? : List Char → Option (List Piece × List Char)
  | [] => none
  | '"' :: rest => some ([], rest)
  | '\\' :: 'u' :: a :: b :: c :: d :: rest => do
    let value ← Text.readHex? 0 [a, b, c, d]
    let (pieces, after) ← readPieces? rest
    return (.unit value :: pieces, after)
  | '\\' :: c :: rest => do
    let c ← escaped? c
    let (pieces, after) ← readPieces? rest
    return (.char c :: pieces, after)
  | c :: rest =>
    if c.toNat < 0x20 ∨ c = '\\' then none
    else do
      let (pieces, after) ← readPieces? rest
      return (.char c :: pieces, after)

/-- The content of a quoted text whose opening mark has been read, and what follows it. -/
def readQuoted? (s : List Char) : Option (Quoted × List Char) :=
  (readPieces? s).map fun (pieces, after) => ((joinPieces pieces).map String.ofList, after)

/-! ## Numbers -/

/-- One or more decimal digits, and what follows them. -/
def readDigits? (s : List Char) : Option (List Char × List Char) :=
  let digits := s.takeWhile Char.isDigit
  if digits = [] then none else some (digits, s.dropWhile Char.isDigit)

/-- The sign of an exponent, and what follows it. -/
def readSign : List Char → List Char × List Char
  | '+' :: rest => (['+'], rest)
  | '-' :: rest => (['-'], rest)
  | s => ([], s)

/-- The decimal digits of a whole number, without a superfluous zero. -/
def readWhole? (s : List Char) : Option (List Char × List Char) := do
  let (digits, rest) ← readDigits? s
  if digits.head? = some '0' ∧ digits ≠ ['0'] then none else some (digits, rest)

/-- The point and the digits of a fraction, if there is one. -/
def readFraction? : List Char → Option (List Char × List Char)
  | '.' :: s => do
    let (digits, rest) ← readDigits? s
    return ('.' :: digits, rest)
  | s => some ([], s)

/-- The letter, the sign and the digits of an exponent, if there is one. -/
def readExponent? : List Char → Option (List Char × List Char)
  | c :: s =>
    if c = 'e' ∨ c = 'E' then do
      let (sign, s) := readSign s
      let (digits, rest) ← readDigits? s
      return (c :: sign ++ digits, rest)
    else
      some ([], c :: s)
  | [] => some ([], [])

/-- A number literal, and what follows it. -/
def readNumber? (s : List Char) : Option (String × List Char) := do
  let (minus, s) := match s with
    | '-' :: rest => (['-'], rest)
    | _ => ([], s)
  let (whole, s) ← readWhole? s
  let (fraction, s) ← readFraction? s
  let (exponent, s) ← readExponent? s
  return (String.ofList (minus ++ whole ++ fraction ++ exponent), s)

/-! ## Texts -/

/-- The token that begins at the start of a text, if no blank stands there, and what follows. -/
def readToken? : List Char → Option (Token × List Char)
  | '[' :: s => some (.openArray, s)
  | ']' :: s => some (.closeArray, s)
  | '\x7b' :: s => some (.openObject, s)
  | '\x7d' :: s => some (.closeObject, s)
  | ',' :: s => some (.comma, s)
  | ':' :: s => some (.colon, s)
  | 'n' :: 'u' :: 'l' :: 'l' :: s => some (.null, s)
  | 't' :: 'r' :: 'u' :: 'e' :: s => some (.bool true, s)
  | 'f' :: 'a' :: 'l' :: 's' :: 'e' :: s => some (.bool false, s)
  | '"' :: s => (readQuoted? s).map fun (content, after) => (.quoted content, after)
  | s => (readNumber? s).map fun (literal, after) => (.number literal, after)

/-- The blanks between tokens. -/
def isSpace (c : Char) : Bool :=
  c == ' ' || c == '\t' || c == '\n' || c == '\r'

/-- The tokens of a text, where at most `fuel` steps are made. A step skips a blank or reads a
token. -/
def tokensWithin? : Nat → List Char → Option (List Token)
  | _, [] => some []
  | 0, _ :: _ => none
  | fuel + 1, c :: rest =>
    if isSpace c then tokensWithin? fuel rest
    else do
      let (token, after) ← readToken? (c :: rest)
      return token :: (← tokensWithin? fuel after)

/-- The tokens of a text. Each step takes at least one character. -/
def tokens? (s : List Char) : Option (List Token) :=
  tokensWithin? s.length s

end Json

end GeoPolicy
