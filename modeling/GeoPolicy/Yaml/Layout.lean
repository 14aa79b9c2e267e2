import GeoPolicy.Yaml.Property
import GeoPolicy.Yaml.Scalar

/-!
# The layout of YAML text

Splitting a text into tokens. Indentation opens and closes blocks, and a mark after a scalar or a
collection makes a mapping key of it, so that a token may have to be put before others.

## Main definitions

* `Yaml.Layout` — the tokens so far, the open blocks and brackets, and the possible keys.
* `Yaml.Layout.step?` — reading one token.
* `Yaml.lexemes` — the tokens of a text.
-/

namespace GeoPolicy

namespace Yaml

/-! ## The state -/

/-- A place where a mapping key may have begun: the number of tokens before it, its mark, and
whether only a key can stand there. -/
structure KeySpot where
  number : Nat
  mark : Mark
  isRequired : Bool
  deriving DecidableEq, Repr

/-- What has been read: the tokens, the last one first, and their number; the columns of the open
blocks, the innermost first; the possible key outside the innermost bracket and those outside the
others; and whether a key may begin here. -/
structure Layout where
  tokens : List Lexeme := []
  count : Nat := 0
  blocks : List Nat := []
  spot : Option KeySpot := none
  outerSpots : List (Option KeySpot) := []
  isKeyAllowed : Bool := true
  deriving DecidableEq, Repr

namespace Layout

/-- Whether a bracket is open. -/
def isFlow (l : Layout) : Bool :=
  !l.outerSpots.isEmpty

/-- The column of the innermost block, or one before the first column. -/
def indent (l : Layout) : Int :=
  match l.blocks with
  | [] => -1
  | column :: _ => column

/-- One more token. -/
def emit (l : Layout) (token : Token) (place : Place := {}) : Layout :=
  { l with tokens := { token, place } :: l.tokens, count := l.count + 1 }

/-- One more token, with a given number of tokens before it. -/
def insert (l : Layout) (number : Nat) (token : Token) (place : Place) : Layout :=
  let later := l.count - number
  { l with
    tokens := l.tokens.take later ++ { token, place } :: l.tokens.drop later
    count := l.count + 1 }

/-- The layout with a different rule for the keys that follow. -/
def allowKey (l : Layout) (isKeyAllowed : Bool) : Layout :=
  { l with isKeyAllowed }

/-! ## Blocks -/

/-- Closes the blocks that begin after a column. Brackets hide the blocks around them. -/
def closeBlocks (l : Layout) (column : Int) : Layout :=
  if l.isFlow then l
  else
    let closed := l.blocks.takeWhile fun block : Nat => column < block
    { l with
      tokens := List.replicate closed.length { token := .blockEnd } ++ l.tokens
      count := l.count + closed.length
      blocks := l.blocks.drop closed.length }

/-- Opens a block at a place that lies after the column of the innermost block, with a given number
of tokens before it. -/
def openBlock (l : Layout) (place : Place) (number : Nat) (t : Token) : Layout :=
  if l.isFlow ∨ place.column ≤ l.indent then l
  else { l.insert number t place with blocks := place.column :: l.blocks }

/-! ## Keys -/

/-- Gives up the possible key outside the innermost bracket, unless it has to be one. -/
def dropSpot? (l : Layout) : Option Layout :=
  if l.spot.any (·.isRequired) then none else some { l with spot := none }

/-- Takes the next token as the start of a key, where one is allowed. -/
def markSpot? (l : Layout) (m : Mark) : Option Layout :=
  if l.isKeyAllowed then do
    let l ← l.dropSpot?
    let isRequired := !l.isFlow && decide (l.indent = m.column)
    return { l with spot := some { number := l.count, mark := m, isRequired } }
  else
    some l

/-- Gives up a possible key that reaches over a line break or more than 1024 bytes, unless it has
to be one. -/
def expireSpot? (m : Mark) (spot : Option KeySpot) : Option (Option KeySpot) :=
  match spot with
  | none => some none
  | some s =>
    if s.mark.line < m.line ∨ s.mark.index + 1024 < m.index then
      if s.isRequired then none else some none
    else some (some s)

/-- Gives up all possible keys that are too far back. -/
def expireSpots? (l : Layout) (m : Mark) : Option Layout := do
  let spot ← expireSpot? m l.spot
  let outerSpots ← l.outerSpots.mapM (expireSpot? m)
  return { l with spot, outerSpots }

/-! ## Tokens -/

/-- Blanks, comments and line breaks up to the next token. A line break outside brackets allows a
key. The flags tell whether the text is inside brackets, whether it is inside a comment, and
whether a key is allowed so far; the result tells the last one again. -/
def skipToToken (isFlow isComment isKeyAllowed : Bool) : List Mark → Bool × List Mark
  | [] => (isKeyAllowed, [])
  | m :: rest =>
    if isBreak m.char then skipToToken isFlow false (isKeyAllowed || !isFlow) rest
    else if isComment || m.char == '#' then skipToToken isFlow true isKeyAllowed rest
    else if m.char == ' ' || (m.char == '\t' && (isFlow || !isKeyAllowed)) ||
        (m.char == '\uFEFF' && m.column == 0) then
      skipToToken isFlow false isKeyAllowed rest
    else (isKeyAllowed, m :: rest)

/-- Whether a plain scalar begins, given that no other token does. -/
def atPlain (isFlow : Bool) (m : Mark) (rest : List Mark) : Bool :=
  if isBlank m.char || ['-', '?', ':', ',', '[', ']', '\x7b', '\x7d', '#', '&', '*', '!', '|', '>',
      '\'', '"', '%', '@', '\x60'].contains m.char then
    (m.char == '-' && !rest.head?.any (isBlank ·.char)) ||
      (!isFlow && (m.char == '?' || m.char == ':') && !atGap rest)
  else
    true

/-- A mark that ends the blocks of a document. -/
def leaveDocument? (l : Layout) : Option Layout := do
  return (← (l.closeBlocks (-1)).dropSpot?).allowKey false

/-- An opening bracket. -/
def openBracket? (l : Layout) (m : Mark) (t : Token) : Option Layout := do
  let l ← l.markSpot? m
  let outerSpots := l.spot :: l.outerSpots
  return { l.emit t m.place with spot := none, outerSpots, isKeyAllowed := true }

/-- A closing bracket. -/
def closeBracket? (l : Layout) (t : Token) : Option Layout := do
  let l ← l.dropSpot?
  let l := match l.outerSpots with
    | [] => l
    | spot :: outerSpots => { l with spot, outerSpots }
  return (l.emit t).allowKey false

/-- The mark of a sequence entry or of a key. Outside brackets it opens a block where one may
begin. -/
def startEntry? (l : Layout) (m : Mark) (block entry : Token) (isKeyAllowed : Bool) :
    Option Layout :=
  if !l.isFlow && !l.isKeyAllowed then none
  else do
    let l ← (l.openBlock m.place l.count block).dropSpot?
    return (l.emit entry m.place).allowKey isKeyAllowed

/-- The mark of a value. What began at the possible key becomes the key. -/
def startValue? (l : Layout) (m : Mark) : Option Layout :=
  match l.spot with
  | some s =>
    let place := s.mark.place
    let l := (l.insert s.number .key place).openBlock place s.number .blockMappingStart
    some ({ l with spot := none, isKeyAllowed := false }.emit .value m.place)
  | none =>
    if !l.isFlow && !l.isKeyAllowed then none
    else
      let l := l.openBlock m.place l.count .blockMappingStart
      some ((l.emit .value m.place).allowKey !l.isFlow)

/-- Adds the token that begins at a mark, and gives what follows the token. -/
def step? (l : Layout) (m : Mark) (rest : List Mark) : Option (Layout × List Mark) :=
  if m.char = '%' ∧ m.column = 0 then do
    let l ← l.leaveDocument?
    let (t, rest) ← readDirective? rest
    return (l.emit t m.place, rest)
  else if atDocumentMark (m :: rest) then do
    let l ← l.leaveDocument?
    let t := if m.char = '-' then Token.documentStart else .documentEnd
    return (l.emit t m.place, rest.drop 2)
  else if m.char = '[' then
    (l.openBracket? m .flowSequenceStart).map (·, rest)
  else if m.char = '\x7b' then
    (l.openBracket? m .flowMappingStart).map (·, rest)
  else if m.char = ']' then
    (l.closeBracket? .flowSequenceEnd).map (·, rest)
  else if m.char = '\x7d' then
    (l.closeBracket? .flowMappingEnd).map (·, rest)
  else if m.char = ',' then do
    return (((← l.dropSpot?).emit .flowEntry m.place).allowKey true, rest)
  else if m.char = '-' ∧ atGap rest then
    (l.startEntry? m .blockSequenceStart .blockEntry true).map (·, rest)
  else if m.char = '?' ∧ (l.isFlow ∨ atGap rest) then
    (l.startEntry? m .blockMappingStart .key !l.isFlow).map (·, rest)
  else if m.char = ':' ∧ (l.isFlow ∨ atGap rest) then
    (l.startValue? m).map (·, rest)
  else if m.char = '*' then do
    let l ← l.markSpot? m
    let (name, rest) ← readName? rest
    return ((l.emit (.aliasTo name) m.place).allowKey false, rest)
  else if m.char = '&' then do
    let l ← l.markSpot? m
    let (name, rest) ← readName? rest
    return ((l.emit (.anchor name) m.place).allowKey false, rest)
  else if m.char = '!' then do
    let l ← l.markSpot? m
    let (t, rest) ← readTag? l.isFlow (m :: rest)
    return ((l.emit t m.place).allowKey false, rest)
  else if (m.char = '|' ∨ m.char = '>') ∧ !l.isFlow then do
    let l ← l.dropSpot?
    let isFolded := decide (m.char = '>')
    let (text, rest) ← readBlock? isFolded l.indent rest
    let style := if isFolded then .folded else .literal
    return ((l.emit (.scalar style (String.ofList text)) m.place).allowKey true, rest)
  else if m.char = '\'' ∨ m.char = '"' then do
    let l ← l.markSpot? m
    let isSingle := decide (m.char = '\'')
    let (text, rest) ← readQuoted? isSingle rest
    let style := if isSingle then .singleQuoted else .doubleQuoted
    return ((l.emit (.scalar style (String.ofList text)) m.place).allowKey false, rest)
  else if atPlain l.isFlow m rest then do
    let l ← l.markSpot? m
    let (text, isOverBreak, rest) ← readPlain? l.isFlow (l.indent + 1) (m :: rest)
    return ((l.emit (.scalar .plain (String.ofList text)) m.place).allowKey isOverBreak, rest)
  else
    none

/-- The layout after all that has been read, where the text ends. -/
def finish? (l : Layout) : Option Layout := do
  return (← l.leaveDocument?).emit .streamEnd

/-- The tokens that are certain if reading breaks off. What began at a possible key is not, since a
token may still have to be put before it. -/
def certain (l : Layout) : List Lexeme :=
  let spots := (l.spot :: l.outerSpots).filterMap (·.map KeySpot.number)
  l.tokens.reverse.take (spots.foldl min l.count)

/-- The mark at which the rest of a text begins, be it the end of the text. -/
def nextMark? (s rest : List Mark) : Option Mark :=
  match rest with
  | m :: _ => some m
  | [] => s.getLast?.map fun m =>
    { m with
      index := m.index + m.char.utf8Size
      line := if isBreak m.char then m.line + 1 else m.line }

/-- Passes over blanks and comments, and reads the token after them. The rest is `none` at the end
of the text. -/
def advance? (l : Layout) (s : List Mark) : Option (Layout × Option (List Mark)) :=
  let (isKeyAllowed, s) := skipToToken l.isFlow false l.isKeyAllowed s
  let l := l.allowKey isKeyAllowed
  match s with
  | [] => l.finish?.map (·, none)
  | m :: rest => do
    let l ← l.expireSpots? m
    let (l, rest) ← (l.closeBlocks m.column).step? m rest
    let l ← match nextMark? s rest with
      | some m => l.expireSpots? m
      | none => some l
    return (l, some rest)

end Layout

/-- The tokens of a text after those of a layout, at most `fuel` of them. -/
def lexemesFrom : Nat → Layout → List Mark → List Lexeme
  | 0, l, _ => l.certain
  | fuel + 1, l, s =>
    match l.advance? s with
    | some (l, some rest) => lexemesFrom fuel l rest
    | some (l, none) => l.tokens.reverse
    | none => l.certain

/-- The tokens of a text, each of which takes at least one character. They end with the end of the
text, unless the text breaks the rules: then they are those before the breach. -/
def lexemes (s : String) : List Lexeme :=
  match marks? s with
  | some s => lexemesFrom (s.length + 1) {} s
  | none => []

end Yaml

end GeoPolicy
