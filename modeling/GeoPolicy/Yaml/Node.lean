import GeoPolicy.Yaml.Layout

/-!
# YAML documents

The tree that the tokens of a text describe. A text holds one document at most; a text without any
holds an empty scalar. Where a text breaks the rules, the tree ends with a broken node, and all
before it stays known.

## Main definitions

* `Yaml.Node` — scalars, sequences, mappings, and aliases of labelled nodes.
* `Yaml.Node.target` — the node that an alias stands for.
* `Yaml.Document.ofText` — the tree of a text, and whether the text keeps the rules.
-/

namespace GeoPolicy

namespace Yaml

/-! ## Nodes -/

/-- What is said of a node besides its content: where it starts, the label that aliases refer to,
and its tag. -/
structure NodeHead where
  place : Place := {}
  label : Option Nat := none
  tag : Option Tag := none
  deriving DecidableEq, Repr

/-- A node of a document. -/
inductive Node where
  | scalar (head : NodeHead) (style : ScalarStyle) (text : String)
  | sequence (head : NodeHead) (items : List Node)
  | mapping (head : NodeHead) (entries : List (Node × Node))
  | aliasTo (place : Place) (label : Nat)
  /-- What cannot be read. No other node comes after it. -/
  | broken
  deriving Repr

namespace Node

/-- The node that is not written at all. -/
def empty : Node := scalar {} .plain ""

/-- The tag of a node. -/
def tag? : Node → Option Tag
  | scalar head _ _ | sequence head _ | mapping head _ => head.tag
  | aliasTo .. | broken => none

/-- A node under its label, if it has one. -/
def underLabel (head : NodeHead) (n : Node) : List (Nat × Node) :=
  match head.label with
  | some label => [(label, n)]
  | none => []

mutual

/-- The labelled nodes of a tree, in the order they begin. -/
def labelled : Node → List (Nat × Node)
  | scalar head style text => underLabel head (scalar head style text)
  | sequence head items => underLabel head (sequence head items) ++ labelledItems items
  | mapping head entries => underLabel head (mapping head entries) ++ labelledEntries entries
  | aliasTo .. | broken => []

/-- The labelled nodes of the items of a sequence. -/
def labelledItems : List Node → List (Nat × Node)
  | [] => []
  | item :: items => labelled item ++ labelledItems items

/-- The labelled nodes of the entries of a mapping. -/
def labelledEntries : List (Node × Node) → List (Nat × Node)
  | [] => []
  | (key, value) :: entries => labelled key ++ labelled value ++ labelledEntries entries

end

/-- The node that an alias in the tree of a root stands for: the last one with its label. Other
nodes stand for themselves. -/
def target (root : Node) : Node → Node
  | aliasTo _ label => (root.labelled.reverse.lookup label).getD broken
  | n => n

end Node

/-! ## Reading nodes -/

/-- What is left to read of a document: the tokens, and the anchor names so far with the label
that each has now. No tokens are left once something cannot be read. -/
structure Cursor where
  tokens : List Lexeme
  names : List (String × Nat) := []

/-- A step of reading a document. -/
abbrev NodeReader := StateM Cursor

/-- The shorthands for tags in a document. -/
abbrev TagHandles := List (String × Tag)

namespace NodeReader

/-- The next token with its place. -/
def peekLexeme : NodeReader (Option Lexeme) := do
  return (← get).tokens.head?

/-- The next token. -/
def peek : NodeReader (Option Token) := do
  return (← peekLexeme).map (·.token)

/-- Passes over the next token. -/
def skip : NodeReader Unit :=
  modify fun c => { c with tokens := c.tokens.tail }

/-- Breaks off: nothing is read after this. -/
def breakOff : NodeReader Node := do
  modify fun c => { c with tokens := [] }
  return .broken

/-- Passes over the next token if it is a given one, and tells whether it was. -/
def skipIf (t : Token) : NodeReader Bool := do
  if (← peek) = some t then
    skip
    return true
  else
    return false

/-- The label for the next node with an anchor: the number of names known so far. -/
def register (name : String) : NodeReader Nat := do
  let c ← get
  let label := c.names.length
  set { c with names := (name, label) :: c.names.filter (·.1 ≠ name) }
  return label

/-- A tag with its shorthand spelled out. -/
def resolveTag? (handles : TagHandles) (handle : String) (suffix : Tag) : Option Tag :=
  if handle = "" then some suffix else (handles.lookup handle).map (· ++ suffix)

/-- The anchor before a node. -/
def readAnchor : NodeReader (Option Nat) := do
  match ← peek with
  | some (.anchor name) =>
    skip
    return some (← register name)
  | _ => return none

/-- The tag before a node as it is written: its shorthand and the rest. -/
def readTag : NodeReader (Option (String × Tag)) := do
  match ← peek with
  | some (.tag handle suffix) =>
    skip
    return some (handle, suffix)
  | _ => return none

/-- The anchor and the tag before a node, in either order. The result is `none` where the tag has
an unknown shorthand. -/
def readHead? (handles : TagHandles) (place : Place) : NodeReader (Option NodeHead) := do
  let first ← readAnchor
  let tag ← readTag
  let label ← if first.isNone && tag.isSome then readAnchor else pure first
  match tag with
  | none => return some { place, label }
  | some (handle, suffix) =>
    return (resolveTag? handles handle suffix).map fun tag => { place, label, tag := some tag }

/-- The empty node before one of given tokens, else what a reader gives. -/
def unlessAt (stops : List Token) (read : NodeReader Node) : NodeReader Node := do
  if (← peek).any stops.contains then return Node.empty else read

/-- The value of an entry, which may be left out. -/
def readValue (stops : List Token) (read : NodeReader Node) : NodeReader Node := do
  match ← peek with
  | none => breakOff
  | some .value =>
    skip
    unlessAt stops read
  | some _ => return Node.empty

/-- The key of a pair inside a sequence. A token that ends the key at once is lost. -/
def readPairKey (read : NodeReader Node) : NodeReader Node := do
  if (← peek).any [Token.value, .flowEntry, .flowSequenceEnd].contains then
    skip
    return Node.empty
  else
    read

/-- What ends a key or a value in a block. -/
def blockStops : List Token := [.key, .value, .blockEnd]

/-- Passes over the comma before an item, and tells whether the item may follow. The first one has
none. -/
def skipComma (isFirst : Bool) : NodeReader Bool :=
  if isFirst then return true else skipIf .flowEntry

/-- The items after which a sequence breaks off. -/
def breakOffItems : NodeReader (List Node) := do
  return [← breakOff]

/-- The entries after which a mapping breaks off. -/
def breakOffEntries : NodeReader (List (Node × Node)) := do
  return [(← breakOff, .broken)]

mutual

/-- A node. `isBlock` tells whether it may be a block, and `isIndentless` whether it may be a
sequence without indentation of its own. -/
def node (handles : TagHandles) : Nat → Bool → Bool → NodeReader Node
  | 0, _, _ => breakOff
  | fuel + 1, isBlock, isIndentless => do
    match ← peekLexeme with
    | none => breakOff
    | some ⟨.aliasTo name, place⟩ =>
      skip
      match (← get).names.lookup name with
      | some label => return .aliasTo place label
      | none => breakOff
    | some ⟨_, place⟩ =>
      match ← readHead? handles place with
      | none => breakOff
      | some head => content handles fuel isBlock isIndentless head

/-- The content of a node. An anchor or a tag without content belongs to an empty scalar. -/
def content (handles : TagHandles) : Nat → Bool → Bool → NodeHead → NodeReader Node
  | 0, _, _, _ => breakOff
  | fuel + 1, isBlock, isIndentless, head => do
    match ← peek with
    | some (.scalar style text) =>
      skip
      return .scalar head style text
    | some .flowSequenceStart =>
      skip
      return .sequence head (← flowItems handles fuel true)
    | some .flowMappingStart =>
      skip
      return .mapping head (← flowEntries handles fuel true)
    | some t =>
      if isIndentless && t == .blockEntry then
        return .sequence head (← indentlessItems handles fuel)
      else if isBlock && t == .blockSequenceStart then
        skip
        return .sequence head (← blockItems handles fuel)
      else if isBlock && t == .blockMappingStart then
        skip
        return .mapping head (← blockEntries handles fuel)
      else if head.label.isNone && head.tag.isNone then breakOff
      else return .scalar head .plain ""
    | none => breakOff

/-- The items of a block sequence. -/
def blockItems (handles : TagHandles) : Nat → NodeReader (List Node)
  | 0 => breakOffItems
  | fuel + 1 => do
    if ← skipIf .blockEntry then
      let item ← unlessAt [.blockEntry, .blockEnd] (node handles fuel true false)
      return item :: (← blockItems handles fuel)
    else if ← skipIf .blockEnd then return []
    else breakOffItems

/-- The items of a sequence that stands at the indentation of the mapping around it. -/
def indentlessItems (handles : TagHandles) : Nat → NodeReader (List Node)
  | 0 => breakOffItems
  | fuel + 1 => do
    if ← skipIf .blockEntry then
      let item ← unlessAt (.blockEntry :: blockStops) (node handles fuel true false)
      return item :: (← indentlessItems handles fuel)
    else if (← peek).isNone then breakOffItems
    else return []

/-- The entries of a block mapping. -/
def blockEntries (handles : TagHandles) : Nat → NodeReader (List (Node × Node))
  | 0 => breakOffEntries
  | fuel + 1 => do
    if ← skipIf .key then
      let key ← unlessAt blockStops (node handles fuel true true)
      let value ← readValue blockStops (node handles fuel true true)
      return (key, value) :: (← blockEntries handles fuel)
    else if ← skipIf .blockEnd then return []
    else breakOffEntries

/-- The items of a sequence in brackets, with a comma before each but the first. -/
def flowItems (handles : TagHandles) : Nat → Bool → NodeReader (List Node)
  | 0, _ => breakOffItems
  | fuel + 1, isFirst => do
    if ← skipIf .flowSequenceEnd then return []
    else if ← skipComma isFirst then
      if ← skipIf .key then
        let key ← readPairKey (node handles fuel false false)
        let value ← readValue [.flowEntry, .flowSequenceEnd] (node handles fuel false false)
        return .mapping {} [(key, value)] :: (← flowItems handles fuel false)
      else if ← skipIf .flowSequenceEnd then return []
      else
        let item ← node handles fuel false false
        return item :: (← flowItems handles fuel false)
    else breakOffItems

/-- The entries of a mapping in braces, with a comma before each but the first. -/
def flowEntries (handles : TagHandles) : Nat → Bool → NodeReader (List (Node × Node))
  | 0, _ => breakOffEntries
  | fuel + 1, isFirst => do
    if ← skipIf .flowMappingEnd then return []
    else if ← skipComma isFirst then
      if ← skipIf .key then
        let key ← unlessAt [.value, .flowEntry, .flowMappingEnd] (node handles fuel false false)
        let value ← readValue [.flowEntry, .flowMappingEnd] (node handles fuel false false)
        return (key, value) :: (← flowEntries handles fuel false)
      else if ← skipIf .flowMappingEnd then return []
      else
        let key ← node handles fuel false false
        return (key, Node.empty) :: (← flowEntries handles fuel false)
    else breakOffEntries

end

/-- A node, as long as tokens last. Every third step takes one of them. -/
def readNode (handles : TagHandles) : NodeReader Node := do
  node handles (3 * (← get).tokens.length + 3) true false

end NodeReader

/-! ## Documents -/

/-- The shorthands that every document has, unless it gives them another meaning. -/
def defaultHandles : TagHandles :=
  [("!", Utf8.encode "!"), ("!!", Utf8.encode "tag:yaml.org,2002:")]

/-- The directives at the start of tokens, after the shorthands so far: all shorthands, and what
follows. Nothing may be given twice, and the version is 1.1 or 1.2. -/
def readDirectives? (hasVersion : Bool) (handles : TagHandles) :
    List Lexeme → Option (TagHandles × List Lexeme)
  | ⟨.versionDirective major minor, _⟩ :: rest =>
    if !hasVersion && major == 1 && (minor == 1 || minor == 2) then
      readDirectives? true handles rest
    else none
  | ⟨.tagDirective handle start, _⟩ :: rest =>
    if (handles.lookup handle).isNone then
      readDirectives? hasVersion (handles ++ [(handle, start)]) rest
    else none
  | rest => some (handles ++ defaultHandles, rest)

/-- Whether a token stands outside of documents. -/
def Token.isOutside : Token → Bool
  | .versionDirective .. | .tagDirective .. | .documentStart | .documentEnd | .streamEnd => true
  | _ => false

/-- The reader for a document, and the tokens that it is about. Only the first document of a text
may begin without a line that says so. -/
def openDocument? (tokens : List Lexeme) : Option (NodeReader Node × List Lexeme) :=
  match tokens with
  | [] => none
  | ⟨.streamEnd, _⟩ :: _ => some (return Node.empty, tokens)
  | ⟨t, _⟩ :: _ =>
    if t.isOutside && t != .documentEnd then do
      let (handles, rest) ← readDirectives? false [] tokens
      match rest with
      | ⟨.documentStart, _⟩ :: rest =>
        if rest.head?.any (·.token.isOutside) then some (return Node.empty, rest)
        else some (NodeReader.readNode handles, rest)
      | _ => none
    else some (NodeReader.readNode defaultHandles, tokens)

/-- What a text holds: a tree, and whether the text keeps the rules up to its end. -/
structure Document where
  root : Node
  isWhole : Bool

/-- Whether only the end of the text is left. -/
def atStreamEnd (tokens : List Lexeme) : Bool :=
  match tokens.dropWhile (·.token == .documentEnd) with
  | [⟨.streamEnd, _⟩] => true
  | _ => false

/-- The only document of a text. -/
def Document.ofText (s : String) : Document :=
  match openDocument? (lexemes s) with
  | none => { root := .broken, isWhole := false }
  | some (read, tokens) =>
    let (root, c) := read.run { tokens }
    { root, isWhole := atStreamEnd c.tokens }

end Yaml

end GeoPolicy
