import GeoPolicy.Yaml.Place

/-!
# Tokens of YAML

## Main definitions

* `Yaml.ScalarStyle` — how a scalar is written.
* `Yaml.Tag` — what a node says about its kind.
* `Yaml.Token` — the words and marks of YAML text. Some mark the bounds of blocks, which are told
  by indentation alone.
* `Yaml.Lexeme` — a token and its place.
-/

namespace GeoPolicy

namespace Yaml

/-- How a scalar is written. -/
inductive ScalarStyle where
  | plain
  | singleQuoted
  | doubleQuoted
  | literal
  | folded
  deriving DecidableEq, Repr

/-- A tag, or a part of one, as bytes. Bytes may be written one by one, so they need not spell a
text. -/
abbrev Tag := List UInt8

/-- A word or mark of YAML text. -/
inductive Token where
  /-- The version of the language. -/
  | versionDirective (major minor : Nat)
  /-- A shorthand for tags. -/
  | tagDirective (handle : String) (start : Tag)
  | documentStart
  | documentEnd
  | streamEnd
  | blockSequenceStart
  | blockMappingStart
  | blockEnd
  | flowSequenceStart
  | flowSequenceEnd
  | flowMappingStart
  | flowMappingEnd
  | blockEntry
  | flowEntry
  | key
  | value
  | aliasTo (name : String)
  | anchor (name : String)
  | tag (handle : String) (suffix : Tag)
  | scalar (style : ScalarStyle) (text : String)
  deriving DecidableEq, Repr

/-- A token and its place. The place of a token without text of its own is not told. -/
structure Lexeme where
  token : Token
  place : Place := {}
  deriving DecidableEq, Repr

end Yaml

end GeoPolicy
