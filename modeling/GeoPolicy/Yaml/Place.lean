/-!
# Places in YAML text

## Main definitions

* `Yaml.Place` — a line and a column.
* `Yaml.Place.words` — how a place is told.
-/

namespace GeoPolicy

namespace Yaml

/-- A line of a text and a column on it, both counted from zero. -/
structure Place where
  line : Nat := 0
  column : Nat := 0
  deriving DecidableEq, Repr

/-- The words that tell a place, with counts from one. The start of the text goes without saying. -/
def Place.words (p : Place) : String :=
  if p = {} then "" else s!" at line {p.line + 1} column {p.column + 1}"

end Yaml

end GeoPolicy
