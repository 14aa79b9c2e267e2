import GeoPolicy.Address

/-!
# Locations

## Main definitions

* `Location` — where an address is and who operates it.
* `Lookup` — a source of locations.
-/

namespace GeoPolicy

/-- Where an address is and who operates it. -/
structure Location where
  address : Address
  country : String
  /-- The two-letter code of the country. -/
  code : String
  region : String
  city : String
  /-- The operator of the network. -/
  isp : String
  deriving DecidableEq, Repr

/-- A source of locations. -/
abbrev Lookup := Address → Except Error Location

namespace Location

/-- The text for a name that a source does not give. -/
def unknown : String := "Unknown"

/-- The text for a country code that a source does not give. -/
def unknownCode : String := "??"

/-- A name that a source may leave out or leave empty. -/
def orUnknown (name : Option String) : String :=
  (name.filter (· ≠ "")).getD unknown

end Location

end GeoPolicy
