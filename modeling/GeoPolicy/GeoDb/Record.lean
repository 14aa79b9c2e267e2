import GeoPolicy.GeoDb.Database
import GeoPolicy.Location

/-!
# Location records

What a database tells about an address, and the location made of it.

## Main definitions

* `GeoDb.Record` — the parts of a record that matter.
* `GeoDb.Record.location` — the location that a record tells.
* `GeoDb.lookup` — a database as a source of locations.
-/

namespace GeoPolicy

namespace GeoDb

/-- The names of a place by language. -/
abbrev Names := List (String × String)

/-- The English name. Of several, the last one counts. -/
def english (names : Names) : Option String :=
  names.reverse.lookup "en"

/-- A country. -/
structure Country where
  code : Option String := none
  names : Names := []
  deriving DecidableEq, Repr

/-- The parts of a record that matter. -/
structure Record where
  country : Option Country := none
  city : Option Names := none
  /-- The parts of the country, the largest first. -/
  subdivisions : Option (List Names) := none
  operator : Option String := none
  deriving DecidableEq, Repr

/-! ## Reading -/

/-- The single field of a place. -/
def namesShape : Shape where
  names := ["names"]
  optionalInMap := [0]
  optionalInArray := [0]

/-- Reads the names of a place. -/
def readNames (d : Data) : Read Names :=
  namesShape.read d (fun _ _ => readTextMap d) []

/-- The fields of a country. -/
def countryShape : Shape where
  names := ["iso_code", "names"]
  optionalInMap := [0, 1]
  optionalInArray := [1]

/-- Reads a field of a country. -/
def Country.readField (d : Data) (field : Nat) (c : Country) : Read Country := do
  match field with
  | 0 => return { c with code := some (← readText d) }
  | _ => return { c with names := ← readTextMap d }

/-- Reads a country. -/
def readCountry (d : Data) : Read Country :=
  countryShape.read d (Country.readField d) {}

/-- The fields of a record. -/
def Record.shape : Shape where
  names := ["country", "city", "subdivisions", "autonomous_system_organization"]
  optionalInMap := [0, 1, 2, 3]
  optionalInArray := []

/-- Reads a field of a record. -/
def Record.readField (d : Data) (field : Nat) (r : Record) : Read Record := do
  match field with
  | 0 => return { r with country := some (← readCountry d) }
  | 1 => return { r with city := some (← readNames d) }
  | 2 => return { r with subdivisions := some (← readArray d (readNames d)) }
  | _ => return { r with operator := some (← readText d) }

/-- Reads a record. -/
def Record.read (d : Data) : Read Record :=
  Record.shape.read d (Record.readField d) {}

/-! ## Locations -/

/-- The location that a record tells for an address. -/
def Record.location (r : Record) (a : Address) : Location where
  address := a
  country := Location.orUnknown (r.country.bind (english ·.names))
  code := (r.country.bind (·.code)).getD Location.unknownCode
  region := Location.orUnknown ((r.subdivisions.bind List.head?).bind english)
  city := Location.orUnknown (r.city.bind english)
  isp := Location.orUnknown r.operator

/-- The record of an address. -/
def Database.record (db : Database) (a : Address) : Except DatabaseFailure Record := do
  (Record.read db.data).run' (← db.find a)

/-- A database as a source of locations. -/
def lookup (db : Database) : Lookup := fun a =>
  match db.record a with
  | .ok record => .ok (record.location a)
  | .error e => .error (.database e)

/-- The database in a file as a source of locations. -/
def lookupOfBytes (file : ByteArray) : Except Error Lookup :=
  match Database.ofBytes file with
  | .ok db => .ok (lookup db)
  | .error e => .error (.database e)

end GeoDb

end GeoPolicy
