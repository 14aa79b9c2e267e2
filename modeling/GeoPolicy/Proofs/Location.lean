import GeoPolicy.GeoDb
import GeoPolicy.Registry

/-!
# What locations tell

A location tells the texts of its source. Where a source leaves a text out or leaves it empty, a
default text is told in its place, with one exception: the empty country code of a database record
is told as it is.

## Main definitions

* `Location.Filled` — what is told for a text that a source may leave out or leave empty.
* `Location.TellsNames` — a location with the names of its source.
* `Json.given?` — what a JSON value gives for a field.
-/

namespace GeoPolicy

/-! ## Default texts -/

namespace Location

/-- What is told for a text of a source: the text itself, or a default text where the source leaves
it out or leaves it empty. -/
inductive Filled (default : String) : Option String → String → Prop where
  | given {s : String} (h : s ≠ "") : Filled default (some s) s
  | missing : Filled default none default
  | empty : Filled default (some "") default

theorem Filled.ne_empty {default shown : String} {source : Option String}
    (h : Filled default source shown) (hdefault : default ≠ "") : shown ≠ "" := by
  cases h with
  | given h => exact h
  | missing | empty => exact hdefault

theorem filled_filter (default : String) (source : Option String) :
    Filled default source ((source.filter (· ≠ "")).getD default) := by
  cases source with
  | none => exact .missing
  | some s =>
    by_cases hs : s = ""
    · subst hs
      exact .empty
    · simpa [Option.filter, hs] using Filled.given hs

theorem filled_orUnknown (source : Option String) : Filled unknown source (orUnknown source) :=
  filled_filter unknown source

/-- A location of an address with the names that a source tells: of the country, of its part, of
the city and of the operator. -/
structure TellsNames (l : Location) (a : Address) (country region city isp : Option String) :
    Prop where
  address : l.address = a
  country : Filled unknown country l.country
  region : Filled unknown region l.region
  city : Filled unknown city l.city
  isp : Filled unknown isp l.isp

theorem TellsNames.ne_empty {l : Location} {a : Address} {country region city isp : Option String}
    (h : l.TellsNames a country region city isp) :
    l.country ≠ "" ∧ l.region ≠ "" ∧ l.city ≠ "" ∧ l.isp ≠ "" := by
  have hunknown : unknown ≠ "" := by decide
  exact ⟨h.country.ne_empty hunknown, h.region.ne_empty hunknown, h.city.ne_empty hunknown,
    h.isp.ne_empty hunknown⟩

end Location

/-! ## Fields of registry answers -/

namespace Json

/-- What a JSON value gives for a field of a record: the member of its name, or the element at its
place among the names. -/
def given? (names : List String) (v : Json) (name : String) : Option Json :=
  match v with
  | object members => member? name members
  | array elements => elements[names.idxOf name]?
  | _ => none

theorem fields?_eq_some {names : List String} (hnames : names.Nodup) {v : Json}
    {fields : List (Option Json)} (h : fields? names v = some fields) :
    fields = names.map (given? names v) := by
  cases v with
  | null | bool | number | text => exact absurd h (by simp [fields?])
  | object members =>
    rw [fields?] at h
    split at h
    · exact (Option.some.inj h).symm
    · exact absurd h (by simp)
  | array elements =>
    rw [fields?] at h
    split at h
    · next hlength =>
      rw [← Option.some.inj h]
      refine List.ext_getElem (by simp; omega) fun i hi hi' => ?_
      rw [List.getElem_map, given?, hnames.idxOf_getElem, List.getElem_append]
      split
      · next hsome => simp [List.getElem?_eq_getElem (by simpa using hsome)]
      · next hnone => simp at hnone; simp [hnone]
    · exact absurd h (by simp)

/-- A text that may be left out, or have `null` in its place. -/
theorem eq_bind_of_optional_text {field : Option Json} {s : Option String}
    (h : withDefault? none (optional? string?) field = some s) : s = field.bind string? := by
  cases field with
  | none => exact (Option.some.inj h).symm
  | some v =>
    cases v with
    | null => exact (Option.some.inj h).symm
    | bool | number | array | object => exact absurd h (by simp [withDefault?, optional?, string?])
    | text content =>
      obtain ⟨t, ht, rfl⟩ := Option.map_eq_some_iff.1 h
      exact ht.symm

end Json

namespace Registry

/-- The names of the fields of an answer. -/
def fieldNames : List String :=
  ["error", "reason", "city", "region", "country_name", "country_code", "org"]

/-- The text that an answer gives for a field. -/
def given? (v : Json) (name : String) : Option String :=
  (Json.given? fieldNames v name).bind Json.string?

theorem Record.ofJson?_eq_some {v : Json} {r : Record} (h : Record.ofJson? v = some r) :
    r.city = given? v "city" ∧ r.region = given? v "region" ∧
      r.countryName = given? v "country_name" ∧ r.countryCode = given? v "country_code" ∧
      r.org = given? v "org" := by
  simp only [Record.ofJson?, Option.bind_eq_bind] at h
  obtain ⟨fields, hfields, h⟩ := Option.bind_eq_some_iff.1 h
  have hgiven := Json.fields?_eq_some (by decide) hfields
  subst hgiven
  simp only [List.map_cons, List.map_nil] at h
  obtain ⟨-, h⟩ := Option.ite_none_left_eq_some.1 h
  obtain ⟨error, -, h⟩ := Option.bind_eq_some_iff.1 h
  obtain ⟨reason, -, h⟩ := Option.bind_eq_some_iff.1 h
  obtain ⟨city, hcity, h⟩ := Option.bind_eq_some_iff.1 h
  obtain ⟨region, hregion, h⟩ := Option.bind_eq_some_iff.1 h
  obtain ⟨countryName, hname, h⟩ := Option.bind_eq_some_iff.1 h
  obtain ⟨countryCode, hcode, h⟩ := Option.bind_eq_some_iff.1 h
  obtain ⟨org, horg, h⟩ := Option.bind_eq_some_iff.1 h
  obtain rfl := Option.some.inj h
  exact ⟨Json.eq_bind_of_optional_text hcity, Json.eq_bind_of_optional_text hregion,
    Json.eq_bind_of_optional_text hname, Json.eq_bind_of_optional_text hcode,
    Json.eq_bind_of_optional_text horg⟩

/-- An answer that is accepted is a JSON value, and the location tells its texts. -/
theorem tellsNames_of_locationOf {a : Address} {body : String} {l : Location}
    (h : locationOf a body = .ok l) :
    ∃ v, Json.parse? body = some v ∧
      l.TellsNames a (given? v "country_name") (given? v "region") (given? v "city")
        (given? v "org") ∧
      Location.Filled Location.unknownCode (given? v "country_code") l.code := by
  rw [locationOf] at h
  split at h
  · next r hr =>
    obtain ⟨v, hv, hr⟩ := Option.bind_eq_some_iff.1 hr
    obtain ⟨hcity, hregion, hname, hcode, horg⟩ := Record.ofJson?_eq_some hr
    rw [Record.location] at h
    split at h
    · exact absurd h (by simp)
    · obtain rfl := Except.ok.inj h
      refine ⟨v, hv, ?_⟩
      rw [← hcity, ← hregion, ← hname, ← hcode, ← horg]
      exact ⟨⟨rfl, Location.filled_orUnknown _, Location.filled_orUnknown _,
        Location.filled_orUnknown _, Location.filled_orUnknown _⟩, Location.filled_filter _ _⟩
  · exact absurd h (by simp)

end Registry

/-! ## Database records -/

namespace GeoDb

theorem Record.tellsNames_location (r : Record) (a : Address) :
    (r.location a).TellsNames a (r.country.bind (english ·.names))
      ((r.subdivisions.bind List.head?).bind english) (r.city.bind english) r.operator :=
  ⟨rfl, Location.filled_orUnknown _, Location.filled_orUnknown _, Location.filled_orUnknown _,
    Location.filled_orUnknown _⟩

theorem lookup_eq_ok_iff {db : Database} {a : Address} {l : Location} :
    lookup db a = .ok l ↔ ∃ r, db.record a = .ok r ∧ r.location a = l := by
  rw [lookup]
  cases db.record a <;> simp

/-- A country code is left blank exactly if the record has an empty one. -/
theorem Record.code_location_eq_empty_iff (r : Record) (a : Address) :
    (r.location a).code = "" ↔ r.country.bind (·.code) = some "" := by
  show (r.country.bind (·.code)).getD Location.unknownCode = "" ↔ _
  cases r.country.bind (·.code) with
  | none => simp [Location.unknownCode]
  | some code => simp

/-! ### A database with a blank code -/

/-- A text as an item of a database, if it takes less than 29 bytes. -/
def textItem (s : String) : List UInt8 :=
  .ofNat (0x40 + s.utf8ByteSize) :: Utf8.encode s

/-- A database of IPv4 addresses with one node. Addresses that begin with a zero bit have a record
of a country with an empty code and nothing else, and the others have none. -/
def blankCodeFile : ByteArray := ⟨Array.mk (
  [0, 0, 17, 0, 0, 0, 1] ++ List.replicate 16 0 ++
  [0xe1] ++ textItem "country" ++ [0xe1] ++ textItem "iso_code" ++ textItem "" ++
  Metadata.marker ++ [0xe9] ++
  textItem "binary_format_major_version" ++ [0xa1, 2] ++
  textItem "binary_format_minor_version" ++ [0xa0] ++
  textItem "build_epoch" ++ [0x04, 2, 0x65, 0x53, 0xf1, 0x00] ++
  textItem "database_type" ++ textItem "Test" ++
  textItem "description" ++ [0xe1] ++ textItem "en" ++ textItem "t" ++
  textItem "ip_version" ++ [0xa1, 4] ++
  textItem "languages" ++ [0x01, 4] ++ textItem "en" ++
  textItem "node_count" ++ [0xc1, 1] ++
  textItem "record_size" ++ [0xa1, 28])⟩

theorem exists_lookup_blankCodeFile :
    ∃ db l, Database.ofBytes blankCodeFile = .ok db ∧
      lookup db (.ofOctets [8, 8, 8, 8]) = .ok l ∧ l.code = "" := by
  have h : ((Database.ofBytes blankCodeFile).toOption.bind fun db =>
      (lookup db (.ofOctets [8, 8, 8, 8])).toOption).map (·.code) = some "" := by
    decide +kernel
  cases hdb : Database.ofBytes blankCodeFile with
  | error e => simp [hdb, Except.toOption] at h
  | ok db =>
    cases hl : lookup db (.ofOctets [8, 8, 8, 8]) with
    | error e => simp [hdb, hl, Except.toOption] at h
    | ok l => exact ⟨db, l, rfl, hl, by simpa [hdb, hl, Except.toOption] using h⟩

end GeoDb

/-! ## Both sources -/

namespace Location

open Registry GeoDb

/-- Locations have the address that was asked for, and the names of their source, with a default
text for each that is left out or empty; so no name is blank. The same holds of the country code in
an answer of a registry. The code in a record of a database is told as it is, so it is blank exactly
if the record has an empty one. -/
theorem filled_fields_of_lookups (a : Address) (body : String) (db : Database) :
    (∀ l, locationOf a body = .ok l → ∃ v, Json.parse? body = some v ∧
      l.TellsNames a (Registry.given? v "country_name") (Registry.given? v "region")
        (Registry.given? v "city") (Registry.given? v "org") ∧
      Filled unknownCode (Registry.given? v "country_code") l.code ∧
      (l.country ≠ "" ∧ l.region ≠ "" ∧ l.city ≠ "" ∧ l.isp ≠ "") ∧ l.code ≠ "") ∧
    ∀ l, GeoDb.lookup db a = .ok l → ∃ r, db.record a = .ok r ∧
      l.TellsNames a (r.country.bind (english ·.names))
        ((r.subdivisions.bind List.head?).bind english) (r.city.bind english) r.operator ∧
      l.code = (r.country.bind (·.code)).getD unknownCode ∧
      (l.country ≠ "" ∧ l.region ≠ "" ∧ l.city ≠ "" ∧ l.isp ≠ "") ∧
      (l.code = "" ↔ r.country.bind (·.code) = some "") := by
  constructor
  · intro l h
    obtain ⟨v, hv, hnames, hcode⟩ := tellsNames_of_locationOf h
    exact ⟨v, hv, hnames, hcode, hnames.ne_empty, hcode.ne_empty (by decide)⟩
  · intro l h
    obtain ⟨r, hr, rfl⟩ := lookup_eq_ok_iff.1 h
    have hnames := r.tellsNames_location a
    exact ⟨r, hr, hnames, rfl, hnames.ne_empty, r.code_location_eq_empty_iff a⟩

/-- The record of the first address that is asked for has an empty code, which is told as it is. -/
theorem filled_fields_of_lookups_empty_code :
    ∃ db r l, Database.ofBytes blankCodeFile = .ok db ∧
      db.record (.ofOctets [8, 8, 8, 8]) = .ok r ∧ r.country.bind (·.code) = some "" ∧
      GeoDb.lookup db (.ofOctets [8, 8, 8, 8]) = .ok l ∧ l.code = "" := by
  obtain ⟨db, l, hdb, hl, hcode⟩ := exists_lookup_blankCodeFile
  obtain ⟨r, hr, rfl⟩ := lookup_eq_ok_iff.1 hl
  exact ⟨db, r, _, hdb, hr, (r.code_location_eq_empty_iff _).1 hcode, hl, hcode⟩

/-- An answer with an empty city, and a record with nothing but an empty code. -/
theorem filled_fields_of_lookups_empty_city :
    (∃ l, locationOf (.ofOctets [8, 8, 8, 8]) "\x7b\"city\": \"\", \"org\": null\x7d" = .ok l ∧
      l.city ≠ "" ∧ l.code ≠ "") ∧
    ∃ db l, Database.ofBytes blankCodeFile = .ok db ∧
      GeoDb.lookup db (.ofOctets [8, 8, 8, 8]) = .ok l ∧ l.city ≠ "" := by
  obtain ⟨db, l, hdb, hl, -⟩ := exists_lookup_blankCodeFile
  obtain ⟨hregistry, hdatabase⟩ := filled_fields_of_lookups (.ofOctets [8, 8, 8, 8])
    "\x7b\"city\": \"\", \"org\": null\x7d" db
  constructor
  · have hlocation : locationOf (.ofOctets [8, 8, 8, 8])
        "\x7b\"city\": \"\", \"org\": null\x7d" = .ok {
        address := .ofOctets [8, 8, 8, 8]
        country := unknown
        code := unknownCode
        region := unknown
        city := unknown
        isp := unknown } := by
      rfl
    obtain ⟨v, -, -, -, hnames, hcode⟩ := hregistry _ hlocation
    exact ⟨_, hlocation, hnames.2.2.1, hcode⟩
  · obtain ⟨r, -, -, -, hnames, -⟩ := hdatabase l hl
    exact ⟨db, l, hdb, hl, hnames.2.2.1⟩

end Location

end GeoPolicy
