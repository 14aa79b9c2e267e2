/-!
# JSON values

## Main definitions

* `Json` — a JSON value. Objects keep their members in order.
* `Json.Quoted` — what stands between two quotation marks.
-/

namespace GeoPolicy

/-- What stands between two quotation marks. Where an escape names half of a surrogate pair, there
is no such text. -/
abbrev Json.Quoted := Option String

/-- A JSON value. Numbers are kept as written. -/
inductive Json where
  | null
  | bool (value : Bool)
  | number (literal : String)
  | text (content : Json.Quoted)
  | array (elements : List Json)
  | object (members : List (Json.Quoted × Json))
  deriving Repr, Inhabited

namespace Json

/-- The value of a text. -/
def ofString (s : String) : Json :=
  text (some s)

/-- The value of a natural number. -/
def ofNat (n : Nat) : Json :=
  number (toString n)

/-- The array of texts. -/
def ofStrings (l : List String) : Json :=
  array (l.map ofString)

/-- The object with named members. -/
def ofMembers (members : List (String × Json)) : Json :=
  object (members.map fun m => (some m.1, m.2))

end Json

end GeoPolicy
