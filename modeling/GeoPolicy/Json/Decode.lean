import GeoPolicy.Json.Reader

/-!
# Decoding JSON

Readings of values as data. A record is written as an object, or as an array of its fields in
order; members of other names are passed over, and no field may be given twice.

## Main definitions

* `Json.string?`, `Json.bool?`, `Json.nat?`, `Json.list?` — the simple readings.
* `Json.optional?` — a reading that `null` may stand in for.
* `Json.variant?` — the name of a case without data.
* `Json.fields?` — the fields of a record.
-/

namespace GeoPolicy

namespace Json

/-! ## Simple values -/

/-- The text of a value. -/
def string? : Json → Option String
  | text content => content
  | _ => none

/-- The truth value of a value. -/
def bool? : Json → Option Bool
  | bool b => some b
  | _ => none

/-- The natural number of a value, written without sign, fraction and exponent. -/
def nat? : Json → Option Nat
  | number literal => Text.readDecimal? literal.toList
  | _ => none

/-- The elements of an array, each decoded. -/
def list? {α : Type} (element? : Json → Option α) : Json → Option (List α)
  | array elements => elements.mapM element?
  | _ => none

/-- A decoded value, or nothing where `null` stands for it. -/
def optional? {α : Type} (value? : Json → Option α) : Json → Option (Option α)
  | null => some none
  | v => (value? v).map some

/-- The name of a case without data: a text, or an object whose only member has `null` as its
value. -/
def variant? : Json → Option String
  | text content => content
  | object [(key, null)] => key
  | _ => none

/-! ## Records -/

/-- The value of a member, if it is given. -/
def member? (name : String) (members : List (Quoted × Json)) : Option Json :=
  members.findSome? fun m => if m.1 = some name then some m.2 else none

/-- How often a name is given. -/
def occurrences (name : String) (members : List (Quoted × Json)) : Nat :=
  members.countP (·.1 = some name)

/-- The fields of a record in the order of their names, nothing for a field that is not given. An
object may hold other members and gives each name at most once; an array holds no more elements
than there are fields. -/
def fields? (names : List String) : Json → Option (List (Option Json))
  | object members =>
    if members.all (·.1.isSome) ∧ names.all (occurrences · members ≤ 1) then
      some (names.map (member? · members))
    else none
  | array elements =>
    if elements.length ≤ names.length then
      some (elements.map some ++ List.replicate (names.length - elements.length) none)
    else none
  | _ => none

/-- A field that has to be given. -/
def required? {α : Type} (value? : Json → Option α) (field : Option Json) : Option α :=
  field.bind value?

/-- A field with a value to stand in for it where it is not given. -/
def withDefault? {α : Type} (default : α) (value? : Json → Option α) (field : Option Json) :
    Option α :=
  match field with
  | none => some default
  | some v => value? v

end Json

end GeoPolicy
