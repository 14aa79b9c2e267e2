import GeoPolicy.Json.Token

/-!
# Reading JSON

Tokens are read one at a time. The arrays and objects that are still open form a stack, and what
may come next is part of the state.

## Main definitions

* `Json.Frame` — an array or object that is still open.
* `Json.Reading` — the state between two tokens.
* `Json.Reading.step` — what a token does.
* `Json.parse?` — the value of a whole text.
-/

namespace GeoPolicy

namespace Json

/-- An array or object that is still open, with what it holds so far, the last part first. -/
inductive Frame where
  | array (elements : List Json)
  /-- The last key still waits for its value. -/
  | object (members : List (Quoted × Json)) (key : Quoted)

/-- What may come next, inside the open arrays and objects. -/
inductive Reading where
  /-- A value. -/
  | value (stack : List Frame)
  /-- The first element of an array, or its end. -/
  | firstElement (stack : List Frame)
  /-- The first key of an object, or its end. -/
  | firstKey (stack : List Frame)
  /-- A further key of an object. -/
  | key (members : List (Quoted × Json)) (stack : List Frame)
  /-- The colon after a key. -/
  | colon (members : List (Quoted × Json)) (key : Quoted) (stack : List Frame)
  /-- A comma or an end after a value. -/
  | after (value : Json) (stack : List Frame)

namespace Reading

/-- A token where a value may start. -/
def stepValue (stack : List Frame) : Token → Option Reading
  | .null => some (after .null stack)
  | .bool b => some (after (.bool b) stack)
  | .number literal => some (after (.number literal) stack)
  | .quoted content => some (after (.text content) stack)
  | .openArray => some (firstElement stack)
  | .openObject => some (firstKey stack)
  | _ => none

/-- The state after a token. -/
def step : Reading → Token → Option Reading
  | value stack, token => stepValue stack token
  | firstElement stack, .closeArray => some (after (.array []) stack)
  | firstElement stack, token => stepValue (.array [] :: stack) token
  | firstKey stack, .closeObject => some (after (.object []) stack)
  | firstKey stack, .quoted content => some (colon [] content stack)
  | key members stack, .quoted content => some (colon members content stack)
  | colon members content stack, .colon => some (value (.object members content :: stack))
  | after v (.array elements :: stack), .comma => some (value (.array (v :: elements) :: stack))
  | after v (.array elements :: stack), .closeArray =>
    some (after (.array (v :: elements).reverse) stack)
  | after v (.object members content :: stack), .comma =>
    some (key ((content, v) :: members) stack)
  | after v (.object members content :: stack), .closeObject =>
    some (after (.object ((content, v) :: members).reverse) stack)
  | _, _ => none

/-- The value that has been read, once nothing is open. -/
def result? : Reading → Option Json
  | after v [] => some v
  | _ => none

end Reading

/-- The value of a whole text. -/
def parse? (s : String) : Option Json := do
  (← (← tokens? s.toList).foldlM Reading.step (.value [])).result?

end Json

end GeoPolicy
