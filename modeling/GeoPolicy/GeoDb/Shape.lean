import GeoPolicy.GeoDb.Data

/-!
# Records in a location database

Readings of items as data of an expected shape. A record is a map from the names of its fields, or
from their numbers, or an array of its fields in order.

## Main definitions

* `GeoDb.readText`, `GeoDb.readNatural`, `GeoDb.readTexts`, `GeoDb.readTextMap` — simple readings.
* `GeoDb.Shape` — the fields of a record.
* `GeoDb.Shape.read` — the reading of a record.
-/

namespace GeoPolicy

namespace GeoDb

/-! ## Simple readings -/

/-- The failure of an item of another kind than expected. -/
def unexpected : DatabaseFailure := .decoding

/-- The text of an item. Bytes count as text where they are one. -/
def textOf? : Item → Option String
  | .text s => some s
  | .bytes content => Utf8.decode? content
  | _ => none

/-- The natural number of an item, if it is below a limit. -/
def naturalOf? (limit : Nat) : Item → Option Nat
  | .natural n => if n < limit then some n else none
  | .integer n => if 0 ≤ n ∧ n < limit then some n.toNat else none
  | _ => none

/-- Reads an item that has a value of the expected kind. -/
def readValue {α : Type} (d : Data) (value? : Item → Option α) : Read α :=
  d.resolve fun item => match value? item with
    | some a => return a
    | none => throw unexpected

/-- Reads a text. -/
def readText (d : Data) : Read String :=
  readValue d textOf?

/-- Reads a natural number of some bits. -/
def readNatural (d : Data) (bits : Nat) : Read Nat :=
  readValue d (naturalOf? (1 <<< bits))

/-- Reads a number of times. -/
def readMany {α : Type} (read : Read α) : Nat → Read (List α)
  | 0 => return []
  | count + 1 => do
    let a ← read
    return a :: (← readMany read count)

/-- Reads an array. -/
def readArray {α : Type} (d : Data) (read : Read α) : Read (List α) :=
  d.resolve fun
    | .array count => readMany read count
    | _ => throw unexpected

/-- Reads an entry of a map from texts to texts. -/
def readTextEntry (d : Data) : Read (String × String) := do
  let key ← readText d
  return (key, ← readText d)

/-- Reads a map from texts to texts, in the order of its entries. -/
def readTextMap (d : Data) : Read (List (String × String)) :=
  d.resolve fun
    | .map count => readMany (readTextEntry d) count
    | _ => throw unexpected

/-! ## Records -/

/-- The fields of a record: their names, and the numbers of those that a map and an array may do
without. -/
structure Shape where
  names : List String
  optionalInMap : List Nat
  optionalInArray : List Nat

namespace Shape

/-- The number of the field that a key names. The outer result is missing for an item that is no
key, the inner one for a key of no field. -/
def fieldOf? (s : Shape) : Item → Option (Option Nat)
  | .text name => some (s.names.idxOf? name)
  | .bytes name => some ((Utf8.decode? name).bind s.names.idxOf?)
  | .natural n => some (if n < s.names.length then some n else none)
  | _ => none

/-- Whether all fields are among the given ones or may be missing. -/
def isComplete (s : Shape) (given missing : List Nat) : Bool :=
  (List.range s.names.length).all fun i => given.contains i || missing.contains i

/-- Reads the entries of a map into a draft of the record. `field` reads the field of a number
into the draft. No field may be given twice. -/
def readEntries {σ : Type} (s : Shape) (d : Data) (field : Nat → σ → Read σ) :
    Nat → List Nat → σ → Read σ
  | 0, given, draft => if s.isComplete given s.optionalInMap then return draft else throw unexpected
  | count + 1, given, draft => do
    match ← readValue d s.fieldOf? with
    | none =>
      d.skip
      readEntries s d field count given draft
    | some i =>
      if given.contains i then throw unexpected
      else
        let draft ← field i draft
        readEntries s d field count (i :: given) draft

/-- Reads the elements of an array of some size into a draft of the record, field by field.
Elements after the last field are left unread. -/
def readElements {σ : Type} (s : Shape) (field : Nat → σ → Read σ) (size : Nat) :
    List Nat → σ → Read σ
  | [], draft => return draft
  | i :: rest, draft => do
    if i < size then
      let draft ← field i draft
      readElements s field size rest draft
    else if s.optionalInArray.contains i then readElements s field size rest draft
    else throw unexpected

/-- Reads a record, starting from a draft without fields. -/
def read {σ : Type} (s : Shape) (d : Data) (field : Nat → σ → Read σ) (draft : σ) : Read σ :=
  d.resolve fun
    | .map count => s.readEntries d field count [] draft
    | .array count => s.readElements field count (List.range s.names.length) draft
    | _ => throw unexpected

end Shape

end GeoDb

end GeoPolicy
