import GeoPolicy.Error
import GeoPolicy.Text.Utf8

/-!
# The data section of a location database

Data is a sequence of items. An item begins with a control byte that tells its kind and size; maps
and arrays are followed by their members, and a pointer stands for the item at another place.

## Main definitions

* `GeoDb.Data` — the bytes of a section.
* `GeoDb.Read` — a read that moves along a section.
* `GeoDb.Item`, `GeoDb.Data.item` — the items, and the read of one.
* `GeoDb.Data.resolve` — reads the item that is meant, along pointers.
* `GeoDb.Data.skip` — passes over items of any kind.
-/

namespace GeoPolicy

namespace GeoDb

/-- A part of a file that holds items. Places are counted from its start. -/
structure Data where
  file : ByteArray
  start : Nat

/-- A read at the current place, which it moves to the place after what it reads. -/
abbrev Read := StateT Nat (Except DatabaseFailure)

/-- An item. Maps and arrays are given by the number of their members, which follow. -/
inductive Item where
  | pointer (target : Nat)
  | text (content : String)
  | bytes (content : List UInt8)
  /-- An unsigned number of up to 64 bits. -/
  | natural (value : Nat)
  /-- An unsigned number of up to 128 bits. -/
  | wide (value : Nat)
  | integer (value : Int)
  /-- A floating-point number, whose value does not matter here. -/
  | real
  | bool (value : Bool)
  | map (count : Nat)
  | array (count : Nat)
  deriving DecidableEq, Repr

/-! ## Items -/

/-- The number of the given bytes, the most significant first, on top of the bits before. -/
def numberOf (bits : Nat) (bytes : List UInt8) : Nat :=
  bytes.foldl (fun n b => n * 256 + b.toNat) bits

namespace Data

/-- Some bytes. -/
def bytes (d : Data) (count : Nat) : Read (List UInt8) := do
  let place ← get
  let first := d.start + place
  if first + count ≤ d.file.size then
    set (place + count)
    return (d.file.extract first (first + count)).data.toList
  else
    throw (.invalid "unexpected end of data")

/-- The number in some bytes, on top of the bits before. -/
def number (d : Data) (bits count : Nat) : Read Nat := do
  return numberOf bits (← d.bytes count)

/-- The kind and size at the start of an item. Kinds above seven take a second byte, and sizes
above 28 further ones. -/
def control (d : Data) : Read (Nat × Nat) := do
  let first ← d.number 0 1
  let kind ← if first / 32 = 0 then (fun n => (n + 7) % 256) <$> d.number 0 1 else pure (first / 32)
  let size := first % 32
  if kind = 0 ∨ size < 29 then
    return (kind, size)
  else
    let more ← d.number 0 (size - 28)
    return (kind, more + if size = 29 then 29 else if size = 30 then 285 else 65821)

/-- An unsigned number of at most `limit` bytes. -/
def unsigned (d : Data) (name : String) (limit size : Nat) : Read Nat :=
  if size ≤ limit then d.number 0 size else throw (.invalid s!"{name} of size {size}")

/-- A floating-point number, which takes exactly `width` bytes. -/
def real (d : Data) (name : String) (width size : Nat) : Read Item := do
  let _ ← d.bytes size
  if size = width then return .real else throw (.invalid s!"{name} of size {size}")

/-- The place that a pointer names. Its size holds the number of further bytes and, but for the
longest form, the most significant bits. -/
def pointer (d : Data) (size : Nat) : Read Item := do
  let count := size / 8 % 4 + 1
  let target ← d.number (if count = 4 then 0 else size % 8) count
  return .pointer (target + if count = 2 then 2048 else if count = 3 then 526336 else 0)

/-- A text of some bytes. -/
def text (d : Data) (size : Nat) : Read Item := do
  match Utf8.decode? (← d.bytes size) with
  | some s => return .text s
  | none => throw (.invalid "error decoding string")

/-- The item at the current place. -/
def item (d : Data) : Read Item := do
  let (kind, size) ← d.control
  match kind with
  | 1 => d.pointer size
  | 2 => d.text size
  | 3 => d.real "double" 8 size
  | 4 => return .bytes (← d.bytes size)
  | 5 => return .natural (← d.unsigned "u16" 2 size)
  | 6 => return .natural (← d.unsigned "u32" 4 size)
  | 7 => return .map size
  | 8 =>
    let n ← d.unsigned "int32" 4 size
    return .integer (BitVec.ofNat 32 n).toInt
  | 9 => return .natural (← d.unsigned "u64" 8 size)
  | 10 => return .wide (← d.unsigned "u128" 16 size)
  | 11 => return .array size
  | 14 => if size ≤ 1 then return .bool (size = 1) else throw (.invalid s!"bool of size {size}")
  | 15 => d.real "float" 4 size
  | _ => throw (.invalid s!"Unknown data type: {kind}")

/-! ## Reading along pointers -/

/-- A bound on the number of items that are read one after another. Only pointers that lead back
to themselves exceed it. -/
def bound (d : Data) : Nat :=
  (d.file.size + 1) * (d.file.size + 1)

/-- The failure of pointers that lead back to themselves. -/
def circle : DatabaseFailure :=
  .invalid "pointers lead in a circle"

/-- Reads the item that is meant at the current place, along at most `fuel` pointers. The place
after a pointer is the place after what it stands for. -/
def resolveWithin {α : Type} (d : Data) (read : Item → Read α) : Nat → Read α
  | 0 => throw circle
  | fuel + 1 => do
    match ← d.item with
    | .pointer target =>
      let after ← get
      set target
      let a ← resolveWithin d read fuel
      set after
      return a
    | item => read item

/-- Reads the item that is meant at the current place. -/
def resolve {α : Type} (d : Data) (read : Item → Read α) : Read α :=
  d.resolveWithin read d.bound

/-- Passes over `count` items of any kind, where at most `fuel` items are read one after another.
The members of a map or an array follow it, so they are counted with the items to come. -/
def skipWithin (d : Data) : Nat → Nat → Read Unit
  | _, 0 => return ()
  | 0, _ + 1 => throw circle
  | fuel + 1, count + 1 => do
    match ← d.item with
    | .pointer target =>
      let after ← get
      set target
      skipWithin d fuel 1
      set after
      skipWithin d fuel count
    | .map size => skipWithin d fuel (2 * size + count)
    | .array size => skipWithin d fuel (size + count)
    | _ => skipWithin d fuel count

/-- Passes over one item of any kind. -/
def skip (d : Data) : Read Unit :=
  d.skipWithin d.bound 1

end Data

end GeoDb

end GeoPolicy
