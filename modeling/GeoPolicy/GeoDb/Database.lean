import GeoPolicy.Address
import GeoPolicy.GeoDb.Shape

/-!
# Location databases

A database file holds a binary tree over address bits, a data section with the records that the
tree points to, and at its end a description of both.

## Main definitions

* `GeoDb.Metadata` — the description.
* `GeoDb.Database.ofBytes` — the database in a file.
* `GeoDb.Database.find` — the place of the record of an address.
-/

namespace GeoPolicy

namespace GeoDb

/-! ## Descriptions -/

/-- The parts of a description that tell how to read the tree. -/
structure Metadata where
  ipVersion : Nat := 0
  nodeCount : Nat := 0
  /-- The bits of each of the two records of a node. -/
  recordSize : Nat := 0
  deriving DecidableEq, Repr

namespace Metadata

/-- The fields of a description, all of which have to be there. -/
def shape : Shape where
  names := ["binary_format_major_version", "binary_format_minor_version", "build_epoch",
    "database_type", "description", "ip_version", "languages", "node_count", "record_size"]
  optionalInMap := []
  optionalInArray := []

/-- Reads a field of a description. Fields that do not matter have to be of their kinds, too. -/
def readField (d : Data) (field : Nat) (m : Metadata) : Read Metadata := do
  match field with
  | 0 | 1 =>
    let _ ← readNatural d 16
    return m
  | 2 =>
    let _ ← readNatural d 64
    return m
  | 3 =>
    let _ ← readText d
    return m
  | 4 =>
    let _ ← readTextMap d
    return m
  | 5 => return { m with ipVersion := ← readNatural d 16 }
  | 6 =>
    let _ ← readArray d (readText d)
    return m
  | 7 => return { m with nodeCount := ← readNatural d 32 }
  | _ => return { m with recordSize := ← readNatural d 16 }

/-- Reads a description. -/
def read (d : Data) : Read Metadata :=
  shape.read d (readField d) {}

/-- The bytes that a description comes after. -/
def marker : List UInt8 :=
  [0xab, 0xcd, 0xef] ++ Utf8.encode "MaxMind.com"

/-- The place after the last occurrence of the marker in bytes that start at a place. -/
def startIn? (place : Nat) : List UInt8 → Option Nat
  | [] => none
  | b :: rest =>
    match startIn? (place + 1) rest with
    | some start => some start
    | none => if marker.isPrefixOf (b :: rest) then some (place + marker.length) else none

end Metadata

/-! ## Databases -/

/-- A database: its file, its description and the node where IPv4 addresses start. -/
structure Database where
  file : ByteArray
  metadata : Metadata
  v4Start : Nat := 0

namespace Database

/-- The number of bytes that the tree takes. -/
def treeSize (db : Database) : Nat :=
  db.metadata.nodeCount * db.metadata.recordSize / 4

/-- The data section, which is parted from the tree by sixteen bytes. -/
def data (db : Database) : Data :=
  ⟨db.file, db.treeSize + 16⟩

/-- The record of a node for a bit. Records of 28 bits share the byte between them. -/
def child (db : Database) (node : Nat) (bit : Bool) : Except DatabaseFailure Nat := do
  let tree : Data := ⟨db.file, node * db.metadata.recordSize / 4⟩
  match db.metadata.recordSize with
  | 24 => (tree.number 0 3).run' (bit.toNat * 3)
  | 28 =>
    let middle ← (tree.number 0 1).run' 3
    (tree.number (if bit then middle % 16 else middle / 16) 3).run' (bit.toNat * 4)
  | 32 => (tree.number 0 4).run' (bit.toNat * 4)
  | size => .error (.invalid s!"unknown record size: {size}")

/-- The node that a path leads to. The path ends early where it leaves the tree. -/
def walk (db : Database) : List Bool → Nat → Except DatabaseFailure Nat
  | [], node => .ok node
  | bit :: path, node =>
    if db.metadata.nodeCount ≤ node then .ok node
    else do walk db path (← db.child node bit)

/-- The database in a file. In a tree of IPv6 addresses, IPv4 addresses lie below 96 zero bits. -/
def ofBytes (file : ByteArray) : Except DatabaseFailure Database := do
  match Metadata.startIn? 0 file.data.toList with
  | none => .error (.invalid "Could not find MaxMind DB metadata in file.")
  | some start =>
    let db : Database := { file, metadata := ← (Metadata.read ⟨file, start⟩).run' 0 }
    if db.metadata.ipVersion = 6 then
      return { db with v4Start := ← db.walk (List.replicate 96 false) 0 }
    else
      return db

/-- The place of the record of an address in the data section. -/
def find (db : Database) (a : Address) : Except DatabaseFailure Nat := do
  let start := match a with
    | .v4 _ => db.v4Start
    | .v6 _ => 0
  let node ← db.walk a.path start
  let count := db.metadata.nodeCount
  if node = count then .error .addressNotFound
  else if node < count then .error (.invalid "invalid node in search tree")
  else if node < count + 16 ∨ db.file.size < node - count - 16 then
    .error (.invalid "the MaxMind DB file's search tree is corrupt")
  else return node - count - 16

end Database

end GeoDb

end GeoPolicy
