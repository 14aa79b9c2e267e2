import GeoPolicy.CommandLine.FileSystem
import GeoPolicy.Text.Blank

/-!
# Disks in memory

A file system in memory: directories with files, devices and links in them, to any depth. What a
path leads to is found step by step, and the first step that leads nowhere tells the error.

## Main definitions

* `CommandLine.Device` — files that hold nothing of their own.
* `CommandLine.Entry` — what a directory can have in it.
* `CommandLine.Disk` — entries by the steps that lead to them.
* `CommandLine.Disk.read`, `CommandLine.Disk.write` — access to the content at a path.
-/

namespace GeoPolicy

namespace CommandLine

/-! ## Devices -/

/-- A file that holds nothing of its own. -/
inductive Device where
  /-- Takes everything and gives nothing. -/
  | null
  /-- Takes everything and gives without end. -/
  | endless
  /-- Has room for nothing and gives without end. -/
  | full
  /-- The terminal of the program, which runs without one. -/
  | terminal
  /-- What the program is given to read, which is nothing. -/
  | input
  /-- What the program prints. -/
  | output
  /-- What the program reports. -/
  | errors
  /-- The program itself, which is no text and cannot be changed while it runs. -/
  | program
  deriving DecidableEq, Repr

namespace Device

/-- The first bytes of the program, which are no text. -/
def programStart : ByteArray := ⟨#[0x7F, 0x45, 0x4C, 0x46, 0xFF]⟩

/-- What can be read from a device. -/
def content : Device → Except FileError ByteArray
  | null | input | output | errors => .ok .empty
  | endless | full => .error .outOfMemory
  | terminal => .error .noDevice
  | program => .ok programStart

/-- Whether a device takes a content. -/
def accept : Device → Except FileError Unit
  | null | endless | input | output | errors => .ok ()
  | full => .error .noSpace
  | terminal => .error .noDevice
  | program => .error .textBusy

/-- What a device is to a program. -/
def place {φ : Type} : Device → Place φ
  | output => .output
  | errors => .errors
  | null | endless | full | terminal | input | program => .other

end Device

/-! ## Entries -/

/-- What a directory can have in it. -/
inductive Entry where
  /-- A directory. No file can be made in one that is sealed. -/
  | directory (isSealed : Bool)
  | file (content : ByteArray)
  | device (device : Device)
  /-- What the given steps from the root lead to. That is no link. -/
  | link (steps : List String)

/-- A disk, and the directory that the program runs in. -/
structure Disk where
  /-- The entries by their steps from the root. The first one with the same steps counts. -/
  entries : List (List String × Entry)
  current : List String

namespace Disk

/-- The entry that steps from the root lead to. -/
def get? (d : Disk) (steps : List String) : Option Entry :=
  d.entries.lookup steps

/-- Puts a file in place of any entry with the same steps. -/
def insert (d : Disk) (steps : List String) (content : ByteArray) : Disk :=
  { d with entries := (steps, .file content) :: d.entries.filter (·.1 ≠ steps) }

/-- Whether a path can go on from an entry. -/
def isDirectory (d : Disk) (steps : List String) : Bool :=
  match d.get? steps with
  | some (.directory _) => true
  | _ => false

/-- Whether a file is there or can be made there. -/
def takes (d : Disk) (steps : List String) : Bool :=
  match d.get? steps, d.get? steps.dropLast with
  | some (.file _), _ | none, some (.directory false) => true
  | _, _ => false

/-- What a file holds. -/
def content? (d : Disk) (steps : List String) : Option ByteArray :=
  match d.get? steps with
  | some (.file content) => some content
  | _ => none

/-! ## Paths -/

/-- The most bytes that a name may take. -/
def nameLimit : Nat := 255

/-- The most bytes that a path may take. -/
def pathLimit : Nat := 4095

/-- The steps to what a name in a directory stands for. -/
def target (d : Disk) (here : List String) (name : String) : List String :=
  match d.get? (here ++ [name]) with
  | some (.link steps) => steps
  | _ => here ++ [name]

/-- Where a step from an entry leads, whether or not there is something. -/
def resolve (d : Disk) (here : List String) (step : String) : Except FileError (List String) :=
  if !d.isDirectory here then .error .notDirectory
  else if step = "." then .ok here
  else if step = ".." then .ok here.dropLast
  else if nameLimit < step.utf8ByteSize then .error .nameTooLong
  else .ok (d.target here step)

/-- One step from an entry to another. -/
def enter (d : Disk) (here : List String) (step : String) : Except FileError (List String) := do
  let next ← d.resolve here step
  match d.get? next with
  | some (.directory _) | some (.file _) | some (.device _) => return next
  | some (.link _) | none => throw .notFound

/-- The steps of a path. Several slashes count as one. -/
def steps (path : String) : List String :=
  ((Text.splitAt '/' path.toList).map String.ofList).filter (· ≠ "")

/-- The entry that a path starts from. -/
def start (d : Disk) (path : String) : List String :=
  if path.toList.head? = some '/' then [] else d.current

/-- The entry that steps of a path lead to. -/
def follow (d : Disk) (path : String) (steps : List String) : Except FileError (List String) :=
  if path = "" then .error .notFound
  else if pathLimit < path.utf8ByteSize then .error .nameTooLong
  else steps.foldlM d.enter (d.start path)

/-- Whether a path can only name a directory. -/
def endsWithSlash (path : String) : Bool :=
  path.toList.getLast? == some '/'

/-! ## Access -/

/-- The content at a path. -/
def read (d : Disk) (path : String) : Except FileError ByteArray := do
  let here ← d.follow path (steps path)
  if !d.isDirectory here && endsWithSlash path then throw .notDirectory
  match d.get? here with
  | some (.file content) => return content
  | some (.device device) => device.content
  | some (.directory _) => throw .isDirectory
  | some (.link _) | none => throw .notFound

/-- What a content is written to that is written under a name in a directory: a device, or a file
that is there or can be made. -/
def writableIn (d : Disk) (here : List String) (name : String) :
    Except FileError (List String) := do
  let next ← d.resolve here name
  match d.get? next with
  | some (.device _) => return next
  | some (.directory _) => throw .isDirectory
  | some (.file _) | some (.link _) | none =>
    if d.takes next then return next else throw .notFound

/-- What a content is written to that is written at a path. -/
def writable (d : Disk) (path : String) : Except FileError (List String) := do
  let here ← d.follow path (steps path).dropLast
  match (steps path).getLast? with
  | none => throw .isDirectory
  | some name =>
    if !d.isDirectory here then throw .notDirectory
    else if endsWithSlash path then throw .isDirectory
    else d.writableIn here name

/-- Writes a content at a path. -/
def write (d : Disk) (path : String) (content : ByteArray) : Except FileError Unit × Disk :=
  match d.writable path with
  | .error cause => (.error cause, d)
  | .ok steps =>
    match d.get? steps with
    | some (.device device) => (device.accept, d)
    | _ => (.ok (), d.insert steps content)

/-- What a path leads to. -/
def place (d : Disk) (path : String) : Place (List String) :=
  match d.writable path with
  | .error _ => .other
  | .ok steps =>
    match d.get? steps with
    | some (.device device) => device.place
    | _ => .file steps

instance : FileSystem Disk (List String) where
  read := read
  write := write
  place := place
  content? := content?

end Disk

end CommandLine

end GeoPolicy
