import GeoPolicy.Error

/-!
# File systems

What a program needs of a file system: contents are read and written at paths, absolute or not, with
any directories on the way. A path leads to a file, which may still have to be made, or to what the
program itself prints or reports, or to neither. Two paths can lead to the same file.

## Main definitions

* `CommandLine.Place` — what a path leads to.
* `CommandLine.FileSystem` — reading and writing at paths.
* `CommandLine.LawfulFileSystem` — what is written stays, and a write changes one file only.
-/

namespace GeoPolicy

namespace CommandLine

/-- What a path leads to, where files are told apart by `φ`. -/
inductive Place (φ : Type) where
  /-- A file that is there or can be made. -/
  | file (file : φ)
  /-- What the program prints. -/
  | output
  /-- What the program reports. -/
  | errors
  /-- A thing that keeps no content, or nothing at all. -/
  | other
  deriving DecidableEq, Repr

/-- Whether a path leads to what the program prints. -/
def Place.isOutput {φ : Type} : Place φ → Bool
  | output => true
  | file _ | errors | other => false

/-- A file system with states in `σ` and files that are told apart by `φ`. -/
class FileSystem (σ : Type) (φ : outParam Type) where
  /-- What can be read at a path. -/
  read : σ → String → Except FileError ByteArray
  /-- Puts a content in place of what is at a path. Even if this fails, it can leave a trace. -/
  write : σ → String → ByteArray → Except FileError Unit × σ
  /-- What a path leads to. -/
  place : σ → String → Place φ
  /-- What a file holds, if it is there. -/
  content? : σ → φ → Option ByteArray

/-- The laws of a file system. -/
class LawfulFileSystem (σ : Type) {φ : Type} [FileSystem σ φ] : Prop where
  /-- What is read at a path is what the file there holds. -/
  content?_of_read {s : σ} {path : String} {file : φ} {content : ByteArray} :
    FileSystem.place s path = .file file → FileSystem.read s path = .ok content →
      FileSystem.content? s file = some content
  /-- All paths lead to where they led before a write. -/
  place_write (s : σ) (path : String) (content : ByteArray) (other : String) :
    FileSystem.place (FileSystem.write s path content).2 other = FileSystem.place s other
  /-- What is written is what the file holds. -/
  content?_write {s : σ} {path : String} {file : φ} {content : ByteArray} :
    FileSystem.place s path = .file file → (FileSystem.write s path content).1 = .ok () →
      FileSystem.content? (FileSystem.write s path content).2 file = some content
  /-- A write changes no other file, even if it fails. -/
  content?_write_of_ne {s : σ} {path : String} {file : φ} (content : ByteArray) :
    FileSystem.place s path ≠ .file file →
      FileSystem.content? (FileSystem.write s path content).2 file = FileSystem.content? s file

end CommandLine

end GeoPolicy
