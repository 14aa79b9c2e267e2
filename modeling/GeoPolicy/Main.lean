import GeoPolicy.CommandLine.Run
import Std.Time.DateTime.Timestamp

/-!
# The program

The command line on the disk of the machine. No server can be reached from here.
-/

namespace GeoPolicy

namespace CommandLine

/-- A system error by its number, which may be given as a negative one. Its words are replaced
where the library has its own. -/
def systemError (number : UInt32) (words : String) : FileError :=
  let number := number.toInt32.toInt.natAbs
  ([.notFound, .noDevice, .outOfMemory, .notDirectory, .isDirectory, .textBusy, .noSpace,
      .nameTooLong].find? fun
    | .system known _ => known = number
    | .custom _ => false).getD (.system number words)

/-- A file error as the system tells it. -/
def fileErrorOf : IO.Error → FileError
  | .noFileOrDirectory _ number words => systemError number words
  | .inappropriateType _ number words => systemError number words
  | .permissionDenied _ number words => systemError number words
  | .invalidArgument _ number words => systemError number words
  | .alreadyExists _ number words => systemError number words
  | .resourceExhausted _ number words => systemError number words
  | .noSuchThing _ number words => systemError number words
  | .otherError number words => systemError number words
  | .userError words => .custom words
  | _ => .notFound

/-- Prints an error and gives the exit code for it. -/
def fail (e : Error) : IO UInt32 := do
  IO.eprint (errorLine e)
  return 1

/-- Puts a text into a file on the disk, down to the device, so that a lack of room shows. -/
def writeThrough (path text : String) : IO Unit :=
  IO.FS.withFile path .write fun handle => do
    handle.putStr text
    handle.flush

/-- Carries out a plan on the disk. What is printed goes out at once, since a file can be the output
of the program. -/
def carryOut (success : Bool) : List Step → IO UInt32
  | [] => return if success then 0 else 1
  | .print text :: rest => do
    IO.print text
    (← IO.getStdout).flush
    carryOut success rest
  | .write path text :: rest => do
    match ← (writeThrough path text).toBaseIO with
    | .ok () => carryOut success rest
    | .error e => fail (.file (fileErrorOf e))

/-- What a command can consult on this machine. -/
def surroundingsOf (command : Command) : IO Surroundings := do
  let now := (← Std.Time.Timestamp.now).val
  let content ← match command.inputFile? with
    | none => pure (.error .notFound)
    | some path =>
      match ← (IO.FS.readBinFile path).toBaseIO with
      | .ok bytes => pure (.ok bytes)
      | .error e => pure (.error (fileErrorOf e))
  return {
    now := { seconds := now.second.val, nanos := now.nano.val.toNat }
    transport := .none
    read := fun _ => content }

/-- Runs the program with arguments on the disk. -/
def runOnDisk (args : List String) : IO UInt32 := do
  match Command.ofArguments args with
  | .error .usage =>
    IO.eprint helpText
    return 2
  | .error .help =>
    IO.print helpText
    return 0
  | .error .version =>
    IO.print versionLine
    return 0
  | .ok command =>
    match command.plan (← surroundingsOf command) with
    | .ok plan => carryOut plan.success plan.steps
    | .error e => fail e

end CommandLine

end GeoPolicy

/-- Runs the program. -/
def main (args : List String) : IO UInt32 :=
  GeoPolicy.CommandLine.runOnDisk args
