import GeoPolicy.CommandLine.Command
import GeoPolicy.CommandLine.FileSystem
import GeoPolicy.Diagnostics
import GeoPolicy.GeoDb
import GeoPolicy.PolicyFile
import GeoPolicy.Registry
import GeoPolicy.Remote

/-!
# Running commands

A command is first turned into a plan: texts to print and files to write, in order, and whether the
answer is good. All other failures come before the plan, so that only a file that cannot be written
breaks a plan off.

## Main definitions

* `CommandLine.Surroundings` — what a command can consult.
* `CommandLine.Plan` — what a command is going to do.
* `CommandLine.Command.plan` — the plan of a command.
* `CommandLine.Outcome`, `CommandLine.run` — arguments carried out on a file system.
-/

namespace GeoPolicy

namespace CommandLine

/-- What a command can consult. -/
structure Surroundings where
  now : Timestamp
  transport : Http.Transport
  read : String → Except FileError ByteArray

/-- A step of a plan. -/
inductive Step where
  | print (text : String)
  | write (path text : String)
  deriving DecidableEq, Repr

/-- What a command is going to do, and whether its answer is good. -/
structure Plan where
  steps : List Step
  success : Bool
  deriving DecidableEq, Repr

/-- A text with a line feed after it. -/
def line (text : String) : String :=
  text ++ "\n"

/-! ## Policies -/

/-- The policy of settings. Regions that are given replace those of the file, and the switches can
only narrow the one and widen the other. -/
def PolicySettings.policy (s : PolicySettings) (around : Surroundings) : Except Error Policy := do
  let base ← match s.file with
    | none => pure Policy.default
    | some path =>
      match around.read path with
      | .ok bytes => Policy.ofFile bytes
      | .error cause => throw (.file cause)
  PolicyDraft.build {
    regions := if s.regions.isEmpty then base.regions.map RegionCode.text else s.regions
    backend := s.backend.getD base.backend
    action := s.action.getD base.action
    useAddressSet := base.useAddressSet && !s.noIpset
    useIPv6 := base.useIPv6 || s.ipv6 }

/-! ## Plans -/

/-- The time that a script is to tell. -/
def timestamp (around : Surroundings) : Option String → Except Error Timestamp
  | none => .ok around.now
  | some text =>
    match Timestamp.parse text with
    | .ok t => .ok t
    | .error fault => .error (.config (.timestamp text fault))

/-- The plan of `compile`. -/
def compilePlan (around : Surroundings) (settings : PolicySettings)
    (output ruleset time : Option String) : Except Error Plan := do
  let p ← settings.policy around
  let compiled ← Compiler.compile (← timestamp around time) p
  let script := match output with
    | none => .print compiled.script
    | some path => .write path compiled.script
  let rules := ruleset.toList.map (.write · compiled.ruleset.toJson.pretty)
  return { steps := script :: rules, success := true }

/-- The plan of `match`. -/
def matchPlan (around : Surroundings) (address : String) (settings : PolicySettings) :
    Except Error Plan := do
  let p ← settings.policy around
  let compiled ← Compiler.compile around.now p
  match ← (RangeTable.ofRuleset compiled.ruleset).1.matchText address with
  | some tag =>
    return { steps := [.print (line s!"{address} -> {tag.region} ({tag.action.name})")],
             success := true }
  | none => return { steps := [.print (line s!"{address} -> no match")], success := false }

/-- The lines that tell a comparison. -/
def reportLines (r : ParityReport) : List String :=
  [s!"local:  {r.digestA}", s!"remote: {r.digestB}"] ++
    if r.isMatch then ["Functional parity verified."]
    else
      ["Functional logic mismatch:"] ++
        (Parity.missingLines r.normalizedA r.normalizedB).map ("- " ++ ·) ++
        (Parity.missingLines r.normalizedB r.normalizedA).map ("+ " ++ ·)

/-- The plan of `verify`. -/
def verifyPlan (around : Surroundings) (server : String) (settings : PolicySettings) :
    Except Error Plan := do
  let p ← settings.policy around
  let remote := Generator.remote around.transport server
  let (report, _) ← Parity.verify p (.compiler around.now) remote
  return {
    steps := [.print (String.join ((reportLines report).map line))]
    success := report.isMatch }

/-- The source of locations that is asked for: a database before a registry. -/
def openLookup (around : Surroundings) (database registry : Option String) :
    Except Error Lookup :=
  match database with
  | some path =>
    match around.read path with
    | .ok bytes => GeoDb.lookupOfBytes bytes
    | .error cause => .error (.database (.file cause))
  | none => .ok (Registry.lookup around.transport (registry.getD Registry.defaultServer))

/-- The plan of `lookup`. -/
def lookupPlan (around : Surroundings) (address : Address) (database registry : Option String) :
    Except Error Plan := do
  let lookup ← openLookup around database registry
  let location ← lookup address
  return { steps := [.print (line location.toJson.pretty)], success := true }

/-- The lines that tell a check. -/
def checkLines (c : Diagnostics.Check) : List String :=
  let verdict := if c.success then "PASS" else "FAIL"
  s!"[{verdict}] {c.name}" :: c.notes.map ("    " ++ ·)

/-- The plan of `diagnose`. -/
def diagnosePlan (around : Surroundings) (server database : Option String) :
    Except Error Plan := do
  let lookup ← openLookup around database none
  let report :=
    Diagnostics.run around.now lookup (server.map (Generator.remote around.transport))
  return {
    steps := [.print (String.join ((report.checks.flatMap checkLines).map line))]
    success := report.allPassed }

/-- The line that tells a backend. Names are filled up to ten characters. -/
def backendLine (b : Backend) : String :=
  let name := String.ofList (b.name.toList.rightpad 10 ' ')
  let status := if b.isImplemented then "implemented" else "not implemented"
  s!"{name} {status}"

/-- The plan of `backends`. -/
def backendsPlan : Plan where
  steps := [.print (String.join ((Backend.all.map backendLine).map line))]
  success := true

namespace Command

/-- The plan of a command. -/
def plan (around : Surroundings) : Command → Except Error Plan
  | compile settings output ruleset time => compilePlan around settings output ruleset time
  | matchAddress address settings => matchPlan around address settings
  | verify server settings => verifyPlan around server settings
  | lookup address database registry => lookupPlan around address database registry
  | diagnose server database => diagnosePlan around server database
  | backends => .ok backendsPlan

/-- The file that a command reads, if it reads one. -/
def inputFile? : Command → Option String
  | compile settings _ _ _ | matchAddress _ settings | verify _ settings => settings.file
  | lookup _ database _ | diagnose _ database => database
  | backends => none

end Command

/-! ## Outcomes -/

/-- What the program leaves behind. -/
structure Outcome (σ : Type) where
  code : Nat := 0
  stdout : String := ""
  stderr : String := ""
  files : σ

/-- The line that tells an error. -/
def errorLine (e : Error) : String :=
  line s!"Error: {e.message}"

/-- The version line. -/
def versionLine : String := "geoguard 0.1.0\n"

/-- The explanation of the program. -/
def helpText : String :=
  "Usage: geoguard <compile|match|verify|lookup|diagnose|backends> [OPTIONS]\n"

/-- The outcome of arguments that make no command to run. -/
def Refusal.outcome {σ : Type} (files : σ) : Refusal → Outcome σ
  | usage => { code := 2, stderr := helpText, files }
  | help => { stdout := helpText, files }
  | version => { stdout := versionLine, files }

namespace Outcome

variable {σ φ : Type}

/-- A text printed. -/
def print (o : Outcome σ) (text : String) : Outcome σ :=
  { o with stdout := o.stdout ++ text }

/-- A text reported. -/
def report (o : Outcome σ) (text : String) : Outcome σ :=
  { o with stderr := o.stderr ++ text }

/-- A text shown, if it has been written to what the program prints or reports. -/
def deliver (o : Outcome σ) (text : String) : Place φ → Outcome σ
  | .output => o.print text
  | .errors => o.report text
  | .file _ | .other => o

end Outcome

section FileSystems

variable {σ φ : Type} [FileSystem σ φ]

/-- Carries out the rest of a plan. -/
def Plan.finish (success : Bool) (o : Outcome σ) : List Step → Outcome σ
  | [] => { o with code := if success then 0 else 1 }
  | .print text :: rest => finish success (o.print text) rest
  | .write path text :: rest =>
    match FileSystem.write o.files path text.toUTF8 with
    | (.ok (), files) =>
      finish success ({ o with files }.deliver text (FileSystem.place o.files path)) rest
    | (.error cause, files) =>
      { { o with files }.report (errorLine (.file cause)) with code := 1 }

/-- Runs the program with arguments on a file system. -/
def run (now : Timestamp) (transport : Http.Transport) (files : σ) (args : List String) :
    Outcome σ :=
  match Command.ofArguments args with
  | .error refusal => refusal.outcome files
  | .ok command =>
    match command.plan { now, transport, read := FileSystem.read files } with
    | .ok plan => plan.steps |> Plan.finish plan.success { files }
    | .error e => { code := 1, stderr := errorLine e, files }

end FileSystems

end CommandLine

end GeoPolicy
