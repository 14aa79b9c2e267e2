import GeoPolicy.Digest
import GeoPolicy.Compiler
import GeoPolicy.Log

/-!
# Parity of scripts

Two scripts are on a par when the same statements take effect in the same order. Comments, blank
lines and lines that only print something may differ.

## Main definitions

* `Parity.isSignificant` — the lines that count.
* `Parity.significantLines`, `Parity.normalize` — a script reduced to them.
* `ParityReport` — two reduced scripts side by side.
* `Parity.missingLines` — the lines of one text that another one lacks.
* `Generator`, `Parity.verify` — makers of scripts, and their comparison on a policy.
-/

namespace GeoPolicy

namespace Parity

/-! ## Reduction -/

/-- Whether a line without outer blanks takes effect: it is not empty, no comment, and its first
word is no printing command. -/
def isSignificant (line : List Char) : Bool :=
  line != [] && line.head? != some '#' &&
    Text.firstWord line != "echo".toList && Text.firstWord line != "printf".toList

/-- The lines of a script that take effect, without their outer blanks. -/
def significantLines (script : String) : List (List Char) :=
  ((Text.lines script.toList).map Text.trimChars).filter isSignificant

/-- The significant lines of a script, with line feeds between them. -/
def normalize (script : String) : String :=
  String.ofList (List.intercalate ['\n'] (significantLines script))

/-- The digest of a reduced script. -/
def digest (script : String) : String :=
  Digest.hex (normalize script)

/-- The lines of `a` that are no lines of `b`, in order. -/
def missingLines (a b : String) : List String :=
  let other := Text.lines b.toList
  ((Text.lines a.toList).filter (!other.contains ·)).map String.ofList

end Parity

/-! ## Reports -/

/-- Two reduced scripts. -/
structure ParityReport where
  normalizedA : String
  normalizedB : String
  deriving DecidableEq, Repr

namespace ParityReport

/-- The report on two scripts. -/
def compare (a b : String) : ParityReport :=
  ⟨Parity.normalize a, Parity.normalize b⟩

/-- Whether the scripts are on a par. -/
def isMatch (r : ParityReport) : Bool :=
  r.normalizedA == r.normalizedB

/-- The digest of the first script. -/
def digestA (r : ParityReport) : String :=
  Digest.hex r.normalizedA

/-- The digest of the second script. -/
def digestB (r : ParityReport) : String :=
  Digest.hex r.normalizedB

end ParityReport

/-! ## Generators -/

/-- A maker of scripts for policies, with the name it has in logs. -/
structure Generator where
  name : String
  generate : Policy → Except Error CompiledPolicy

namespace Generator

/-- The compiler of this library, with a fixed time for the headers of its scripts. -/
def compiler (t : Timestamp) : Generator where
  name := "local"
  generate := Compiler.compile t

/-- A generator without a name of its own. -/
def ofFunction (generate : Policy → Except Error CompiledPolicy) : Generator where
  name := "generator"
  generate := generate

end Generator

namespace Parity

/-- The log line for a comparison of two named generators. -/
def record (nameA nameB : String) (r : ParityReport) : LogRecord :=
  if r.isMatch then
    ⟨.info, s!"parity verified: {nameA} == {nameB}"⟩
  else
    let countA := (Text.lines r.normalizedA.toList).length
    let countB := (Text.lines r.normalizedB.toList).length
    ⟨.warn, s!"parity mismatch: {nameA} ({countA} lines) != {nameB} ({countB} lines)"⟩

/-- Compares the scripts that two generators make for a policy. The first failure of a generator
is the failure of the comparison; a difference is a report like any other. -/
def verify (p : Policy) (a b : Generator) : Except Error (ParityReport × LogRecord) := do
  let policyA ← a.generate p
  let policyB ← b.generate p
  let report := ParityReport.compare policyA.script policyB.script
  return (report, record a.name b.name report)

end Parity

end GeoPolicy
