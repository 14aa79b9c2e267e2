import GeoPolicy.Location
import GeoPolicy.Parity

/-!
# Diagnostics

Three self checks: a lookup of a well-known address, a compilation, and the parity of a remote
generator. A failure is recorded in its own check and does not keep the others from running.

## Main definitions

* `Diagnostics.Check` — the outcome of a check.
* `Diagnostics.Report` — the outcomes and the log lines of a run.
* `Diagnostics.run` — runs all checks.
-/

namespace GeoPolicy

namespace Diagnostics

/-- The outcome of a check. -/
structure Check where
  name : String
  success : Bool
  notes : List String
  deriving DecidableEq, Repr

/-- The outcomes of all checks in order, and what was logged meanwhile. -/
structure Report where
  checks : List Check
  logs : List LogRecord
  deriving DecidableEq, Repr

/-- Whether every check succeeded. -/
def Report.allPassed (r : Report) : Bool :=
  r.checks.all (·.success)

/-- An address that is known to lie in the United States. -/
def probe : Address := .ofOctets [8, 8, 8, 8]

/-- A policy that blocks regions in both families with sets. -/
def dualStackBlock (regions : List String) : Except Error Policy :=
  PolicyDraft.build { regions, useIPv6 := true }

/-- Looks the probe up; its country has to be the United States. -/
def checkLookup (lookup : Lookup) : Check :=
  let start := s!"Querying {probe.text}..."
  match lookup probe with
  | .ok l =>
    { name := "ip_lookup"
      success := l.code = "US"
      notes := [start, s!"Response: {l.city}, {l.country} ({l.code})"] }
  | .error e =>
    { name := "ip_lookup", success := false, notes := [start, s!"Error: {e.message}"] }

/-- Compiles a policy; the script has to be long enough and to mention the IPv6 set. -/
def checkGeneration (t : Timestamp) : Check :=
  let start := "Generating internal script for [US, CN] with IPv6 enabled..."
  match dualStackBlock ["US", "CN"] >>= Compiler.compile t with
  | .ok policy =>
    let count := (Text.lines policy.script.toList).length
    { name := "local_generation"
      success := Text.contains "geoguard_v6".toList policy.script.toList && decide (50 < count)
      notes := [start, s!"Generated {count} lines."] }
  | .error e =>
    { name := "local_generation", success := false, notes := [start, s!"Error: {e.message}"] }

/-- Compares the scripts of a remote generator and of this library. -/
def checkParity (t : Timestamp) (remote : Option Generator) : Check × List LogRecord :=
  let check (success : Bool) (notes : List String) : Check :=
    { name := "remote_parity", success, notes }
  match remote with
  | none => (check false ["No remote generator configured, skipped."], [])
  | some remote =>
    let start := s!"Comparing local engine vs {remote.name}..."
    match dualStackBlock ["US"] >>= (Parity.verify · (.compiler t) remote) with
    | .ok (report, record) =>
      if report.isMatch then (check true [start, "Functional parity verified."], [record])
      else (check false [start, "Functional logic mismatch."], [record])
    | .error e => (check false [start, s!"Error: {e.message}"], [])

/-- The log line for the outcome of a check. -/
def Check.record (c : Check) : LogRecord :=
  if c.success then ⟨.info, s!"diagnostic {c.name} passed"⟩
  else ⟨.warn, s!"diagnostic {c.name} failed"⟩

/-- Runs all checks with the given collaborators. -/
def run (t : Timestamp) (lookup : Lookup) (remote : Option Generator) : Report :=
  let (parity, logs) := checkParity t remote
  let checks := [checkLookup lookup, checkGeneration t, parity]
  { checks, logs := logs ++ checks.map Check.record }

end Diagnostics

end GeoPolicy
