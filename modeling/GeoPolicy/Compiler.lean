import GeoPolicy.Ruleset
import GeoPolicy.Script.Variant
import GeoPolicy.Timestamp

/-!
# The policy compiler

Compiling turns a policy into a script that installs it and into the ruleset that describes the
same ranges.

## Main definitions

* `Compiler.regionRanges` — the ranges that a variant installs for a region.
* `Compiler.script` — the lines of a script around the body of its variant.
* `Compiler.compile` — the script and the ruleset of a policy.
-/

namespace GeoPolicy

namespace Compiler

open Script

/-- The ranges that a variant installs for a region. -/
def regionRanges (variant : Variant) (p : Policy) (region : String) : RegionRanges where
  region := region
  v4 := synthesize region .v4 variant.counts.v4
  v6 := if p.useIPv6 then synthesize region .v6 variant.counts.v6 else []

/-- The ranges that a variant installs for each region of a policy. -/
def ranges (variant : Variant) (p : Policy) : List RegionRanges :=
  p.targets.map (regionRanges variant p)

/-- The lines that a script starts with. -/
def header (t : Timestamp) (p : Policy) : List Line :=
  let targets := String.intercalate ", " p.targets
  let protocols := if p.useIPv6 then "IPv4, IPv6" else "IPv4"
  [.interpreter,
    .comment "GeoGuard Automated Security Policy",
    .comment s!"Targets: {targets} | Engine: {p.backend.name}",
    .comment s!"Protocols: {protocols} | Total Regions: {p.targets.length}",
    .comment s!"Generated: {t.text}",
    .blank,
    .requireCommand p.backend.command]

/-- The lines that a script ends with. -/
def footer (variant : Variant) (p : Policy) : List Line :=
  [.blank,
    .report p.targets.length (variant.label ++ if p.useIPv6 then " (Dual-Stack)" else "")]

/-- All lines of a script. -/
def script (t : Timestamp) (variant : Variant) (p : Policy) : List Line :=
  header t p ++ variant.body p (ranges variant p) ++ footer variant p

/-- The rule that describes the ranges of the region at a position. -/
def rule (action : Action) (r : RegionRanges) (index : Nat) : RegionRule where
  region := r.region
  cidrs := (r.v4 ++ r.v6).map (·.cidr)
  action := action
  priority := index + 1
  source := .compiled

/-- The ruleset that describes the ranges of all regions. -/
def ruleset (action : Action) (regions : List RegionRanges) : Ruleset :=
  ⟨regions.mapIdx fun index r => rule action r index⟩

/-- The script and the ruleset of a policy. The script's header tells the given time. -/
def compile (t : Timestamp) (p : Policy) : Except Error CompiledPolicy := do
  let variant ← Variant.ofPolicy p
  return {
    script := Script.text (script t variant p)
    ruleset := ruleset p.action (ranges variant p) }

end Compiler

end GeoPolicy
