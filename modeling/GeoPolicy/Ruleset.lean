import GeoPolicy.Action

/-!
# Rulesets

A ruleset tells, region by region, which ranges a policy installs. It is the structured companion
of a script.

## Main definitions

* `RegionRule` — the ranges of one region.
* `Ruleset` — the rules of a policy, in policy order.
* `Ruleset.get?` — the rule of a region.
* `Ruleset.rangeCount` — the number of ranges in all rules.
-/

namespace GeoPolicy

/-- Who made a rule. -/
inductive RuleSource where
  /-- The compiler of this library. -/
  | compiled
  /-- Another generator. -/
  | remote
  deriving DecidableEq, Repr

/-- All ranges that a policy installs for one region. -/
structure RegionRule where
  region : String
  /-- The IPv4 ranges, followed by the IPv6 ranges. -/
  cidrs : List String
  action : Action
  /-- The position of the region in the policy, counted from one. -/
  priority : Nat
  source : RuleSource
  deriving DecidableEq, Repr

/-- The rules of a policy, one for each region. -/
structure Ruleset where
  rules : List RegionRule
  deriving DecidableEq, Repr

namespace Ruleset

/-- The ruleset without rules. -/
def empty : Ruleset := ⟨[]⟩

/-- The number of rules. -/
def size (r : Ruleset) : Nat :=
  r.rules.length

/-- The first rule of a region, where the case of ASCII letters does not matter. -/
def get? (r : Ruleset) (region : String) : Option RegionRule :=
  r.rules.find? fun rule => Text.asciiLower rule.region == Text.asciiLower region

/-- The number of ranges in all rules. -/
def rangeCount (r : Ruleset) : Nat :=
  (r.rules.flatMap (·.cidrs)).length

/-- The same rules, said to come from another generator. -/
def markRemote (r : Ruleset) : Ruleset :=
  ⟨r.rules.map ({ · with source := .remote })⟩

end Ruleset

/-- A script together with the ruleset that describes it. -/
structure CompiledPolicy where
  script : String
  ruleset : Ruleset
  deriving DecidableEq, Repr

end GeoPolicy
