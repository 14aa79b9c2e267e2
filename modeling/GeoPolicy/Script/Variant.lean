import GeoPolicy.Policy
import GeoPolicy.Script.Line
import GeoPolicy.Synthesis

/-!
# Script variants

A script comes in three variants: `iptables` rules on `ipset` sets, one `iptables` rule for each
range, and `nft` statements on interval sets. A variant fixes how many ranges a region gets and
which lines install them.

## Main definitions

* `Script.Variant` — the three variants.
* `Script.Variant.ofPolicy` — the variant that a policy asks for.
* `Script.Variant.body` — the lines that install given ranges.
-/

namespace GeoPolicy

namespace Script

/-- A way to install ranges. -/
inductive Variant where
  /-- Rules of `iptables` on sets of `ipset`. -/
  | addressSets
  /-- A rule of `iptables` for each range. -/
  | singleRules
  /-- Statements of `nft`. -/
  | nftables
  deriving DecidableEq, Repr

/-- How many ranges a region gets in each family. -/
structure RangeCounts where
  v4 : Nat
  v6 : Nat
  deriving DecidableEq, Repr

/-- The ranges of one region. -/
structure RegionRanges where
  region : String
  v4 : List AddressRange
  v6 : List AddressRange
  deriving DecidableEq, Repr

namespace Variant

/-- How many members of its sequences a region gets. Single rules are tried one after another, so
there are fewer of them. -/
def counts : Variant → RangeCounts
  | addressSets => ⟨45, 30⟩
  | singleRules => ⟨20, 15⟩
  | nftables => ⟨45, 30⟩

/-- The name of a variant in the closing report. -/
def label : Variant → String
  | addressSets => "iptables + ipset"
  | singleRules => "iptables"
  | nftables => "nftables"

/-- The variant that a policy asks for. Backends without scripts are refused. -/
def ofPolicy (p : Policy) : Except Error Variant :=
  match p.backend with
  | .nftables => .ok nftables
  | .iptables => .ok (if p.useAddressSet then addressSets else singleRules)
  | other => .error (.unsupportedBackend other)

/-! ## Parts of a body -/

/-- The families that a policy is about. -/
def families (p : Policy) : List AddressFamily :=
  if p.useIPv6 then [.v4, .v6] else [.v4]

/-- The checks that come before any `iptables` statement. -/
def preflight (p : Policy) : List Line :=
  (if p.useIPv6 then [.warnWithoutIPv6] else []) ++
    (if p.useAddressSet then [.requireIpset, .blank] else [])

/-- Makes the chain of a family and empties it. -/
def freshChain (family : AddressFamily) : List Line :=
  [.createChain family, .flushChain family]

/-- Makes the set of a family and empties it. -/
def freshSet (family : AddressFamily) : List Line :=
  [.createSet family, .flushSet family]

/-- Calls the chains from the input chains. -/
def links (p : Policy) : List Line :=
  [.blank, .comment "Insert into INPUT chain if not present"] ++ (families p).map .linkChain

/-- The section of a region that adds its ranges to the sets. -/
def setSection (r : RegionRanges) : List Line :=
  [.heading .sets r.region] ++ r.v4.map (.addToSet .v4 ·.cidr) ++
    r.v6.map (.addToSet .v6 ·.cidr) ++ [.blank]

/-- The section of a region with a rule for each range. -/
def ruleSection (verb : String) (r : RegionRanges) : List Line :=
  [.heading .rules r.region] ++ r.v4.map (.matchRange .v4 ·.cidr verb) ++
    r.v6.map (.matchRange .v6 ·.cidr verb)

/-- The section of a region that adds its ranges in one statement for each family. -/
def bulkSection (p : Policy) (r : RegionRanges) : List Line :=
  [.heading .bulk r.region, .addElements .v4 (r.v4.map (·.cidr))] ++
    (if p.useIPv6 then [.addElements .v6 (r.v6.map (·.cidr))] else []) ++ [.blank]

/-! ## Bodies -/

/-- The lines of the variant with sets. -/
def setBody (p : Policy) (regions : List RegionRanges) : List Line :=
  preflight p ++
    [.comment "Create and populate optimized ipsets"] ++ (families p).flatMap freshSet ++
    [.blank] ++
    regions.flatMap setSection ++
    [.comment "Apply iptables rules referencing the sets"] ++
    (families p).flatMap (fun f => freshChain f ++ [.matchSet f p.action.filterVerb]) ++
    links p

/-- The lines of the variant with a rule for each range. -/
def ruleBody (p : Policy) (regions : List RegionRanges) : List Line :=
  preflight p ++ (families p).flatMap freshChain ++
    regions.flatMap (ruleSection p.action.filterVerb) ++ links p

/-- The lines of the `nft` variant. -/
def nftBody (p : Policy) (regions : List RegionRanges) : List Line :=
  [.blank, .addTable, .flushTable] ++ (families p).map .addNftSet ++ [.blank] ++
    regions.flatMap (bulkSection p) ++
    [.addInputChain] ++ (families p).map (.addNftRule · p.action.nftVerb)

/-- The lines that install the given ranges under the settings of a policy. -/
def body (variant : Variant) (p : Policy) (regions : List RegionRanges) : List Line :=
  match variant with
  | addressSets => setBody p regions
  | singleRules => ruleBody p regions
  | nftables => nftBody p regions

end Variant

end Script

end GeoPolicy
