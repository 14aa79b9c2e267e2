import GeoPolicy.GenerateRequest
import GeoPolicy.Json
import GeoPolicy.Location
import GeoPolicy.RangeTable
import GeoPolicy.Synthesis

/-!
# JSON forms

How the values of the library are written in JSON and read from it. Each type has a pair
`toJson` and `ofJson?`; texts of whole documents are read with `decode`.

## Main definitions

* `AddressRange`, `RangeTag`, `RegionRule`, `Ruleset`, `CompiledPolicy`, `PolicyDraft`,
  `GenerateRequest`, `Location` — each with `toJson` and `ofJson?`.
* `decode` — a whole document of one of these types.
-/

namespace GeoPolicy

open Json

/-- The value that a JSON text holds. -/
def decode {α : Type} (ofJson? : Json → Option α) (s : String) : Except Error α :=
  match (Json.parse? s).bind ofJson? with
  | some a => .ok a
  | none => .error (.json .malformed)

/-! ## Names -/

namespace Action

/-- An action is written as its name. -/
def toJson (a : Action) : Json :=
  ofString a.name

/-- An action is read as a case without data. -/
def ofJson? (v : Json) : Option Action :=
  (variant? v).bind ofDocument?

end Action

namespace Backend

/-- A backend is written as its name. -/
def toJson (b : Backend) : Json :=
  ofString b.name

/-- A backend is read from a text as a person writes it. -/
def ofJson? (v : Json) : Option Backend :=
  (string? v).bind parse?

end Backend

namespace AddressFamily

/-- The case name of a family. -/
def caseName : AddressFamily → String
  | v4 => "V4"
  | v6 => "V6"

/-- The family with a case name. -/
def ofCaseName? : String → Option AddressFamily
  | "V4" => some v4
  | "V6" => some v6
  | _ => none

/-- A family is written as its case name. -/
def toJson (f : AddressFamily) : Json :=
  ofString f.caseName

/-- A family is read as a case without data. -/
def ofJson? (v : Json) : Option AddressFamily :=
  (variant? v).bind ofCaseName?

end AddressFamily

namespace RuleSource

/-- The case name of a source. -/
def caseName : RuleSource → String
  | compiled => "local"
  | remote => "remote"

/-- The source with a case name. -/
def ofCaseName? : String → Option RuleSource
  | "local" => some compiled
  | "remote" => some remote
  | _ => none

/-- A source is written as its case name. -/
def toJson (s : RuleSource) : Json :=
  ofString s.caseName

/-- A source is read as a case without data. -/
def ofJson? (v : Json) : Option RuleSource :=
  (variant? v).bind ofCaseName?

end RuleSource

/-! ## Ranges and rules -/

namespace AddressRange

/-- The JSON form of a range. -/
def toJson (r : AddressRange) : Json :=
  ofMembers [("cidr", ofString r.cidr), ("region", ofString r.region), ("family", r.family.toJson)]

/-- The range of a JSON form. -/
def ofJson? (v : Json) : Option AddressRange := do
  match ← fields? ["cidr", "region", "family"] v with
  | [cidr, region, family] =>
    return {
      cidr := ← required? string? cidr
      region := ← required? string? region
      family := ← required? AddressFamily.ofJson? family }
  | _ => none

end AddressRange

namespace RangeTag

/-- The JSON form of a tag. -/
def toJson (t : RangeTag) : Json :=
  ofMembers [("region", ofString t.region), ("action", t.action.toJson)]

/-- The tag of a JSON form. -/
def ofJson? (v : Json) : Option RangeTag := do
  match ← fields? ["region", "action"] v with
  | [region, action] =>
    return {
      region := ← required? string? region
      action := ← required? Action.ofJson? action }
  | _ => none

end RangeTag

namespace RegionRule

/-- The JSON form of a rule. -/
def toJson (r : RegionRule) : Json :=
  ofMembers [("region", ofString r.region), ("cidrs", ofStrings r.cidrs),
    ("action", r.action.toJson), ("priority", ofNat r.priority),
    ("sourceType", r.source.toJson)]

/-- A priority: a number of 32 bits. -/
def priority? (v : Json) : Option Nat :=
  (nat? v).filter (· < 0x100000000)

/-- The rule of a JSON form. A rule without a source was compiled here. -/
def ofJson? (v : Json) : Option RegionRule := do
  match ← fields? ["region", "cidrs", "action", "priority", "sourceType"] v with
  | [region, cidrs, action, priority, source] =>
    return {
      region := ← required? string? region
      cidrs := ← required? (list? string?) cidrs
      action := ← required? Action.ofJson? action
      priority := ← required? priority? priority
      source := ← withDefault? .compiled RuleSource.ofJson? source }
  | _ => none

end RegionRule

namespace Ruleset

/-- A ruleset is written as the array of its rules. -/
def toJson (r : Ruleset) : Json :=
  .array (r.rules.map RegionRule.toJson)

/-- The ruleset of a JSON form. -/
def ofJson? (v : Json) : Option Ruleset :=
  (list? RegionRule.ofJson? v).map Ruleset.mk

end Ruleset

namespace CompiledPolicy

/-- The JSON form of a compiled policy. -/
def toJson (p : CompiledPolicy) : Json :=
  ofMembers [("script", ofString p.script), ("ruleset", p.ruleset.toJson)]

/-- The compiled policy of a JSON form. -/
def ofJson? (v : Json) : Option CompiledPolicy := do
  match ← fields? ["script", "ruleset"] v with
  | [script, ruleset] =>
    return {
      script := ← required? string? script
      ruleset := ← required? Ruleset.ofJson? ruleset }
  | _ => none

end CompiledPolicy

/-! ## Settings -/

namespace PolicyDraft

/-- The JSON form of a policy file. -/
def toJson (d : PolicyDraft) : Json :=
  ofMembers [("regions", ofStrings d.regions), ("backend", d.backend.toJson),
    ("action", d.action.toJson), ("use_address_set", .bool d.useAddressSet),
    ("use_ipv6", .bool d.useIPv6)]

/-- The policy file of a JSON form. Every field has a default. -/
def ofJson? (v : Json) : Option PolicyDraft := do
  match ← fields? ["regions", "backend", "action", "use_address_set", "use_ipv6"] v with
  | [regions, backend, action, useAddressSet, useIPv6] =>
    return {
      regions := ← withDefault? [] (list? string?) regions
      backend := ← withDefault? .iptables Backend.ofJson? backend
      action := ← withDefault? .block Action.ofJson? action
      useAddressSet := ← withDefault? true bool? useAddressSet
      useIPv6 := ← withDefault? false bool? useIPv6 }
  | _ => none

end PolicyDraft

namespace RegionField

/-- A single code is written as a text, a list as an array. -/
def toJson : RegionField → Json
  | one code => ofString code
  | many codes => ofStrings codes

/-- The region field of a JSON form. -/
def ofJson? : Json → Option RegionField
  | .text content => content.map one
  | v => (list? string? v).map many

end RegionField

namespace GenerateRequest

/-- The JSON form of a request. Settings that are left out are not written. -/
def toJson (r : GenerateRequest) : Json :=
  ofMembers ([("country", r.country.map RegionField.toJson), ("type", r.backend.map ofString),
    ("action", r.action.map ofString), ("use_ipset", r.useIpset.map .bool),
    ("use_ipv6", r.useIPv6.map .bool)].filterMap fun (name, v) => v.map (name, ·))

/-- The request of a JSON form. -/
def ofJson? (v : Json) : Option GenerateRequest := do
  match ← fields? ["country", "type", "action", "use_ipset", "use_ipv6"] v with
  | [country, backend, action, useIpset, useIPv6] =>
    return {
      country := ← withDefault? none (optional? RegionField.ofJson?) country
      backend := ← withDefault? none (optional? string?) backend
      action := ← withDefault? none (optional? string?) action
      useIpset := ← withDefault? none (optional? bool?) useIpset
      useIPv6 := ← withDefault? none (optional? bool?) useIPv6 }
  | _ => none

end GenerateRequest

/-! ## Locations -/

namespace Location

/-- The JSON form of a location. -/
def toJson (l : Location) : Json :=
  ofMembers [("ip", ofString l.address.text), ("country", ofString l.country),
    ("code", ofString l.code), ("region", ofString l.region), ("city", ofString l.city),
    ("isp", ofString l.isp)]

/-- The location of a JSON form. -/
def ofJson? (v : Json) : Option Location := do
  match ← fields? ["ip", "country", "code", "region", "city", "isp"] v with
  | [address, country, code, region, city, isp] =>
    return {
      address := ← required? (fun v => (string? v).bind Address.parse?) address
      country := ← required? string? country
      code := ← required? string? code
      region := ← required? string? region
      city := ← required? string? city
      isp := ← required? string? isp }
  | _ => none

end Location

end GeoPolicy
