import GeoPolicy.Action
import GeoPolicy.Distinct
import GeoPolicy.Region

/-!
# Policies

A policy is the whole input of the script compiler. A draft collects settings in any order, with
region codes still as text; building it checks the codes.

## Main definitions

* `Policy` — regions, backend, action and two switches.
* `Policy.effectiveRegions` — the regions a script is about.
* `Backend.parse`, `Action.parse` — settings as a person writes them.
* `PolicyDraft` — settings that are not checked yet.
* `PolicyDraft.Call`, `PolicyDraft.ofCalls` — a draft put together call by call.
* `PolicyDraft.build` — the policy of a draft.
-/

namespace GeoPolicy

/-! ## Settings -/

/-- The backend a person wrote, or the error that quotes the text. -/
def Backend.parse (s : String) : Except Error Backend :=
  match Backend.parse? s with
  | some backend => .ok backend
  | none => .error (.invalidBackend s)

/-- The action a person wrote, or the error that quotes the text. -/
def Action.parse (s : String) : Except Error Action :=
  match Action.parse? s with
  | some action => .ok action
  | none => .error (.invalidAction s)

/-! ## Policies -/

/-- The input of the script compiler. Regions keep the order they were named in. -/
structure Policy where
  regions : List RegionCode := []
  backend : Backend := .iptables
  action : Action := .block
  useAddressSet : Bool := true
  useIPv6 : Bool := false
  regions_nodup : regions.Nodup := by decide
  deriving DecidableEq, Repr

namespace Policy

/-- The policy with every setting at its default. -/
def default : Policy := {}

/-- The regions a script is about: the default region where the policy names none. -/
def effectiveRegions (p : Policy) : List RegionCode :=
  if p.regions = [] then [RegionCode.default] else p.regions

/-- The effective regions as texts. -/
def targets (p : Policy) : List String :=
  p.effectiveRegions.map RegionCode.text

end Policy

/-! ## Drafts -/

/-- Settings of a policy whose region codes are not checked yet. -/
structure PolicyDraft where
  regions : List String := []
  backend : Backend := .iptables
  action : Action := .block
  useAddressSet : Bool := true
  useIPv6 : Bool := false
  deriving DecidableEq, Repr

namespace PolicyDraft

/-- Adds one region. -/
def addRegion (d : PolicyDraft) (code : String) : PolicyDraft :=
  { d with regions := d.regions ++ [code] }

/-- Adds regions in order. -/
def addRegions (d : PolicyDraft) (codes : List String) : PolicyDraft :=
  { d with regions := d.regions ++ codes }

/-- A call that changes a draft. -/
inductive Call where
  | region (code : String)
  | regions (codes : List String)
  | backend (backend : Backend)
  | action (action : Action)
  | useAddressSet (enabled : Bool)
  | useIPv6 (enabled : Bool)
  deriving DecidableEq, Repr

/-- A draft after a call: regions are added to those that are there, other settings replaced. -/
def after (d : PolicyDraft) : Call → PolicyDraft
  | .region code => d.addRegion code
  | .regions codes => d.addRegions codes
  | .backend backend => { d with backend := backend }
  | .action action => { d with action := action }
  | .useAddressSet enabled => { d with useAddressSet := enabled }
  | .useIPv6 enabled => { d with useIPv6 := enabled }

/-- The draft that calls make of the one with defaults. -/
def ofCalls (calls : List Call) : PolicyDraft :=
  calls.foldl after {}

/-- The policy of a draft, each region once. The first text that is no region code fails it. -/
def build (d : PolicyDraft) : Except Error Policy := do
  let codes ← d.regions.mapM RegionCode.parse
  return {
    regions := distinct codes
    backend := d.backend
    action := d.action
    useAddressSet := d.useAddressSet
    useIPv6 := d.useIPv6
    regions_nodup := distinct_nodup codes }

/-- A draft with the settings of a policy. -/
def ofPolicy (p : Policy) : PolicyDraft where
  regions := p.regions.map RegionCode.text
  backend := p.backend
  action := p.action
  useAddressSet := p.useAddressSet
  useIPv6 := p.useIPv6

end PolicyDraft

end GeoPolicy
