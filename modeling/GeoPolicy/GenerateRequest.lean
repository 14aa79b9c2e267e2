import GeoPolicy.Policy

/-!
# Generate requests

The settings of a policy as another generator is asked for them. Each one may be left out, and
texts are checked when the request is turned into a policy.

## Main definitions

* `GenerateRequest` — the settings of a request.
* `GenerateRequest.ofPolicy` — the request for a policy, with all settings given.
* `GenerateRequest.toPolicy` — the policy that a request asks for.
-/

namespace GeoPolicy

/-- The regions of a request: a single code, or a list. -/
inductive RegionField where
  | one (code : String)
  | many (codes : List String)
  deriving DecidableEq, Repr

/-- The codes in a region field. -/
def RegionField.codes : RegionField → List String
  | one code => [code]
  | many codes => codes

/-- A request for a policy. -/
structure GenerateRequest where
  country : Option RegionField := none
  backend : Option String := none
  action : Option String := none
  useIpset : Option Bool := none
  useIPv6 : Option Bool := none
  deriving DecidableEq, Repr

namespace GenerateRequest

/-- The request for a policy. Its regions are the effective ones. -/
def ofPolicy (p : Policy) : GenerateRequest where
  country := some (.many p.targets)
  backend := some p.backend.name
  action := some p.action.name
  useIpset := some p.useAddressSet
  useIPv6 := some p.useIPv6

/-- The policy that a request asks for. A request without an action allows, as only an explicit
action blocks. The backend is checked first, then the action, then the regions. -/
def toPolicy (r : GenerateRequest) : Except Error Policy := do
  let backend ← match r.backend with
    | some name => Backend.parse name
    | none => .ok .iptables
  let action ← match r.action with
    | some name => Action.parse name
    | none => .ok .allow
  PolicyDraft.build {
    regions := (r.country.map RegionField.codes).getD []
    backend := backend
    action := action
    useAddressSet := r.useIpset.getD true
    useIPv6 := r.useIPv6.getD false }

end GenerateRequest

end GeoPolicy
