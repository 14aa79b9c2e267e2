import GeoPolicy.Proofs.Policy
import GeoPolicy.Proofs.Script.Rules
import GeoPolicy.Proofs.Wire

/-!
# Requests for policies

The request for a policy loses nothing: written as JSON, read back and checked again, it asks for
a policy that compiles to the same script and ruleset.
-/

namespace GeoPolicy

/-! ## Names -/

theorem Backend.parse_name (b : Backend) : Backend.parse b.name = .ok b := by
  rw [Backend.parse, Backend.parse?_name]

theorem Action.parse_name (a : Action) : Action.parse a.name = .ok a := by
  have hname : Action.parse? a.name = some a := by
    cases a <;> decide
  rw [Action.parse, hname]

/-! ## Effective regions -/

/-- A policy whose regions are spelled out. -/
def Policy.withEffectiveRegions (p : Policy) : Policy :=
  { p with regions := p.effectiveRegions, regions_nodup := p.effectiveRegions_nodup }

theorem Policy.effectiveRegions_withEffectiveRegions (p : Policy) :
    p.withEffectiveRegions.effectiveRegions = p.effectiveRegions :=
  if_neg (Script.effectiveRegions_ne_nil p)

theorem Compiler.compile_withEffectiveRegions (t : Timestamp) (p : Policy) :
    compile t p.withEffectiveRegions = compile t p :=
  compile_congr p.effectiveRegions_withEffectiveRegions rfl rfl rfl rfl t

/-! ## Requests -/

namespace GenerateRequest

theorem toPolicy_ofPolicy (p : Policy) : (ofPolicy p).toPolicy = .ok p.withEffectiveRegions := by
  have hbuild := PolicyDraft.build_of_codes (d := {
    regions := p.targets
    backend := p.backend
    action := p.action
    useAddressSet := p.useAddressSet
    useIPv6 := p.useIPv6 }) (RegionCode.mapM_parse_text p.effectiveRegions)
  have hdistinct : distinct p.effectiveRegions = p.effectiveRegions :=
    distinct_eq_self p.effectiveRegions_nodup
  simp only [hdistinct] at hbuild
  unfold toPolicy ofPolicy
  dsimp only
  rw [Backend.parse_name, Action.parse_name]
  exact hbuild

/-- The body of a request is read as the request. -/
theorem decode_compact_toJson (r : GenerateRequest) : decode ofJson? r.toJson.compact = .ok r :=
  decode_compact r.isPlain_toJson r.ofJson?_toJson

/-- The request for a policy loses nothing. -/
theorem toPolicy_decode_ofPolicy (p : Policy) :
    ∃ q, (decode ofJson? (ofPolicy p).toJson.compact >>= toPolicy) = .ok q ∧
      q.regions = p.effectiveRegions ∧ q.backend = p.backend ∧ q.action = p.action ∧
      q.useAddressSet = p.useAddressSet ∧ q.useIPv6 = p.useIPv6 ∧
      ∀ t, Compiler.compile t q = Compiler.compile t p := by
  refine ⟨p.withEffectiveRegions, ?_, rfl, rfl, rfl, rfl, rfl,
    fun t => Compiler.compile_withEffectiveRegions t p⟩
  rw [decode_compact_toJson]
  simp only [bind, Except.bind]
  exact toPolicy_ofPolicy p

end GenerateRequest

end GeoPolicy
