import GeoPolicy.Proofs.Script.Sections
import GeoPolicy.Proofs.Script.Verbs

/-!
# Rules of generated scripts

All rules of a generated script are for one backend and have one verb, the one of the policy's
action. There is at least one rule.

## Main definitions

* `Action.verb` — the verb of an action for a backend.
* `Script.Variant.backend` — the backend that a variant is for.
-/

namespace GeoPolicy

/-- The verb of an action in the rules of a backend. -/
def Action.verb (action : Action) : Backend → String
  | .nftables => action.nftVerb
  | _ => action.filterVerb

theorem Action.verb_injective {a b : Action} {backend : Backend}
    (h : a.verb backend = b.verb backend) : a = b := by
  revert h
  cases a <;> cases b <;> cases backend <;> decide

namespace Script

/-! ## Variants and policies -/

namespace Variant

/-- The backend that a variant is for. -/
def backend : Variant → Backend
  | addressSets | singleRules => .iptables
  | nftables => .nftables

/-- A variant is chosen by the backend, and with `iptables` by the use of sets. -/
theorem ofPolicy_eq_ok_iff {p : Policy} {variant : Variant} :
    ofPolicy p = .ok variant ↔ p.backend = variant.backend ∧
      (p.backend = .iptables → (p.useAddressSet = true ↔ variant = .addressSets)) := by
  unfold ofPolicy
  cases variant <;> cases p.backend <;> cases p.useAddressSet <;> simp [backend]

/-- Every policy with an implemented backend has a variant. -/
theorem exists_ofPolicy_eq_ok {p : Policy} (h : p.backend.isImplemented = true) :
    ∃ variant, ofPolicy p = .ok variant := by
  unfold ofPolicy
  cases hb : p.backend with
  | iptables | nftables => exact ⟨_, rfl⟩
  | ebpf | ebtables | ipfw =>
    rw [hb] at h
    exact absurd h Bool.false_ne_true

theorem counts_v4_pos (variant : Variant) : 0 < variant.counts.v4 := by
  cases variant <;> decide

theorem counts_v6_pos (variant : Variant) : 0 < variant.counts.v6 := by
  cases variant <;> decide

theorem counts_le (variant : Variant) :
    variant.counts.v4 ≤ 2007 ∧ variant.counts.v6 ≤ 2007 := by
  cases variant <;> decide

end Variant

theorem effectiveRegions_ne_nil (p : Policy) : p.effectiveRegions ≠ [] := by
  unfold Policy.effectiveRegions
  split
  · exact List.cons_ne_nil _ _
  · next h => exact h

/-- A region has IPv4 ranges, and the first one is the first member of its sequence. -/
theorem exists_regionRanges_v4_eq_cons (variant : Variant) (p : Policy) (region : String) :
    ∃ more, (Compiler.regionRanges variant p region).v4 =
      ⟨Synthesis.v4Cidr (Synthesis.seed region) 0, region, .v4⟩ :: more :=
  exists_synthesize_eq_cons region .v4 variant.counts_v4_pos

/-! ## Rules of the parts -/

theorem filterMap_verb?_header (t : Timestamp) (p : Policy) :
    (Compiler.header t p).filterMap Line.verb? = [] := rfl

theorem filterMap_verb?_footer (variant : Variant) (p : Policy) :
    (Compiler.footer variant p).filterMap Line.verb? = [] := rfl

theorem filterMap_verb?_opening (variant : Variant) (p : Policy) :
    (variant.opening p).filterMap Line.verb? = [] := by
  cases hv6 : p.useIPv6 <;> cases hset : p.useAddressSet <;> cases variant <;>
    simp [Variant.opening, Variant.preflight, Variant.families, Variant.freshSet,
      Variant.freshChain, Line.verb?, hv6, hset]

theorem filterMap_verb?_regionSection (variant : Variant) (p : Policy) (r : RegionRanges) :
    (variant.regionSection p r).filterMap Line.verb? =
      if variant = .singleRules then
        (r.v4 ++ r.v6).map fun _ => (.iptables, p.action.filterVerb)
      else [] := by
  cases variant with
  | addressSets =>
    rw [if_neg (by decide), List.filterMap_eq_nil_iff]
    simp only [Variant.regionSection, Variant.setSection, List.forall_mem_append,
      List.forall_mem_map, List.forall_mem_singleton]
    exact ⟨⟨⟨rfl, fun _ _ => rfl⟩, fun _ _ => rfl⟩, rfl⟩
  | singleRules =>
    have hrules : ∀ family (ranges : List AddressRange),
        (ranges.map fun x => Line.matchRange family x.cidr p.action.filterVerb).filterMap
          Line.verb? = ranges.map fun _ => (.iptables, p.action.filterVerb) := by
      intro family ranges
      rw [List.filterMap_map]
      exact congrFun List.filterMap_eq_map ranges
    rw [if_pos rfl, Variant.regionSection, Variant.ruleSection, List.filterMap_append,
      List.filterMap_append, hrules, hrules, List.map_append]
    rfl
  | nftables =>
    rw [if_neg (by decide), List.filterMap_eq_nil_iff]
    simp only [Variant.regionSection, Variant.bulkSection, List.forall_mem_append,
      List.forall_mem_cons]
    refine ⟨⟨⟨rfl, rfl, List.forall_mem_nil _⟩, ?_⟩, rfl, List.forall_mem_nil _⟩
    split
    · exact List.forall_mem_singleton.2 rfl
    · exact List.forall_mem_nil _

theorem filterMap_verb?_closing (variant : Variant) (p : Policy) :
    (variant.closing p).filterMap Line.verb? =
      if variant = .singleRules then []
      else (Variant.families p).map fun _ => (variant.backend, p.action.verb variant.backend) := by
  cases hv6 : p.useIPv6
  all_goals
    have hfamilies := Variant.families.eq_1 p
    rw [hv6] at hfamilies
    cases variant
    all_goals
      simp only [Variant.closing, Variant.links, hfamilies]
      rfl

/-- All rules have the verb of the action. -/
theorem eq_of_mem_filterMap_verb? {t : Timestamp} {variant : Variant} {p : Policy}
    {rule : Backend × String} (h : rule ∈ (Compiler.script t variant p).filterMap Line.verb?) :
    rule = (variant.backend, p.action.verb variant.backend) := by
  rw [Compiler.script, Variant.body_eq] at h
  simp only [List.filterMap_append, filterMap_verb?_header, filterMap_verb?_opening,
    filterMap_verb?_closing, filterMap_verb?_footer, List.filterMap_flatMap,
    filterMap_verb?_regionSection, List.nil_append, List.append_nil, List.mem_append,
    List.mem_flatMap] at h
  obtain ⟨r, -, h⟩ | h := h
  · split at h
    · next hvariant =>
      obtain ⟨x, -, rfl⟩ := List.mem_map.1 h
      rw [hvariant]
      rfl
    · exact absurd h List.not_mem_nil
  · split at h
    · exact absurd h List.not_mem_nil
    · obtain ⟨family, -, rfl⟩ := List.mem_map.1 h
      rfl

/-- There is a rule, for the IPv4 set or for the first range. -/
theorem filterMap_verb?_script_ne_nil (t : Timestamp) (variant : Variant) (p : Policy) :
    (Compiler.script t variant p).filterMap Line.verb? ≠ [] := by
  rw [Compiler.script, Variant.body_eq]
  simp only [List.filterMap_append, filterMap_verb?_closing, List.filterMap_flatMap,
    filterMap_verb?_regionSection]
  by_cases hvariant : variant = .singleRules
  · obtain ⟨code, codes, hcodes⟩ := List.exists_cons_of_ne_nil (effectiveRegions_ne_nil p)
    obtain ⟨more, hmore⟩ := exists_regionRanges_v4_eq_cons variant p code.text
    rw [Compiler.ranges, Policy.targets, hcodes, List.map_cons, List.map_cons, List.flatMap_cons,
      if_pos hvariant, hmore]
    simp
  · have hfamilies : Variant.families p ≠ [] := by
      unfold Variant.families
      split <;> exact List.cons_ne_nil _ _
    simp [hvariant, hfamilies]

/-- The rules read from a generated script. -/
theorem readVerbs_script (t : Timestamp) (variant : Variant) (p : Policy) :
    readVerbs (text (Compiler.script t variant p)) ≠ [] ∧
      ∀ rule ∈ readVerbs (text (Compiler.script t variant p)),
        rule = (variant.backend, p.action.verb variant.backend) := by
  rw [readVerbs_text _ (wellFormed_script t variant p)]
  exact ⟨filterMap_verb?_script_ne_nil t variant p, fun rule => eq_of_mem_filterMap_verb?⟩

end Script

end GeoPolicy
