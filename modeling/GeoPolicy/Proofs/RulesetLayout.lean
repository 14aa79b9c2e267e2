import GeoPolicy.Proofs.Policy
import GeoPolicy.Proofs.Script.Rules
import GeoPolicy.Proofs.Synthesis.Repetition
import Mathlib.Data.List.Forall2

/-!
# The layout of rulesets

The ruleset of a policy has one rule for each region, in order. A rule holds a fixed number of IPv4
texts, and after them a fixed number of IPv6 texts where the policy is about them. The texts are the
first ones of the sequences of the region, so the numbers decide everything: the two variants with
sets have the same ruleset, and the one without has a beginning of it.

## Main definitions

* `AddressFamily.ofText` — the family in whose notation a range is written.
* `RegionRule.part` — the texts of a rule in the notation of a family.
* `RegionRule.FollowsLayout` — what a policy says about the rule at a position.
* `Script.Variant.count` — how many ranges of a family a region gets.
-/

namespace GeoPolicy

/-! ## Notations -/

/-- The family in whose notation a range is written. There are colons in IPv6 texts only. -/
def AddressFamily.ofText (cidr : String) : AddressFamily :=
  if ':' ∈ cidr.toList then .v6 else .v4

/-- The texts of a rule in the notation of a family, in order. -/
def RegionRule.part (rule : RegionRule) (family : AddressFamily) : List String :=
  rule.cidrs.filter (AddressFamily.ofText · = family)

/-- Whether a policy asks for a rule of `iptables` for each range. -/
def Policy.UsesSingleRules (p : Policy) : Prop :=
  p.backend = .iptables ∧ p.useAddressSet = false

instance (p : Policy) : Decidable p.UsesSingleRules :=
  inferInstanceAs (Decidable (_ ∧ _))

/-- What a policy says about the rule at a position. -/
structure RegionRule.FollowsLayout (p : Policy) (index : Nat) (rule : RegionRule) : Prop where
  priority_eq : rule.priority = index + 1
  action_eq : rule.action = p.action
  source_eq : rule.source = .compiled
  cidrs_eq : rule.cidrs = rule.part .v4 ++ rule.part .v6
  length_v4 : (rule.part .v4).length = if p.UsesSingleRules then 20 else 45
  length_v6 : (rule.part .v6).length =
    if p.useIPv6 then if p.UsesSingleRules then 15 else 30 else 0
  cidrs_nodup : rule.cidrs.Nodup
  denotes_v4 : ∀ cidr ∈ rule.part .v4, ∃ n, Network.parse cidr = .ok n ∧ n.family = .v4
  denotes_v6 : ∀ cidr ∈ rule.part .v6, ∀ n, Network.parse cidr = .ok n → n.family = .v6

namespace Synthesis

open Text

@[simp] theorem ofText_cidr (family : AddressFamily) (seed i : Nat) :
    AddressFamily.ofText (cidr family seed i) = family := by
  cases family with
  | v4 =>
    have hdigits : ∀ n, ':' ∉ Nat.toDigits 10 n := fun n =>
      (isNumeral_toDigits n).not_mem rfl
    have hcolon : ':' ∉ (v4Cidr seed i).toList := by simp [toList_v4Cidr, hdigits]
    exact if_neg hcolon
  | v6 =>
    have hcolon : ':' ∈ (v6Cidr seed i).toList := by simp [toList_v6Cidr]
    exact if_pos hcolon

end Synthesis

namespace Script

/-! ## Counts -/

namespace Variant

/-- How many ranges of a family a region gets. -/
def count (variant : Variant) (p : Policy) : AddressFamily → Nat
  | .v4 => variant.counts.v4
  | .v6 => if p.useIPv6 then variant.counts.v6 else 0

theorem count_le (variant : Variant) (p : Policy) (family : AddressFamily) :
    variant.count p family ≤ 2007 := by
  obtain ⟨hv4, hv6⟩ := variant.counts_le
  cases family with
  | v4 => exact hv4
  | v6 =>
    rw [count]
    split
    · exact hv6
    · exact Nat.zero_le _

theorem counts_eq {variant : Variant} {p : Policy} (h : ofPolicy p = .ok variant) :
    variant.counts = if p.UsesSingleRules then ⟨20, 15⟩ else ⟨45, 30⟩ := by
  obtain ⟨hbackend, hset⟩ := ofPolicy_eq_ok_iff.1 h
  cases variant with
  | addressSets =>
    have hset := (hset hbackend).2 rfl
    exact (if_neg fun hsingle => Bool.false_ne_true (hsingle.2.symm.trans hset)).symm
  | singleRules =>
    have hset : p.useAddressSet = false := by simpa using hset hbackend
    exact (if_pos ⟨hbackend, hset⟩).symm
  | nftables =>
    have hbackend : p.backend ≠ .iptables := by simp [hbackend, backend]
    exact (if_neg fun hsingle => hbackend hsingle.1).symm

end Variant

end Script

namespace Compiler

open Script

/-! ## The texts of a region -/

/-- The texts of a family that a variant installs for a region. -/
def cidrs (variant : Variant) (p : Policy) (region : String) (family : AddressFamily) :
    List String :=
  (List.range (variant.count p family)).map (Synthesis.cidr family (Synthesis.seed region))

theorem ofText_of_mem_cidrs {variant : Variant} {p : Policy} {region cidr : String}
    {family : AddressFamily} (h : cidr ∈ cidrs variant p region family) :
    AddressFamily.ofText cidr = family := by
  obtain ⟨i, -, rfl⟩ := List.mem_map.1 h
  exact Synthesis.ofText_cidr family _ i

section Rules

variable (action : Action) (variant : Variant) (p : Policy) (region : String) (index : Nat)

theorem map_cidr_synthesize (family : AddressFamily) {count : Nat} (h : count ≤ 2007) :
    (synthesize region family count).map (·.cidr) =
      (List.range count).map (Synthesis.cidr family (Synthesis.seed region)) := by
  rw [synthesize_eq_map_range region family h, List.map_map]
  rfl

/-- The section of a region holds its texts by family. -/
theorem of_toSection_regionRanges (family : AddressFamily) :
    (regionRanges variant p region).toSection.of family = cidrs variant p region family := by
  have hcount := variant.count_le p family
  cases family with
  | v4 => exact map_cidr_synthesize region .v4 hcount
  | v6 =>
    show (regionRanges variant p region).v6.map (·.cidr) = _
    unfold regionRanges cidrs
    unfold Variant.count at hcount ⊢
    by_cases hp : p.useIPv6 = true
    · simp only [hp, if_true] at hcount ⊢
      exact map_cidr_synthesize region .v6 hcount
    · simp [hp]

/-- The rule of a region holds its IPv4 texts and then its IPv6 texts. -/
theorem cidrs_rule :
    (rule action (regionRanges variant p region) index).cidrs =
      cidrs variant p region .v4 ++ cidrs variant p region .v6 := by
  rw [← of_toSection_regionRanges, ← of_toSection_regionRanges]
  exact List.map_append

@[simp] theorem part_rule (family : AddressFamily) :
    (rule action (regionRanges variant p region) index).part family =
      cidrs variant p region family := by
  have hsame : ∀ family, (cidrs variant p region family).filter (AddressFamily.ofText · = family) =
      cidrs variant p region family := by
    intro family
    refine List.filter_eq_self.2 fun cidr hcidr => ?_
    simpa using ofText_of_mem_cidrs hcidr
  have hother : ∀ family other, family ≠ other →
      (cidrs variant p region other).filter (AddressFamily.ofText · = family) = [] := by
    intro family other hne
    refine List.filter_eq_nil_iff.2 fun cidr hcidr => ?_
    simpa [ofText_of_mem_cidrs hcidr] using hne.symm
  rw [RegionRule.part, cidrs_rule, List.filter_append]
  cases family with
  | v4 => rw [hsame, hother .v4 .v6 (by decide), List.append_nil]
  | v6 => rw [hsame, hother .v6 .v4 (by decide), List.nil_append]

@[simp] theorem length_cidrs (family : AddressFamily) :
    (cidrs variant p region family).length = variant.count p family := by
  rw [cidrs, List.length_map, List.length_range]

theorem nodup_cidrs (family : AddressFamily) : (cidrs variant p region family).Nodup := by
  rw [cidrs, ← map_cidr_synthesize region family (variant.count_le p family)]
  exact nodup_synthesize region family _

end Rules

/-! ## The rules of a policy -/

theorem rules_ruleset (variant : Variant) (p : Policy) :
    (ruleset p.action (ranges variant p)).rules =
      p.targets.mapIdx fun index region =>
        rule p.action (regionRanges variant p region) index := by
  apply List.ext_getElem
  · simp [ruleset, ranges]
  · intro i _ _
    simp [ruleset, ranges]

/-- Every rule is about a region code. -/
theorem exists_rule_of_mem_rules {variant : Variant} {p : Policy} {r : RegionRule}
    (h : r ∈ (ruleset p.action (ranges variant p)).rules) :
    ∃ code index, r = rule p.action (regionRanges variant p (RegionCode.text code)) index := by
  rw [rules_ruleset] at h
  obtain ⟨index, hindex, rfl⟩ := List.mem_mapIdx.1 h
  obtain ⟨code, -, hcode⟩ := List.mem_map.1 (List.getElem_mem hindex)
  exact ⟨code, index, by rw [hcode]⟩

theorem nodup_targets (p : Policy) : p.targets.Nodup := by
  refine p.effectiveRegions_nodup.map fun r s h => ?_
  exact Synthesis.seed_text_injective (congrArg Synthesis.seed h)

theorem followsLayout_rule {variant : Variant} {p : Policy}
    (h : Variant.ofPolicy p = .ok variant) (region : String) (index : Nat) :
    (rule p.action (regionRanges variant p region) index).FollowsLayout p index where
  priority_eq := rfl
  action_eq := rfl
  source_eq := rfl
  cidrs_eq := by rw [part_rule, part_rule, cidrs_rule]
  length_v4 := by
    rw [part_rule, length_cidrs, Variant.count, Variant.counts_eq h, apply_ite RangeCounts.v4]
  length_v6 := by
    rw [part_rule, length_cidrs, Variant.count, Variant.counts_eq h, apply_ite RangeCounts.v6]
  cidrs_nodup := by
    rw [cidrs_rule]
    refine List.Nodup.append (nodup_cidrs ..) (nodup_cidrs ..) fun cidr hv4 hv6 => ?_
    have hfamily := ofText_of_mem_cidrs hv4
    rw [ofText_of_mem_cidrs hv6] at hfamily
    exact absurd hfamily (by decide)
  denotes_v4 := by
    intro cidr hcidr
    rw [part_rule] at hcidr
    obtain ⟨i, -, rfl⟩ := List.mem_map.1 hcidr
    exact ⟨_, Synthesis.parse_v4Cidr _ i, rfl⟩
  denotes_v6 := by
    intro cidr hcidr n hn
    rw [part_rule] at hcidr
    obtain ⟨i, -, rfl⟩ := List.mem_map.1 hcidr
    exact Synthesis.family_of_parse_cidr hn

/-! ## Two policies -/

section Pairs

variable {v w : Variant} {p q : Policy}

/-- What a ruleset says depends on the variant through the numbers of ranges alone. -/
theorem ruleset_congr (hcounts : w.counts = v.counts) (htargets : q.targets = p.targets)
    (haction : q.action = p.action) (hv6 : q.useIPv6 = p.useIPv6) :
    ruleset q.action (ranges w q) = ruleset p.action (ranges v p) := by
  have hregion : regionRanges w q = regionRanges v p := by
    funext region
    simp [regionRanges, hcounts, hv6]
  rw [ranges, ranges, hregion, htargets, haction]

theorem cidrs_eq_take {family : AddressFamily} {n : Nat}
    (h : w.count q family = min n (v.count p family)) (region : String) :
    cidrs w q region family = (cidrs v p region family).take n := by
  rw [cidrs, cidrs, h, ← List.take_range, List.map_take]

/-- A rule with fewer texts holds the first ones of each part. -/
theorem forall₂_part_take (htargets : q.targets = p.targets) {m n : Nat}
    (hv4 : w.count q .v4 = min m (v.count p .v4)) (hv6 : w.count q .v6 = min n (v.count p .v6)) :
    List.Forall₂ (fun short rule => short.part .v4 = (rule.part .v4).take m ∧
        short.part .v6 = (rule.part .v6).take n)
      (ruleset q.action (ranges w q)).rules (ruleset p.action (ranges v p)).rules := by
  rw [rules_ruleset, rules_ruleset, htargets, List.forall₂_iff_get]
  refine ⟨by simp, fun i hi hi' => ?_⟩
  simp only [List.get_eq_getElem, List.getElem_mapIdx, part_rule]
  exact ⟨cidrs_eq_take hv4 _, cidrs_eq_take hv6 _⟩

end Pairs

/-- The layout of rulesets. A compiled policy has one rule for each of its regions, in order and
without repetition, and each rule follows the layout. A policy that differs in backend and use of
sets alone has the same ruleset, unless it has single rules and the other one has not: then each
part of its rules is a beginning of the other one's part. -/
theorem ruleset_layout_of_compile {t : Timestamp} {p : Policy} {c : CompiledPolicy}
    (h : compile t p = .ok c) :
    c.ruleset.rules.map (·.region) = p.targets ∧ p.targets.Nodup ∧
    (∀ (index : Nat) (rule : RegionRule),
      c.ruleset.rules[index]? = some rule → rule.FollowsLayout p index) ∧
    ∀ (u : Timestamp) (q : Policy), q.backend.isImplemented = true → q.regions = p.regions →
      q.action = p.action → q.useIPv6 = p.useIPv6 → ∃ d, compile u q = .ok d ∧
        ((p.UsesSingleRules ↔ q.UsesSingleRules) → d.ruleset = c.ruleset) ∧
        (¬p.UsesSingleRules → q.UsesSingleRules →
          List.Forall₂ (fun short rule => short.part .v4 = (rule.part .v4).take 20 ∧
            short.part .v6 = (rule.part .v6).take 15) d.ruleset.rules c.ruleset.rules) := by
  obtain ⟨v, hv, rfl⟩ := compile_eq_ok_iff.1 h
  have hlong := Variant.counts_eq hv
  refine ⟨?_, nodup_targets p, fun index rule hrule => ?_, fun u q hq hregions haction hv6 => ?_⟩
  · have hregions := congrArg (List.map Prod.fst) (map_rules_ruleset p.action (ranges v p))
    rw [List.map_map, List.map_map, ranges, List.map_map] at hregions
    exact hregions.trans (List.map_id _)
  · dsimp only at hrule
    rw [rules_ruleset, List.getElem?_mapIdx, Option.map_eq_some_iff] at hrule
    obtain ⟨region, -, rfl⟩ := hrule
    exact followsLayout_rule hv region index
  · obtain ⟨w, hw⟩ := Variant.exists_ofPolicy_eq_ok hq
    have hshort := Variant.counts_eq hw
    have htargets : q.targets = p.targets := by
      rw [Policy.targets, Policy.targets, Policy.effectiveRegions, Policy.effectiveRegions,
        hregions]
    refine ⟨_, compile_eq_ok_iff.2 ⟨w, hw, rfl⟩, fun hsame => ?_, fun hsets hsingle => ?_⟩
    · have hequal : w.counts = v.counts := by simp only [hlong, hshort, hsame]
      exact ruleset_congr hequal htargets haction hv6
    · rw [if_neg hsets] at hlong
      rw [if_pos hsingle] at hshort
      apply forall₂_part_take htargets
      · rw [Variant.count, Variant.count, hlong, hshort]
        rfl
      · rw [Variant.count, Variant.count, hlong, hshort, hv6]
        cases p.useIPv6 <;> rfl

/-- The default policy with sets and without them. -/
theorem ruleset_layout_of_compile_default :
    ∃ c d, compile ⟨0, 0⟩ .default = .ok c ∧ compile ⟨1, 0⟩ { useAddressSet := false } = .ok d ∧
      c.ruleset.rules.map (·.region) = ["CN"] ∧
      (∀ rule, c.ruleset.rules[0]? = some rule → (rule.part .v4).length = 45) ∧
      List.Forall₂ (fun short rule => short.part .v4 = (rule.part .v4).take 20 ∧
        short.part .v6 = (rule.part .v6).take 15) d.ruleset.rules c.ruleset.rules := by
  have hcompile := (compile_eq_ok_iff (t := ⟨0, 0⟩) (p := .default)).2 ⟨.addressSets, rfl, rfl⟩
  obtain ⟨hregions, -, hrules, hpairs⟩ := ruleset_layout_of_compile hcompile
  obtain ⟨d, hd, -, hparts⟩ := hpairs ⟨1, 0⟩ { useAddressSet := false } rfl rfl rfl rfl
  exact ⟨_, d, hcompile, hd, hregions, fun rule hrule => (hrules 0 rule hrule).length_v4,
    hparts (by decide) (by decide)⟩

end Compiler

end GeoPolicy
