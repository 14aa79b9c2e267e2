import GeoPolicy.Proofs.RangeTable.History
import GeoPolicy.Proofs.RulesetLayout
import GeoPolicy.Proofs.Synthesis.Disjoint

/-!
# Tables of a single region

The ranges of one region do not overlap. So a table that is loaded with them has one entry for each
of them, none is written over, and it answers each of their addresses with the region.

## Main definitions

* `Ruleset.networks` — the ranges among the texts of a ruleset.
-/

namespace GeoPolicy

open Compiler Network Script

/-! ## Ranges without overlap -/

/-- Ranges without overlap stand at different places: each covers its own base address. -/
theorem Network.NoOverlap.nodup_place {ranges : List Network} (h : NoOverlap ranges) :
    (ranges.map place).Nodup := by
  rw [List.Nodup, List.pairwise_map]
  refine h.imp ?_
  intro m n hdisjoint hplace
  obtain ⟨hfamily, hkey⟩ := Prod.mk.inj hplace
  have hcovers : n.Covers m.address :=
    covers_of_key_isPrefix hfamily.symm (hkey ▸ m.covers_address.key_isPrefix)
  exact Set.disjoint_left.1 hdisjoint m.covers_address hcovers

/-- The ranges among the texts of a ruleset, rule by rule and in the order of each rule. -/
def Ruleset.networks (r : Ruleset) : List Network :=
  parseAll (r.rules.flatMap (·.cidrs))

namespace RangeTable

theorem map_fst_calls (r : Ruleset) : r.calls.map Prod.fst = r.networks := by
  rw [Ruleset.calls, Ruleset.networks, List.map_flatMap, parseAll, List.filterMap_flatMap]
  refine List.flatMap_congr fun rule _ => ?_
  rw [RegionRule.calls, List.map_map]
  exact List.map_id _

/-- Ranges without overlap have an entry each. -/
theorem size_ofRuleset_of_noOverlap {r : Ruleset} (h : NoOverlap r.networks) :
    (ofRuleset r).1.size = r.networks.length := by
  have hplaces : (r.calls.map fun call => call.1.place).Nodup := by
    have hnodup := h.nodup_place
    rwa [← map_fst_calls, List.map_map] at hnodup
  rw [ofRuleset_fst, size_insertAll, List.toFinset_card_of_nodup hplaces, ← map_fst_calls,
    List.length_map, List.length_map]

/-- A ruleset of one region answers every address of its ranges with the region. -/
theorem region_longestMatch_ofRuleset {r : Ruleset} {region : String}
    (h : ∀ rule ∈ r.rules, rule.region = region) {n : Network}
    (hn : n ∈ r.networks) {a : Address} (ha : n.Covers a) :
    ((ofRuleset r).1.longestMatch a).map (·.region) = some region := by
  rw [← map_fst_calls] at hn
  obtain ⟨call, hcall, rfl⟩ := List.mem_map.1 hn
  have htag : ∀ call ∈ r.calls, call.2.region = region := by
    intro call hcall
    obtain ⟨rule, hrule, hcall⟩ := List.mem_flatMap.1 hcall
    obtain ⟨m, -, rfl⟩ := List.mem_map.1 hcall
    exact h rule hrule
  rw [ofRuleset_fst]
  cases hanswer : (empty.insertAll r.calls).longestMatch a with
  | none => exact absurd ha ((longestMatch_eq_none_iff r.calls a).1 hanswer call hcall)
  | some tag =>
    obtain ⟨before, m, after, hsplit, -⟩ := (longestMatch_eq_some_iff_split r.calls a tag).1 hanswer
    exact congrArg some (htag (m, tag) (by simp [hsplit]))

end RangeTable

/-! ## Compiled policies -/

namespace Compiler

theorem noOverlap_cidrs (variant : Variant) (p : Policy) (region : String)
    (family : AddressFamily) : NoOverlap (parseAll (cidrs variant p region family)) := by
  cases family with
  | v4 =>
    have hcount : variant.counts.v4 ≤ 223 := by cases variant <;> decide
    exact Synthesis.noOverlap_v4Cidr _ hcount
  | v6 => exact Synthesis.noOverlap_v6Cidr _ _

/-- The ranges of a region do not overlap, neither within a family nor between the families. -/
theorem noOverlap_cidrs_rule (action : Action) (variant : Variant) (p : Policy) (region : String)
    (index : Nat) :
    NoOverlap (parseAll (rule action (regionRanges variant p region) index).cidrs) := by
  have hfamily : ∀ family, ∀ n ∈ parseAll (cidrs variant p region family), n.family = family := by
    intro family n hn
    obtain ⟨cidr, hcidr, hparse⟩ := mem_parseAll.1 hn
    obtain ⟨i, -, rfl⟩ := List.mem_map.1 hcidr
    exact Synthesis.family_of_parse_cidr hparse
  rw [cidrs_rule, parseAll, List.filterMap_append]
  refine List.pairwise_append.2 ⟨noOverlap_cidrs variant p region .v4,
    noOverlap_cidrs variant p region .v6, ?_⟩
  intro m hm n hn
  apply disjoint_of_family_ne
  rw [hfamily .v4 m hm, hfamily .v6 n hn]
  exact AddressFamily.noConfusion

section OneTarget

variable {p : Policy} {region : String} (h : p.targets = [region])
include h

/-- The ruleset of a policy for one region has one rule. -/
theorem rules_ruleset_of_targets_eq (variant : Variant) :
    (ruleset p.action (ranges variant p)).rules =
      [rule p.action (regionRanges variant p region) 0] := by
  rw [rules_ruleset, h]
  rfl

theorem noOverlap_networks_ruleset (variant : Variant) :
    NoOverlap (ruleset p.action (ranges variant p)).networks := by
  rw [Ruleset.networks, rules_ruleset_of_targets_eq h, List.flatMap_singleton]
  exact noOverlap_cidrs_rule p.action variant p region 0

theorem setElements_script_of_targets_eq (t : Timestamp) (family : AddressFamily) :
    setElements (text (script t .nftables p)) family = cidrs .nftables p region family := by
  rw [setElements_script, ranges, h, List.map_singleton, List.flatMap_singleton,
    of_toSection_regionRanges]

end OneTarget

/-- Ranges of one region never overlap. Up to 223 IPv4 ranges of a region, and any number of its
IPv6 texts where they are ranges, have no address in common. So the elements of each interval set of
a script for a single region do not overlap, the table of its ruleset has as many entries as the
ruleset has ranges, and it answers every address of them with the region. -/
theorem no_overlap_of_single_region :
    (∀ (region : String) (count : Nat), count ≤ 223 →
      (∀ r ∈ synthesize region .v4 count, ∃ n, parse r.cidr = .ok n) ∧
      NoOverlap (parseAll ((synthesize region .v4 count).map (·.cidr)))) ∧
    (∀ (region : String) (count : Nat),
      NoOverlap (parseAll ((synthesize region .v6 count).map (·.cidr)))) ∧
    ∀ (t : Timestamp) (p : Policy) (c : CompiledPolicy) (region : String),
      compile t p = .ok c → p.targets = [region] →
        (p.backend = .nftables → ∀ family,
          setElements c.script family = c.ruleset.rules.flatMap (·.part family) ∧
          NoOverlap (parseAll (setElements c.script family))) ∧
        (RangeTable.ofRuleset c.ruleset).1.size = c.ruleset.networks.length ∧
        ∀ n ∈ c.ruleset.networks, ∀ a, n.Covers a →
          ((RangeTable.ofRuleset c.ruleset).1.longestMatch a).map (·.region) = some region := by
  refine ⟨fun region count hcount => ⟨fun r hr => ?_, ?_⟩, fun region count => ?_, ?_⟩
  · obtain ⟨i, hi⟩ := exists_cidr_of_mem_synthesize hr
    rw [hi]
    exact ⟨_, Synthesis.parse_v4Cidr _ i⟩
  · rw [map_cidr_synthesize region .v4 (by omega)]
    exact Synthesis.noOverlap_v4Cidr _ hcount
  · rw [synthesize_v6, List.map_map]
    exact Synthesis.noOverlap_v6Cidr _ count
  · intro t p c region hcompile htargets
    obtain ⟨variant, hvariant, rfl⟩ := compile_eq_ok_iff.1 hcompile
    dsimp only
    have hrules := rules_ruleset_of_targets_eq htargets variant
    have hdisjoint := noOverlap_networks_ruleset htargets variant
    refine ⟨fun hbackend family => ?_, RangeTable.size_ofRuleset_of_noOverlap hdisjoint, ?_⟩
    · have hnft : Variant.ofPolicy p = .ok .nftables := by rw [Variant.ofPolicy, hbackend]
      obtain rfl := Except.ok.inj (hvariant.symm.trans hnft)
      rw [setElements_script_of_targets_eq htargets, hrules, List.flatMap_singleton, part_rule]
      exact ⟨rfl, noOverlap_cidrs .nftables p region family⟩
    · intro n hn a ha
      refine RangeTable.region_longestMatch_ofRuleset ?_ hn ha
      rw [hrules]
      exact List.forall_mem_singleton.2 rfl

/-- The greatest number of IPv4 ranges, and a policy for both families. -/
theorem no_overlap_of_single_region_nftables :
    NoOverlap (parseAll ((synthesize "" .v4 223).map (·.cidr))) ∧
    ∃ c, compile ⟨0, 0⟩
        { regions := [⟨'U', 'S', rfl, rfl⟩], backend := .nftables, useIPv6 := true } = .ok c ∧
      NoOverlap (parseAll (setElements c.script .v6)) ∧
      (RangeTable.ofRuleset c.ruleset).1.size = c.ruleset.networks.length ∧
      ((RangeTable.ofRuleset c.ruleset).1.longestMatch (.ofOctets [43, 158, 1, 1])).map (·.region) =
        some "US" := by
  obtain ⟨hv4, -, hpolicies⟩ := no_overlap_of_single_region
  have hcompile := (compile_eq_ok_iff (t := ⟨0, 0⟩)
    (p := { regions := [⟨'U', 'S', rfl, rfl⟩], backend := .nftables, useIPv6 := true })).2
      ⟨.nftables, rfl, rfl⟩
  obtain ⟨hsets, hsize, hanswers⟩ := hpolicies _ _ _ "US" hcompile rfl
  refine ⟨(hv4 "" 223 le_rfl).2, _, hcompile, (hsets rfl .v6).2, hsize, ?_⟩
  have hseed : Synthesis.seed "US" = 2718 := by decide
  have hparse := Synthesis.parse_v4Cidr (Synthesis.seed "US") 0
  refine hanswers _ (mem_parseAll.2 ⟨_, ?_, hparse⟩) _ ?_
  · rw [rules_ruleset_of_targets_eq rfl, List.flatMap_singleton, cidrs_rule]
    exact List.mem_append_left _ (List.mem_map.2 ⟨0, List.mem_range.2 (by decide), rfl⟩)
  · rw [hseed]
    decide

end Compiler

end GeoPolicy
