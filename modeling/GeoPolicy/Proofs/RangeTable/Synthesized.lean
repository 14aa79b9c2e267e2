import GeoPolicy.Proofs.RangeTable.Ruleset
import GeoPolicy.Proofs.RulesetLayout

/-!
# Loading synthesized ranges

A table takes every IPv4 range of a region. It takes the IPv6 ranges as long as both of their groups
fit 16 bits. The third group is a multiple of the seed, so it is the one that outgrows them first,
and the table of a compiled policy leaves out exactly the IPv6 ranges where it does.

## Main definitions

* `Network.freeBits` — the number that the bits after the leading ones spell.
-/

namespace GeoPolicy

/-! ## Free bits -/

/-- The number that the bits of the base address after the leading ones spell. -/
def Network.freeBits (n : Network) : Nat :=
  n.address.number % 2 ^ (n.address.width - n.length)

/-- Two octets of zeros are free in a range of at least 16 bits. -/
theorem Network.freeBits_ofOctets (a b : Nat) {length : Nat} (hlength : 16 ≤ length)
    (hle : length ≤ 32) : freeBits ⟨.ofOctets [a, b, 0, 0], length, hle⟩ = 0 := by
  have hnumber : (Address.ofOctets [a, b, 0, 0]).number % 2 ^ 16 = 0 := by
    show (BitVec.ofNat 32 (joinGroups 256 [a, b, 0, 0])).toNat % 2 ^ 16 = 0
    rw [BitVec.toNat_ofNat]
    simp only [joinGroups, List.foldl_cons, List.foldl_nil]
    omega
  have hfree : 2 ^ (32 - length) ∣ 2 ^ 16 := Nat.pow_dvd_pow 2 (by omega)
  exact Nat.mod_eq_zero_of_dvd (hfree.trans (Nat.dvd_of_mod_eq_zero hnumber))

namespace RangeTable

open Compiler Script Synthesis

/-! ## One range -/

section OneRange

variable {α : Type} (table : RangeTable α) (value : α) (seed i : Nat)

theorem insertText_v4Cidr :
    ∃ n : Network, n.address = .ofOctets [(seed + 7 * i) % 223 + 1, seed * (i + 1) % 256, 0, 0] ∧
      n.length = 16 + i % 9 ∧ n.freeBits = 0 ∧
      table.insertText (v4Cidr seed i) value = .ok (table.get? n, table.insert n value) ∧
      (table.insert n value).get? n = some value := by
  refine ⟨_, ?_, ?_, ?_, insertText_of_ok (parse_v4Cidr seed i) table value, get?_insert ..⟩
  · rw [Nat.mul_comm 7]
  · rfl
  · exact Network.freeBits_ofOctets _ _ (by omega) _

theorem insertText_v6Cidr (h : seed + 13 * i ≤ 0xffff ∧ seed * (i + 5) ≤ 0xffff) :
    ∃ n : Network,
      n.address = .ofGroups [0x2001, seed + 13 * i, seed * (i + 5), 0, 0, 0, 0, 0] ∧
      n.length = 48 ∧
      table.insertText (v6Cidr seed i) value = .ok (table.get? n, table.insert n value) ∧
      (table.insert n value).get? n = some value := by
  have hparse := parse_v6Cidr seed i
  rw [Nat.mul_comm i, if_pos h] at hparse
  exact ⟨_, rfl, rfl, insertText_of_ok hparse table value, get?_insert ..⟩

theorem insertText_v6Cidr_eq_error (h : ¬(seed + 13 * i ≤ 0xffff ∧ seed * (i + 5) ≤ 0xffff)) :
    table.insertText (v6Cidr seed i) value = .error (.invalidRange (v6Cidr seed i)) := by
  have hparse := parse_v6Cidr seed i
  rw [Nat.mul_comm i, if_neg h] at hparse
  exact insertText_of_error hparse table value

end OneRange

/-! ## Rules of a policy -/

/-- The seeds of codes are so small that the second group of an IPv6 range fits 16 bits. -/
theorem skip?_v6Cidr {rule : RegionRule} {code : RegionCode} {i : Nat} (hi : i < 2007) :
    rule.skip? (v6Cidr (seed code.text) i) =
      if 0xffff < seed code.text * (i + 5) then
        some (.skipped rule.region (.invalidRange (v6Cidr (seed code.text) i)))
      else none := by
  have hseed := seed_text_bounds code
  rw [RegionRule.skip?, parse_v6Cidr]
  by_cases hthird : 0xffff < seed code.text * (i + 5)
  · rw [if_pos hthird, if_neg fun h => absurd h.2 (not_le.2 hthird)]
  · rw [if_neg hthird, if_pos ⟨by omega, by omega⟩]

theorem skips_rule (action : Action) (variant : Variant) (p : Policy) (code : RegionCode)
    (index : Nat) :
    (rule action (regionRanges variant p code.text) index).skips =
      ((List.range (variant.count p .v6)).filter
        fun i => decide (0xffff < seed code.text * (i + 5))).map
          fun i => .skipped code.text (.invalidRange (v6Cidr (seed code.text) i)) := by
  have hcount := variant.count_le p .v6
  have hv4 : (cidrs variant p code.text .v4).filterMap
      (rule action (regionRanges variant p code.text) index).skip? = [] := by
    refine List.filterMap_eq_nil_iff.2 fun cidr hcidr => ?_
    obtain ⟨i, -, rfl⟩ := List.mem_map.1 hcidr
    rw [RegionRule.skip?, Synthesis.cidr, parse_v4Cidr]
  rw [RegionRule.skips, cidrs_rule, List.filterMap_append, hv4, List.nil_append, cidrs,
    List.filterMap_map, ← List.filterMap_eq_map, List.filterMap_filter]
  refine List.filterMap_congr fun i hi => ?_
  have hi := List.mem_range.1 hi
  rw [Function.comp_apply, Synthesis.cidr, skip?_v6Cidr (by omega)]
  simp [rule, regionRanges]

/-- What a table takes of synthesized ranges. Of the sequences of a region it takes every IPv4 text,
as a range without free bits that are set, and exactly the IPv6 texts whose groups fit 16 bits, and
the range has the value from then on; the other texts are quoted in the error. So the table of a
compiled policy skips, rule by rule and in order, exactly the IPv6 ranges whose third group does not
fit. -/
theorem load_synthesized_ranges :
    (∀ (region : String) (i : Nat) (α : Type) (table : RangeTable α) (value : α),
      (∃ n : Network, n.address = .ofOctets
          [(seed region + 7 * i) % 223 + 1, seed region * (i + 1) % 256, 0, 0] ∧
        n.length = 16 + i % 9 ∧ n.freeBits = 0 ∧
        table.insertText (v4Cidr (seed region) i) value =
          .ok (table.get? n, table.insert n value) ∧
        (table.insert n value).get? n = some value) ∧
      (seed region + 13 * i ≤ 0xffff ∧ seed region * (i + 5) ≤ 0xffff →
        ∃ n : Network, n.address = .ofGroups
            [0x2001, seed region + 13 * i, seed region * (i + 5), 0, 0, 0, 0, 0] ∧
          n.length = 48 ∧
          table.insertText (v6Cidr (seed region) i) value =
            .ok (table.get? n, table.insert n value) ∧
          (table.insert n value).get? n = some value) ∧
      (¬(seed region + 13 * i ≤ 0xffff ∧ seed region * (i + 5) ≤ 0xffff) →
        table.insertText (v6Cidr (seed region) i) value =
          .error (.invalidRange (v6Cidr (seed region) i)))) ∧
    ∀ (t : Timestamp) (p : Policy) (c : CompiledPolicy), compile t p = .ok c →
      (∀ rule ∈ c.ruleset.rules, ∀ family, rule.part family =
        (List.range (rule.part family).length).map (Synthesis.cidr family (seed rule.region))) ∧
      (ofRuleset c.ruleset).2.filter LoadEvent.isSkip = c.ruleset.rules.flatMap fun rule =>
        ((List.range (rule.part .v6).length).filter
          fun i => decide (0xffff < seed rule.region * (i + 5))).map
            fun i => .skipped rule.region (.invalidRange (v6Cidr (seed rule.region) i)) := by
  refine ⟨fun region i α table value => ⟨?_, ?_, ?_⟩, fun t p c h => ?_⟩
  · exact insertText_v4Cidr table value (seed region) i
  · exact insertText_v6Cidr table value (seed region) i
  · exact insertText_v6Cidr_eq_error table value (seed region) i
  · obtain ⟨variant, -, rfl⟩ := compile_eq_ok_iff.1 h
    dsimp only
    constructor
    · intro r hr family
      obtain ⟨code, index, rfl⟩ := exists_rule_of_mem_rules hr
      rw [part_rule, length_cidrs]
      rfl
    · rw [filter_isSkip_ofRuleset]
      refine List.flatMap_congr fun r hr => ?_
      obtain ⟨code, index, rfl⟩ := exists_rule_of_mem_rules hr
      rw [skips_rule, part_rule, length_cidrs]
      rfl

/-- The sequence of one region leaves the address space at its range number 20. -/
theorem load_synthesized_ranges_overflow :
    (∃ n : Network, n.address = .ofGroups [0x2001, 0xa9e, 0x3516, 0, 0, 0, 0, 0] ∧ n.length = 48 ∧
      RangeTable.empty.insertText (v6Cidr (seed "US") 0) () =
        .ok (RangeTable.empty.get? n, RangeTable.empty.insert n ()) ∧
      (RangeTable.empty.insert n ()).get? n = some ()) ∧
    RangeTable.empty.insertText (v6Cidr (seed "US") 20) () =
      .error (.invalidRange (v6Cidr (seed "US") 20)) ∧
    ∃ c, compile ⟨0, 0⟩ { regions := [⟨'U', 'S', rfl, rfl⟩], useIPv6 := true } = .ok c ∧
      (ofRuleset c.ruleset).2.filter LoadEvent.isSkip =
        [20, 21, 22, 23, 24, 25, 26, 27, 28, 29].map
          fun i => .skipped "US" (.invalidRange (v6Cidr (seed "US") i)) := by
  obtain ⟨htexts, hpolicies⟩ := load_synthesized_ranges
  have hseed : seed "US" = 2718 := by decide
  have hfirst := (htexts "US" 0 Unit .empty ()).2.1
  have hoverflow := (htexts "US" 20 Unit .empty ()).2.2
  have hcompile := (compile_eq_ok_iff (t := ⟨0, 0⟩)
    (p := { regions := [⟨'U', 'S', rfl, rfl⟩], useIPv6 := true })).2 ⟨.addressSets, rfl, rfl⟩
  have hskips := (hpolicies _ _ _ hcompile).2
  rw [hseed] at hfirst hoverflow ⊢
  refine ⟨hfirst (by decide), hoverflow (by decide), _, hcompile, ?_⟩
  have hindices : (List.range 30).filter (fun i => decide (0xffff < 2718 * (i + 5))) =
      [20, 21, 22, 23, 24, 25, 26, 27, 28, 29] := by decide
  rw [hskips, rules_ruleset]
  show List.flatMap _ [rule .block (regionRanges .addressSets _ (String.ofList ['U', 'S'])) 0] = _
  rw [List.flatMap_singleton, part_rule, length_cidrs]
  show List.map _ ((List.range 30).filter fun i => decide (0xffff < seed "US" * (i + 5))) = _
  rw [hseed, hindices]
  rfl

end RangeTable

end GeoPolicy
