import GeoPolicy.Proofs.Address.Disjoint
import GeoPolicy.Proofs.RangeTable.Ruleset
import GeoPolicy.Proofs.Synthesis.Repetition

/-!
# Disjoint members of the sequences

Ranges of one region do not overlap, although their lengths differ. The first octets of an IPv4
sequence move by seven modulo 223, so they are all different for 223 steps; the second groups of an
IPv6 sequence grow with each step. Both lie within the leading bits of every range.
-/

namespace GeoPolicy

open Network

/-- Members of a sequence do not overlap if those that are ranges are disjoint two by two. -/
theorem noOverlap_parseAll_map_range {f : Nat → String} {count : Nat}
    (h : ∀ i j, i < j → j < count → ∀ m n, parse (f i) = .ok m → parse (f j) = .ok n →
      Disjoint m.addresses n.addresses) :
    NoOverlap (parseAll ((List.range count).map f)) := by
  rw [NoOverlap, parseAll, List.pairwise_filterMap, List.pairwise_map]
  refine List.pairwise_lt_range.imp_of_mem ?_
  intro i j _ hj hij m hm n hn
  rw [toOption_parse_eq_some_iff] at hm hn
  exact h i j hij (List.mem_range.1 hj) m n hm hn

namespace Synthesis

/-- First octets tell the members of an IPv4 sequence apart for 223 steps. -/
theorem noOverlap_v4Cidr (seed : Nat) {count : Nat} (h : count ≤ 223) :
    NoOverlap (parseAll ((List.range count).map (v4Cidr seed))) := by
  have hoctets : ∀ i, ∀ o ∈ [(seed + i * 7) % 223 + 1, seed * (i + 1) % 256, 0, 0], o < 256 := by
    intro i
    simp only [List.forall_mem_cons]
    exact ⟨by omega, by omega, by omega, by omega, List.forall_mem_nil _⟩
  apply noOverlap_parseAll_map_range
  intro i j hij hj m n hm hn
  rw [parse_v4Cidr, Except.ok.injEq] at hm hn
  subst hm hn
  apply disjoint_of_leading_ne (k := 8)
  · exact Nat.le_add_right_of_le (by decide)
  · exact Nat.le_add_right_of_le (by decide)
  · dsimp only
    rw [Address.leading_ofOctets rfl (hoctets i), Address.leading_ofOctets rfl (hoctets j)]
    omega

/-- Second groups tell the members of an IPv6 sequence apart. -/
theorem noOverlap_v6Cidr (seed count : Nat) :
    NoOverlap (parseAll ((List.range count).map (v6Cidr seed))) := by
  have hgroups : ∀ i, seed + i * 13 ≤ 0xffff ∧ seed * (i + 5) ≤ 0xffff →
      ∀ g ∈ [0x2001, seed + i * 13, seed * (i + 5), 0, 0, 0, 0, 0], g < 65536 := by
    intro i hi
    simp only [List.forall_mem_cons]
    exact ⟨by decide, by omega, by omega, by decide, by decide, by decide, by decide, by decide,
      List.forall_mem_nil _⟩
  apply noOverlap_parseAll_map_range
  intro i j hij _ m n hm hn
  obtain ⟨hi, rfl⟩ := parse_v6Cidr_eq_ok_iff.1 hm
  obtain ⟨hj, rfl⟩ := parse_v6Cidr_eq_ok_iff.1 hn
  apply disjoint_of_leading_ne (k := 32)
  · exact (by decide : 32 ≤ 48)
  · exact (by decide : 32 ≤ 48)
  · dsimp only
    rw [Address.leading_ofGroups rfl (hgroups i hi), Address.leading_ofGroups rfl (hgroups j hj)]
    omega

end Synthesis

end GeoPolicy
