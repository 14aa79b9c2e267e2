import GeoPolicy.Proofs.Address.Prefix
import GeoPolicy.Proofs.Address.Reading
import Mathlib.Data.Set.Lattice
import Mathlib.Order.CompletePartialOrder

/-!
# Disjoint ranges

Two ranges have no address in common if they are of different families, or if their base addresses
differ in some leading bits that both of them fix. The lengths of the ranges may differ; only the
bits that are compared have to be among the leading ones of both.

## Main definitions

* `Network.addresses` — the addresses of a range.
* `Network.NoOverlap` — no two ranges of a list have an address in common.
-/

namespace GeoPolicy

/-! ## Leading bits -/

/-- Groups at the end are cut off by a division. -/
theorem joinGroups_append_div {base : Nat} (groups : List Nat) {rest : List Nat}
    (h : ∀ g ∈ rest, g < base) :
    joinGroups base (groups ++ rest) / base ^ rest.length = joinGroups base groups := by
  induction rest using List.reverseRecOn with
  | nil => simp
  | append_singleton rest g ih =>
    have hg : g < base := h g (by simp)
    have hlast : (joinGroups base (groups ++ rest) * base + g) / base =
        joinGroups base (groups ++ rest) := by
      rw [Nat.mul_comm, Nat.mul_add_div (by omega), Nat.div_eq_of_lt hg, Nat.add_zero]
    rw [← List.append_assoc, joinGroups_append_singleton, List.length_append,
      List.length_singleton, Nat.pow_succ', ← Nat.div_div_eq_div_mul, hlast]
    exact ih fun r hr => h r (by simp [hr])

theorem joinGroups_lt {base : Nat} (hb : 0 < base) {groups : List Nat}
    (h : ∀ g ∈ groups, g < base) : joinGroups base groups < base ^ groups.length := by
  have hdiv : joinGroups base groups / base ^ groups.length = 0 := joinGroups_append_div [] h
  exact Nat.lt_of_div_eq_zero (Nat.pow_pos hb) hdiv

namespace Address

/-- Fewer leading bits are leading bits of the leading bits. -/
theorem leading_eq_leading_div {a : Address} {k l : Nat} (hkl : k ≤ l) (hl : l ≤ a.width) :
    a.leading k = a.leading l / 2 ^ (l - k) := by
  rw [leading, leading, Nat.div_div_eq_div_mul, ← pow_add]
  congr 2
  omega

/-- The first groups of an address spell its leading bits, if the address is written in them. -/
theorem leading_eq_joinGroups {a : Address} {k : Nat} (groups : List Nat) {rest : List Nat}
    (hnumber : a.number = joinGroups (2 ^ k) (groups ++ rest))
    (hwidth : a.width = k * (groups ++ rest).length) (h : ∀ g ∈ groups ++ rest, g < 2 ^ k) :
    a.leading (k * groups.length) = joinGroups (2 ^ k) groups := by
  have hfree : a.width - k * groups.length = k * rest.length := by
    rw [hwidth, List.length_append, Nat.mul_add, Nat.add_sub_cancel_left]
  rw [leading, hnumber, hfree, Nat.pow_mul]
  exact joinGroups_append_div groups fun g hg => h g (List.mem_append_right groups hg)

theorem number_ofOctets {octets : List Nat} (hlength : octets.length = 4)
    (h : ∀ o ∈ octets, o < 256) : (ofOctets octets).number = joinGroups 256 octets := by
  have hlt : joinGroups 256 octets < 2 ^ 32 := by
    simpa [hlength] using joinGroups_lt (by decide) h
  rw [ofOctets, number, BitVec.toNat_ofNat, Nat.mod_eq_of_lt hlt]

theorem number_ofGroups {groups : List Nat} (hlength : groups.length = 8)
    (h : ∀ g ∈ groups, g < 65536) : (ofGroups groups).number = joinGroups 65536 groups := by
  have hlt : joinGroups 65536 groups < 2 ^ 128 := by
    simpa [hlength] using joinGroups_lt (by decide) h
  rw [ofGroups, number, BitVec.toNat_ofNat, Nat.mod_eq_of_lt hlt]

/-- The first octet of an address is its first eight bits. -/
theorem leading_ofOctets {first : Nat} {rest : List Nat} (hlength : rest.length = 3)
    (h : ∀ o ∈ first :: rest, o < 256) : (ofOctets (first :: rest)).leading 8 = first := by
  have hnumber : (ofOctets (first :: rest)).number = joinGroups 256 (first :: rest) :=
    number_ofOctets (by rw [List.length_cons, hlength]) h
  have hwidth : (ofOctets (first :: rest)).width = 8 * (first :: rest).length := by
    rw [List.length_cons, hlength]
    rfl
  calc (ofOctets (first :: rest)).leading 8
      = joinGroups 256 [first] := leading_eq_joinGroups (k := 8) [first] hnumber hwidth h
    _ = first := by simp [joinGroups]

/-- The first two groups of an address are its first 32 bits. -/
theorem leading_ofGroups {first second : Nat} {rest : List Nat} (hlength : rest.length = 6)
    (h : ∀ g ∈ first :: second :: rest, g < 65536) :
    (ofGroups (first :: second :: rest)).leading 32 = first * 65536 + second := by
  have hnumber : (ofGroups (first :: second :: rest)).number =
      joinGroups 65536 (first :: second :: rest) :=
    number_ofGroups (by rw [List.length_cons, List.length_cons, hlength]) h
  have hwidth : (ofGroups (first :: second :: rest)).width =
      16 * (first :: second :: rest).length := by
    rw [List.length_cons, List.length_cons, hlength]
    rfl
  calc (ofGroups (first :: second :: rest)).leading 32
      = joinGroups 65536 [first, second] :=
        leading_eq_joinGroups (k := 16) [first, second] hnumber hwidth h
    _ = first * 65536 + second := by simp [joinGroups]

end Address

/-! ## Ranges -/

namespace Network

/-- The addresses of a range. -/
def addresses (n : Network) : Set Address :=
  {a | n.Covers a}

/-- No two ranges of a list have an address in common. -/
def NoOverlap (ranges : List Network) : Prop :=
  ranges.Pairwise fun m n => Disjoint m.addresses n.addresses

theorem covers_address (n : Network) : n.Covers n.address :=
  ⟨rfl, rfl⟩

theorem Covers.leading_eq {n : Network} {a : Address} (h : n.Covers a) {k : Nat}
    (hk : k ≤ n.length) : n.address.leading k = a.leading k := by
  have hwidth : n.address.width = a.width := Address.width_eq_of_family_eq h.family_eq
  rw [Address.leading_eq_leading_div hk n.length_le,
    Address.leading_eq_leading_div hk (hwidth ▸ n.length_le), h.2]

theorem disjoint_of_family_ne {m n : Network} (h : m.family ≠ n.family) :
    Disjoint m.addresses n.addresses := by
  rw [Set.disjoint_left]
  intro a hm hn
  exact h (Covers.family_eq hm |>.trans (Covers.family_eq hn).symm)

/-- Ranges are disjoint if bits differ that are leading bits of both. -/
theorem disjoint_of_leading_ne {m n : Network} {k : Nat} (hm : k ≤ m.length) (hn : k ≤ n.length)
    (h : m.address.leading k ≠ n.address.leading k) : Disjoint m.addresses n.addresses := by
  rw [Set.disjoint_left]
  intro a hma hna
  exact h ((Covers.leading_eq hma hm).trans (Covers.leading_eq hna hn).symm)

end Network

end GeoPolicy
