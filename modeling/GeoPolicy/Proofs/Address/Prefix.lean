import GeoPolicy.Address.Network
import Mathlib.Data.Nat.Bitwise

/-!
# Leading bits of addresses

A range is a family, a number of bits and the number that these leading bits spell. The tables
work with the same bits as a path, a list of Booleans. This module says the first in arithmetic
and shows that the second means the same.

## Main definitions

* `Address.number` — an address as a number.
* `Address.leading` — the number that the leading bits of an address spell.
* `Network.Covers` — an address agrees with the base of a range on the bits that matter.
-/

namespace GeoPolicy

/-! ## Addresses as numbers -/

namespace Address

/-- An address as a number. -/
def number : Address → Nat
  | v4 bits => bits.toNat
  | v6 bits => bits.toNat

/-- The number that the first `count` bits of an address spell. -/
def leading (a : Address) (count : Nat) : Nat :=
  a.number / 2 ^ (a.width - count)

@[simp] theorem width_v4 (bits : BitVec 32) : (v4 bits).width = 32 := rfl

@[simp] theorem width_v6 (bits : BitVec 128) : (v6 bits).width = 128 := rfl

theorem width_eq_of_family_eq {a b : Address} (h : a.family = b.family) : a.width = b.width :=
  congrArg AddressFamily.width h

theorem number_lt (a : Address) : a.number < 2 ^ a.width := by
  cases a with
  | v4 bits => exact bits.isLt
  | v6 bits => exact bits.isLt

theorem getElem_path (a : Address) (i : Nat) (hi : i < a.path.length) :
    a.path[i] = a.number.testBit (a.width - 1 - i) := by
  rw [length_path] at hi
  cases a with
  | v4 bits =>
    have hi : i < 32 := hi
    simp [path, number, BitVec.getMsbD, BitVec.getLsbD, hi]
  | v6 bits =>
    have hi : i < 128 := hi
    simp [path, number, BitVec.getMsbD, BitVec.getLsbD, hi]

/-- The leading bits of two addresses of one width spell the same number exactly if they agree
one by one. -/
theorem leading_eq_iff {a b : Address} (hw : a.width = b.width) {count : Nat}
    (hc : count ≤ a.width) :
    a.leading count = b.leading count ↔ a.path.take count = b.path.take count := by
  constructor
  · intro h
    apply List.ext_getElem (by simp [hw])
    intro i hi _
    have hi : i < count := by simp at hi; omega
    have hbit := congrArg (Nat.testBit · (count - 1 - i)) h
    simp only [leading, Nat.testBit_div_two_pow] at hbit
    have hplace : count - 1 - i + (a.width - count) = a.width - 1 - i := by omega
    rw [← hw, hplace] at hbit
    simpa [getElem_path, ← hw] using hbit
  · intro h
    apply Nat.eq_of_testBit_eq
    intro i
    simp only [leading, Nat.testBit_div_two_pow, ← hw]
    by_cases hi : i < count
    · have hpos : count - 1 - i < count := by omega
      have hget := congrArg (·[count - 1 - i]?) h
      simp only [List.getElem?_take, hpos, if_true] at hget
      rw [List.getElem?_eq_getElem (by simp; omega),
        List.getElem?_eq_getElem (by simp; omega), Option.some_inj, getElem_path,
        getElem_path, ← hw] at hget
      have hplace : a.width - 1 - (count - 1 - i) = i + (a.width - count) := by omega
      rwa [hplace] at hget
    · -- Past the leading bits both numbers have run out of bits.
      have hover : 2 ^ a.width ≤ 2 ^ (i + (a.width - count)) :=
        Nat.pow_le_pow_right (by omega) (by omega)
      rw [Nat.testBit_lt_two_pow (a.number_lt.trans_le hover),
        Nat.testBit_lt_two_pow ((hw ▸ b.number_lt).trans_le hover)]

end Address

/-! ## Ranges -/

namespace Network

/-- An address is covered by a range of its family if it agrees with the base of the range on the
bits that matter. -/
def Covers (n : Network) (a : Address) : Prop :=
  n.family = a.family ∧ n.address.leading n.length = a.leading n.length

instance (n : Network) (a : Address) : Decidable (n.Covers a) :=
  inferInstanceAs (Decidable (_ ∧ _))

@[simp] theorem length_key (n : Network) : n.key.length = n.length := by
  simp [key, n.length_le]

/-- The path to the node of a range is a beginning of the path of each address it covers. -/
theorem covers_iff_key_eq (n : Network) (a : Address) :
    n.Covers a ↔ n.family = a.family ∧ n.key = a.path.take n.length :=
  and_congr_right fun h =>
    Address.leading_eq_iff (Address.width_eq_of_family_eq h) n.length_le

theorem Covers.family_eq {n : Network} {a : Address} (h : n.Covers a) : n.family = a.family :=
  h.1

theorem Covers.key_eq {n : Network} {a : Address} (h : n.Covers a) :
    n.key = a.path.take n.length :=
  ((covers_iff_key_eq n a).1 h).2

theorem Covers.key_isPrefix {n : Network} {a : Address} (h : n.Covers a) : n.key <+: a.path :=
  h.key_eq ▸ List.take_prefix _ _

/-- The ranges of one length that cover an address have one key. -/
theorem Covers.key_eq_key {m n : Network} {a : Address} (hm : m.Covers a) (hn : n.Covers a)
    (h : m.length = n.length) : m.key = n.key := by
  rw [hm.key_eq, hn.key_eq, h]

theorem covers_of_key_isPrefix {n : Network} {a : Address} (hf : n.family = a.family)
    (hk : n.key <+: a.path) : n.Covers a := by
  rw [covers_iff_key_eq]
  refine ⟨hf, ?_⟩
  simpa using List.prefix_iff_eq_take.1 hk

/-- The membership test of ranges decides coverage. -/
theorem contains_iff_covers (n : Network) (a : Address) : n.contains a = true ↔ n.Covers a := by
  rw [covers_iff_key_eq, contains, Bool.and_eq_true, decide_eq_true_eq, List.isPrefixOf_iff_prefix,
    List.prefix_iff_eq_take, length_key]

end Network

end GeoPolicy
