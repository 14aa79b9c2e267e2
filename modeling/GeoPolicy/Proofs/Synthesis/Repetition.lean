import GeoPolicy.Proofs.Synthesis
import Mathlib.Data.Nat.ModEq

/-!
# Repetitions in the sequences

An IPv4 sequence is periodic: its first octets, its second octets and its lengths repeat after 223
steps, after a divisor of 256 steps and after nine steps, and these numbers have no common factor.
An IPv6 sequence never repeats. So the ranges of a region are a first part of its sequence, however
many are asked for.

## Main definitions

* `Synthesis.period` — how many different members an IPv4 sequence has.
-/

namespace GeoPolicy

/-! ## Distinct members of sequences -/

/-- Members that repeat with a period are dropped, and the first period is left. -/
theorem distinct_map_range {α : Type} [DecidableEq α] {f : Nat → α} {period : Nat}
    (hpos : 0 < period) (h : ∀ i j, f i = f j ↔ i % period = j % period) (count : Nat) :
    distinct ((List.range count).map f) = (List.range (min count period)).map f := by
  induction count with
  | zero => rw [Nat.zero_min]; rfl
  | succ count ih =>
    rw [List.range_succ, List.map_append, List.map_singleton, distinct_append_singleton, ih]
    by_cases hcount : count < period
    · have hnew : f count ∉ (List.range count).map f := by
        intro hmem
        obtain ⟨i, hi, heq⟩ := List.mem_map.1 hmem
        have hlt := List.mem_range.1 hi
        rw [h, Nat.mod_eq_of_lt (by omega), Nat.mod_eq_of_lt hcount] at heq
        omega
      rw [if_neg hnew, min_eq_left hcount.le, min_eq_left hcount, List.range_succ, List.map_append,
        List.map_singleton]
    · have hseen : f count ∈ (List.range count).map f := by
        have hlt := Nat.mod_lt count hpos
        refine List.mem_map.2 ⟨count % period, List.mem_range.2 (by omega), ?_⟩
        rw [h, Nat.mod_mod]
      rw [if_pos hseen, min_eq_right (by omega), min_eq_right (by omega)]

namespace Synthesis

open Text

/-! ## The IPv4 sequence -/

/-- The number of different members of an IPv4 sequence. -/
def period (seed : Nat) : Nat :=
  2007 * (256 / Nat.gcd seed 256)

theorem le_period (seed : Nat) : 2007 ≤ period seed := by
  have hdivisor : 0 < 256 / Nat.gcd seed 256 :=
    Nat.div_pos (Nat.gcd_le_right seed (by decide)) (Nat.gcd_pos_of_pos_right seed (by decide))
  exact Nat.le_mul_of_pos_right 2007 hdivisor

/-- Second octets repeat when the multiples of the seed do. -/
theorem mul_mod_eq_iff (seed a b : Nat) :
    seed * a % 256 = seed * b % 256 ↔ a ≡ b [MOD 256 / Nat.gcd seed 256] := by
  constructor
  · intro h
    rw [Nat.gcd_comm]
    exact Nat.ModEq.cancel_left_div_gcd (by decide) h
  · intro h
    have hdvd : 256 ∣ seed * (256 / Nat.gcd seed 256) := by
      rw [← Nat.mul_div_assoc seed (Nat.gcd_dvd_right seed 256)]
      exact Nat.dvd_lcm_right seed 256
    exact (h.mul_left' seed).of_dvd hdvd

/-- An IPv4 text tells its place in the sequence up to the period. -/
theorem v4Cidr_eq_iff (seed i j : Nat) :
    v4Cidr seed i = v4Cidr seed j ↔ i % period seed = j % period seed := by
  have hcoprime : Nat.Coprime 2007 (256 / Nat.gcd seed 256) :=
    Nat.Coprime.coprime_dvd_right (Nat.div_dvd_of_dvd (Nat.gcd_dvd_right seed 256)) (by decide)
  have hperiod : i % period seed = j % period seed ↔
      i ≡ j [MOD 2007] ∧ i ≡ j [MOD 256 / Nat.gcd seed 256] :=
    (Nat.modEq_and_modEq_iff_modEq_mul hcoprime).symm
  have hsecond : seed * (i + 1) % 256 = seed * (j + 1) % 256 ↔
      i ≡ j [MOD 256 / Nat.gcd seed 256] := by
    rw [mul_mod_eq_iff]
    exact ⟨Nat.ModEq.add_right_cancel' 1, Nat.ModEq.add_right 1⟩
  have hfirst : (seed + i * 7) % 223 = (seed + j * 7) % 223 ↔ i ≡ j [MOD 223] := by
    unfold Nat.ModEq
    omega
  have hboth : i ≡ j [MOD 223] ∧ i % 9 = j % 9 ↔ i ≡ j [MOD 2007] :=
    Nat.modEq_and_modEq_iff_modEq_mul (by decide : Nat.Coprime 223 9)
  rw [hperiod, ← hboth, ← hfirst, ← hsecond]
  constructor
  · intro h
    have hparse := parse_v4Cidr seed i
    rw [h, parse_v4Cidr, Except.ok.injEq] at hparse
    have hoctets := congrArg Network.address hparse
    have hlength := congrArg Network.length hparse
    dsimp only at hoctets hlength
    obtain ⟨hoctet, hsecond⟩ :=
      Address.ofOctets_inj (by omega) (by omega) (by omega) (by omega) hoctets
    exact ⟨⟨by omega, by omega⟩, hsecond.symm⟩
  · rintro ⟨⟨hoctet, hlength⟩, hsecond⟩
    unfold v4Cidr
    rw [hoctet, hlength, hsecond]

/-! ## The IPv6 sequence -/

/-- An IPv6 sequence never repeats a text, as its second group grows with each step. -/
theorem v6Cidr_injective (seed : Nat) : Function.Injective (v6Cidr seed) := by
  intro i j h
  have hcolon : ∀ n, ':' ∉ paddedDigits 16 4 n := fun n =>
    (isNumeral_paddedDigits 4 n).not_mem rfl
  have hchars := congrArg (List.drop 5 ·.toList) h
  rw [toList_v6Cidr, toList_v6Cidr] at hchars
  have hpieces := congrArg (splitAt ':') hchars
  simp only [List.cons_append, List.append_assoc, List.drop_succ_cons, List.drop_zero,
    splitAt_append_cons (hcolon _), List.cons.injEq] at hpieces
  have hvalues := congrArg (readHex? 0) hpieces.1
  rw [readHex?_paddedDigits, readHex?_paddedDigits, Option.some_inj] at hvalues
  omega

end Synthesis

/-! ## Ranges of a region -/

section Ranges

variable (region : String)

open Synthesis

/-- The IPv4 ranges of a region are the members of its sequence up to the period. -/
theorem synthesize_v4 (count : Nat) :
    synthesize region .v4 count =
      (List.range (min count (period (seed region)))).map
        fun i => ⟨v4Cidr (seed region) i, region, .v4⟩ := by
  have hpos : 0 < period (seed region) := (by decide : 0 < 2007).trans_le (le_period _)
  show (distinct ((List.range count).map (v4Cidr (seed region)))).map _ = _
  rw [distinct_map_range hpos (v4Cidr_eq_iff (seed region)), List.map_map]
  rfl

/-- The IPv6 ranges of a region are all members of its sequence. -/
theorem synthesize_v6 (count : Nat) :
    synthesize region .v6 count =
      (List.range count).map fun i => ⟨v6Cidr (seed region) i, region, .v6⟩ := by
  show (distinct ((List.range count).map (v6Cidr (seed region)))).map _ = _
  rw [distinct_eq_self (List.nodup_range.map (v6Cidr_injective (seed region))), List.map_map]
  rfl

/-- The first 2007 members of a sequence are all different. -/
theorem synthesize_eq_map_range (family : AddressFamily) {count : Nat} (h : count ≤ 2007) :
    synthesize region family count =
      (List.range count).map fun i => ⟨cidr family (seed region) i, region, family⟩ := by
  cases family with
  | v4 => rw [synthesize_v4, min_eq_left (h.trans (le_period _))]; rfl
  | v6 => exact synthesize_v6 region count

theorem length_synthesize (family : AddressFamily) {count : Nat} (h : count ≤ 2007) :
    (synthesize region family count).length = count := by
  rw [synthesize_eq_map_range region family h, List.length_map, List.length_range]

/-- No range of a region is given twice. -/
theorem nodup_synthesize (family : AddressFamily) (count : Nat) :
    ((synthesize region family count).map (·.cidr)).Nodup := by
  have hcidrs : (synthesize region family count).map (·.cidr) =
      distinct ((List.range count).map (cidr family (seed region))) := by
    rw [synthesize, List.map_map]
    exact List.map_id _
  rw [hcidrs]
  exact distinct_nodup _

/-- Those who ask for more ranges get the same ones first. -/
theorem synthesize_prefix (family : AddressFamily) {m n : Nat} (h : m ≤ n) :
    synthesize region family m <+: synthesize region family n := by
  have hrange : ∀ {k l : Nat}, k ≤ l → List.range k <+: List.range l := by
    intro k l hkl
    have htake : (List.range l).take k = List.range k := by rw [List.take_range, min_eq_left hkl]
    exact htake ▸ List.take_prefix k (List.range l)
  cases family with
  | v4 =>
    rw [synthesize_v4, synthesize_v4]
    exact (hrange (min_le_min_right _ h)).map _
  | v6 =>
    rw [synthesize_v6, synthesize_v6]
    exact (hrange h).map _

end Ranges

end GeoPolicy
