import GeoPolicy.Proofs.Synthesis.Repetition

/-!
# Synthesis in machine words

The sequences are defined over natural numbers. This module computes them once more in words of 64
bits, with a check on every sum and product, in a loop that passes over the ranges it has seen. For
up to `2 ^ 42` rounds every check succeeds, and the ranges are the same.

## Main definitions

* `Word.add?`, `Word.mul?` — sums and products that fit a word.
* `Word.cidr?` — a member of a sequence, in words.
* `Word.synthesize?` — the ranges of a region, in words.
-/

namespace GeoPolicy

namespace Word

open Synthesis

/-! ## Checked arithmetic -/

/-- The sum of two words, if it fits a word. -/
def add? (a b : UInt64) : Option UInt64 :=
  if a.toNat + b.toNat < 2 ^ 64 then some (a + b) else none

/-- The product of two words, if it fits a word. -/
def mul? (a b : UInt64) : Option UInt64 :=
  if a.toNat * b.toNat < 2 ^ 64 then some (a * b) else none

theorem toNat_ofNat {n : Nat} (h : n < 2 ^ 64) : (UInt64.ofNat n).toNat = n :=
  UInt64.toNat_ofNat_of_lt' h

theorem add?_ofNat (a b : Nat) (h : a + b < 2 ^ 64) :
    add? (.ofNat a) (.ofNat b) = some (.ofNat (a + b)) := by
  have ha : a < 2 ^ 64 := by omega
  have hb : b < 2 ^ 64 := by omega
  rw [add?, toNat_ofNat ha, toNat_ofNat hb, if_pos h, UInt64.ofNat_add]

/-- Both factors have to fit, too: the other one may be zero. -/
theorem mul?_ofNat (a b : Nat) (ha : a < 2 ^ 64) (hb : b < 2 ^ 64) (h : a * b < 2 ^ 64) :
    mul? (.ofNat a) (.ofNat b) = some (.ofNat (a * b)) := by
  rw [mul?, toNat_ofNat ha, toNat_ofNat hb, if_pos h, UInt64.ofNat_mul]

/-! ## Members of the sequences -/

/-- The seed of a region. -/
def seed? (region : String) : Option UInt64 := do
  let units := (region.toList.flatMap units16).map UInt64.ofNat
  add? (← mul? 31 (units.getD 0 0)) (units.getD 1 0)

/-- A member of an IPv4 sequence. -/
def v4Cidr? (seed i : UInt64) : Option String := do
  let octet1 ← add? ((← add? seed (← mul? i 7)) % 223) 1
  let octet2 := (← mul? seed (← add? i 1)) % 256
  let length ← add? 16 (i % 9)
  return s!"{octet1.toNat}.{octet2.toNat}.0.0/{length.toNat}"

/-- A member of an IPv6 sequence. -/
def v6Cidr? (seed i : UInt64) : Option String := do
  let second ← add? seed (← mul? i 13)
  let third ← mul? seed (← add? i 5)
  return s!"2001:{group second.toNat}:{group third.toNat}::/48"

/-- A member of the sequence of a family. -/
def cidr? (family : AddressFamily) (seed i : UInt64) : Option String :=
  match family with
  | .v4 => v4Cidr? seed i
  | .v6 => v6Cidr? seed i

theorem units16_lt (c : Char) : ∀ n ∈ units16 c, n < 65536 := by
  have hc : c.toNat < 0x110000 := by
    obtain h | ⟨-, h⟩ := c.valid
    · exact h.trans (by decide)
    · exact h
  unfold units16
  split
  · simpa
  · simp only [List.forall_mem_cons]
    exact ⟨by omega, by omega, List.forall_mem_nil _⟩

theorem unit_lt (region : String) (i : Nat) :
    (region.toList.flatMap units16).getD i 0 < 65536 := by
  rw [List.getD_eq_getElem?_getD]
  cases h : (region.toList.flatMap units16)[i]? with
  | none => decide
  | some n =>
    obtain ⟨c, -, hn⟩ := List.mem_flatMap.1 (List.mem_of_getElem? h)
    exact units16_lt c n hn

theorem seed_le (region : String) : seed region ≤ 2097120 := by
  have hfirst := unit_lt region 0
  have hsecond := unit_lt region 1
  unfold seed
  dsimp only
  omega

theorem seed?_eq (region : String) : seed? region = some (.ofNat (seed region)) := by
  have hfirst := unit_lt region 0
  have hsecond := unit_lt region 1
  have hunit : ∀ i, ((region.toList.flatMap units16).map UInt64.ofNat).getD i 0 =
      .ofNat ((region.toList.flatMap units16).getD i 0) := by
    intro i
    rw [List.getD_eq_getElem?_getD, List.getElem?_map, List.getD_eq_getElem?_getD]
    cases (region.toList.flatMap units16)[i]? <;> rfl
  unfold seed? seed
  dsimp only
  rw [hunit, hunit]
  generalize (region.toList.flatMap units16).getD 0 0 = first at hfirst
  generalize (region.toList.flatMap units16).getD 1 0 = second at hsecond
  have hmul : mul? 31 (.ofNat first) = some (.ofNat (31 * first)) :=
    mul?_ofNat 31 first (by decide) (by omega) (by omega)
  have hadd : add? (.ofNat (31 * first)) (.ofNat second) = some (.ofNat (31 * first + second)) :=
    add?_ofNat _ _ (by omega)
  simp only [hmul, Option.bind_eq_bind, Option.bind_some, hadd]

theorem mod_ofNat (a b : Nat) (ha : a < 2 ^ 64) (hb : b < 2 ^ 64) :
    UInt64.ofNat a % UInt64.ofNat b = .ofNat (a % b) :=
  (UInt64.ofNat_mod ha hb).symm

section Members

variable {s i : Nat} (hs : s ≤ 2097120)
include hs

theorem mul?_seed {k : Nat} (hk : k ≤ 2 ^ 42 + 4) :
    s * k < 2 ^ 64 ∧ mul? (.ofNat s) (.ofNat k) = some (.ofNat (s * k)) := by
  have hbound : s * k < 2 ^ 64 := (Nat.mul_le_mul hs hk).trans_lt (by decide)
  exact ⟨hbound, mul?_ofNat s k (by omega) (by omega) hbound⟩

theorem v4Cidr?_eq (hi : i < 2 ^ 42) : v4Cidr? (.ofNat s) (.ofNat i) = some (v4Cidr s i) := by
  have hstep : mul? (.ofNat i) 7 = some (.ofNat (i * 7)) :=
    mul?_ofNat i 7 (by omega) (by decide) (by omega)
  have hmoved : add? (.ofNat s) (.ofNat (i * 7)) = some (.ofNat (s + i * 7)) :=
    add?_ofNat s _ (by omega)
  have hfirst : UInt64.ofNat (s + i * 7) % 223 = .ofNat ((s + i * 7) % 223) :=
    mod_ofNat _ 223 (by omega) (by decide)
  have hoctet : add? (.ofNat ((s + i * 7) % 223)) 1 = some (.ofNat ((s + i * 7) % 223 + 1)) :=
    add?_ofNat _ 1 (by omega)
  have hnext : add? (.ofNat i) 1 = some (.ofNat (i + 1)) := add?_ofNat i 1 (by omega)
  obtain ⟨hbound, hproduct⟩ := mul?_seed hs (k := i + 1) (by omega)
  have hsecond : UInt64.ofNat (s * (i + 1)) % 256 = .ofNat (s * (i + 1) % 256) :=
    mod_ofNat _ 256 hbound (by decide)
  have hplace : UInt64.ofNat i % 9 = .ofNat (i % 9) := mod_ofNat i 9 (by omega) (by decide)
  have hlength : add? 16 (.ofNat (i % 9)) = some (.ofNat (16 + i % 9)) := add?_ofNat 16 _ (by omega)
  simp only [v4Cidr?, hstep, hmoved, hfirst, hoctet, hnext, hproduct, hsecond, hplace, hlength,
    Option.bind_eq_bind, Option.bind_some]
  rw [toNat_ofNat (by omega), toNat_ofNat (by omega), toNat_ofNat (by omega)]
  rfl

theorem v6Cidr?_eq (hi : i < 2 ^ 42) : v6Cidr? (.ofNat s) (.ofNat i) = some (v6Cidr s i) := by
  have hstep : mul? (.ofNat i) 13 = some (.ofNat (i * 13)) :=
    mul?_ofNat i 13 (by omega) (by decide) (by omega)
  have hsecond : add? (.ofNat s) (.ofNat (i * 13)) = some (.ofNat (s + i * 13)) :=
    add?_ofNat s _ (by omega)
  have hnext : add? (.ofNat i) 5 = some (.ofNat (i + 5)) := add?_ofNat i 5 (by omega)
  obtain ⟨hbound, hthird⟩ := mul?_seed hs (k := i + 5) (by omega)
  simp only [v6Cidr?, hstep, hsecond, hnext, hthird, Option.bind_eq_bind, Option.bind_some]
  rw [toNat_ofNat (by omega), toNat_ofNat hbound]
  rfl

theorem cidr?_eq (family : AddressFamily) (hi : i < 2 ^ 42) :
    cidr? family (.ofNat s) (.ofNat i) = some (cidr family s i) := by
  cases family with
  | v4 => exact v4Cidr?_eq hs hi
  | v6 => exact v6Cidr?_eq hs hi

end Members

/-! ## The loop -/

/-- One round: the next member joins the others unless it has been seen. -/
def visit? (family : AddressFamily) (seed : UInt64) (seen : List String) (i : Nat) :
    Option (List String) := do
  let cidr ← cidr? family seed (.ofNat i)
  return if cidr ∈ seen then seen else seen ++ [cidr]

/-- The ranges of a region among the first `count` members of its sequence. -/
def synthesize? (region : String) (family : AddressFamily) (count : UInt64) :
    Option (List AddressRange) := do
  let seed ← seed? region
  let cidrs ← (List.range count.toNat).foldlM (visit? family seed) []
  return cidrs.map fun cidr => { cidr, region, family }

/-- What has been seen after some rounds are the different members so far. -/
theorem foldlM_visit? (family : AddressFamily) {s : Nat} (hs : s ≤ 2097120) {count : Nat}
    (h : count ≤ 2 ^ 42) :
    (List.range count).foldlM (visit? family (.ofNat s)) [] =
      some (distinct ((List.range count).map (cidr family s))) := by
  induction count with
  | zero => rfl
  | succ count ih =>
    rw [List.range_succ, List.foldlM_append, ih (by omega), List.map_append, List.map_singleton,
      distinct_append_singleton]
    have hround := cidr?_eq hs family (show count < 2 ^ 42 by omega)
    simp [visit?, hround, mem_distinct]

theorem synthesize?_eq (region : String) (family : AddressFamily) {count : Nat}
    (h : count ≤ 2 ^ 42) :
    synthesize? region family (.ofNat count) = some (synthesize region family count) := by
  have hloop := foldlM_visit? family (seed_le region) h
  rw [synthesize?, seed?_eq, toNat_ofNat (by omega)]
  simp [hloop, synthesize]

end Word

/-! ## Closed form -/

section ClosedForm

open Synthesis

/-- The synthesizer in closed form. In words of 64 bits nothing overflows; IPv4 ranges are the
members of the sequence up to its period, IPv6 ranges are all members, and none comes twice. -/
theorem synthesize_closed_form (region : String) :
    (∀ family, ∀ count ≤ 2 ^ 42,
      Word.synthesize? region family (.ofNat count) = some (synthesize region family count)) ∧
    (∀ count, synthesize region .v4 count =
      (List.range (min count (2007 * (256 / Nat.gcd (seed region) 256)))).map
        fun i => ⟨v4Cidr (seed region) i, region, .v4⟩) ∧
    (∀ count, synthesize region .v6 count =
      (List.range count).map fun i => ⟨v6Cidr (seed region) i, region, .v6⟩) ∧
    (∀ family count, ((synthesize region family count).map (·.cidr)).Nodup) ∧
    (∀ family m n, m ≤ n → synthesize region family m <+: synthesize region family n) ∧
    (∀ count, (synthesize region .v4 count).length ≤ 2007 * (256 / Nat.gcd (seed region) 256)) ∧
    ∀ count, (synthesize region .v6 count).length = count := by
  refine ⟨fun family count hcount => ?_, ?_, ?_, ?_, ?_, fun count => ?_, fun count => ?_⟩
  · exact Word.synthesize?_eq region family hcount
  · exact synthesize_v4 region
  · exact synthesize_v6 region
  · exact nodup_synthesize region
  · exact fun family m n h => synthesize_prefix region family h
  · rw [synthesize_v4, List.length_map, List.length_range]
    exact min_le_right _ _
  · rw [synthesize_v6, List.length_map, List.length_range]

/-- The empty text has seed zero, so its sequence has the shortest period. -/
theorem synthesize_closed_form_empty :
    Word.synthesize? "" .v4 (.ofNat (2 ^ 42)) = some (synthesize "" .v4 (2 ^ 42)) ∧
      synthesize "" .v4 2007 <+: synthesize "" .v4 (2 ^ 42) ∧
      (synthesize "" .v4 (2 ^ 42)).length = 2007 := by
  obtain ⟨hwords, hv4, -, -, hprefix, -, -⟩ := synthesize_closed_form ""
  refine ⟨hwords .v4 (2 ^ 42) le_rfl, hprefix .v4 2007 (2 ^ 42) (by decide), ?_⟩
  have hseed : seed "" = 0 := by decide
  rw [hv4, List.length_map, List.length_range, hseed]
  decide

end ClosedForm

end GeoPolicy
