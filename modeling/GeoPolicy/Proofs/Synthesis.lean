import GeoPolicy.Proofs.Address.Groups
import GeoPolicy.Region
import GeoPolicy.Synthesis
import Mathlib.Data.List.Nodup

/-!
# Synthesized ranges as text

Every synthesized text is one item of a list, made of digits, dots, colons and slashes. An IPv4 text
is always a range, and the first one of a region tells the region: its octets are the seed modulo
223 and modulo 256. An IPv6 text is a range as long as its groups fit 16 bits.

## Main definitions

* `Synthesis.rangeChars` — the characters that ranges are written with.
-/

namespace GeoPolicy

/-! ## Distinct members -/

theorem mem_distinct {α : Type} [DecidableEq α] {a : α} {l : List α} : a ∈ distinct l ↔ a ∈ l := by
  induction l with
  | nil => rfl
  | cons b l ih =>
    rw [distinct, List.mem_cons, List.mem_filter, ih, List.mem_cons]
    by_cases h : a = b <;> simp [h]

theorem distinct_eq_self {α : Type} [DecidableEq α] {l : List α} (h : l.Nodup) :
    distinct l = l := by
  induction l with
  | nil => rfl
  | cons a l ih =>
    obtain ⟨ha, hl⟩ := List.nodup_cons.1 h
    rw [distinct, ih hl, List.filter_eq_self.2]
    intro b hb
    simpa using fun hab : b = a => ha (hab ▸ hb)

theorem distinct_append_singleton {α : Type} [DecidableEq α] (l : List α) (a : α) :
    distinct (l ++ [a]) = if a ∈ l then distinct l else distinct l ++ [a] := by
  induction l with
  | nil => rfl
  | cons b l ih =>
    rw [List.cons_append, distinct, ih, distinct]
    by_cases hl : a ∈ l
    · rw [if_pos hl, if_pos (List.mem_cons_of_mem b hl)]
    by_cases hb : a = b
    · subst hb
      simp [hl]
    · simp [hl, hb]

namespace Synthesis

open Text

/-! ## Texts -/

theorem toList_v4Cidr (seed i : Nat) :
    (v4Cidr seed i).toList =
      Nat.toDigits 10 ((seed + i * 7) % 223 + 1) ++
        [(seed * (i + 1)) % 256, 0, 0].flatMap (fun n => '.' :: Nat.toDigits 10 n) ++
        '/' :: Nat.toDigits 10 (16 + i % 9) := by
  unfold v4Cidr
  dsimp only [toString]
  simp only [String.toList_append, Nat.toList_repr]
  repeat rw [String.toList_ofList]
  simp

theorem toList_v6Cidr (seed i : Nat) :
    (v6Cidr seed i).toList =
      '2' :: '0' :: '0' :: '1' :: ':' :: paddedDigits 16 4 (seed + i * 13) ++
        ':' :: paddedDigits 16 4 (seed * (i + 5)) ++ [':', ':', '/', '4', '8'] := by
  unfold v6Cidr
  dsimp only [group, toString]
  simp only [String.toList_append]
  repeat rw [String.toList_ofList]
  simp

/-- The characters that ranges are written with. -/
def rangeChars : List Char :=
  digitChars ++ ['.', ':', '/']

theorem mem_rangeChars_of_mem_digitChars {s : List Char} (h : ∀ c ∈ s, c ∈ digitChars) :
    ∀ c ∈ s, c ∈ rangeChars :=
  fun c hc => List.mem_append_left _ (h c hc)

theorem mem_rangeChars_of_mem_cidr (family : AddressFamily) (seed i : Nat) :
    ∀ c ∈ (cidr family seed i).toList, c ∈ rangeChars := by
  cases family with
  | v4 =>
    have hdigits : ∀ n, ∀ c ∈ Nat.toDigits 10 n, c ∈ rangeChars := fun n =>
      mem_rangeChars_of_mem_digitChars mem_digitChars_of_mem_toDigits
    rw [cidr, toList_v4Cidr]
    simp only [List.forall_mem_append, List.forall_mem_cons, List.flatMap_cons, List.flatMap_nil]
    exact ⟨⟨hdigits _, ⟨by decide, hdigits _⟩, ⟨by decide, hdigits _⟩, ⟨by decide, hdigits _⟩,
      List.forall_mem_nil _⟩, by decide, hdigits _⟩
  | v6 =>
    have hdigits : ∀ n, ∀ c ∈ paddedDigits 16 4 n, c ∈ rangeChars := fun n =>
      mem_rangeChars_of_mem_digitChars
        mem_digitChars_of_mem_paddedDigits
    rw [cidr, toList_v6Cidr]
    simp only [List.forall_mem_append, List.forall_mem_cons, List.cons_append]
    exact ⟨by decide, by decide, by decide, by decide, by decide,
      ⟨hdigits _, by decide, hdigits _⟩, by decide, by decide, by decide, by decide, by decide,
      List.forall_mem_nil _⟩

theorem cidr_ne_nil (family : AddressFamily) (seed i : Nat) : (cidr family seed i).toList ≠ [] := by
  cases family with
  | v4 => simp [cidr, toList_v4Cidr]
  | v6 => simp [cidr, toList_v6Cidr]

/-- A range as text has no blank and no comma in it. -/
theorem isItem_cidr (family : AddressFamily) (seed i : Nat) :
    IsItem (cidr family seed i).toList := by
  have hblank : rangeChars.all (isBlank · = false) = true := by decide
  have hchars := mem_rangeChars_of_mem_cidr family seed i
  have hword : ∀ c ∈ (cidr family seed i).toList, isBlank c = false := fun c hc =>
    of_decide_eq_true (List.all_eq_true.1 hblank c (hchars c hc))
  refine ⟨⟨cidr_ne_nil family seed i, hword⟩, fun hcomma => ?_⟩
  exact absurd (hchars ',' hcomma) (by decide)

/-! ## Ranges -/

/-- Every IPv4 text of the sequence is a range. -/
theorem parse_v4Cidr (seed i : Nat) :
    Network.parse (v4Cidr seed i) =
      .ok ⟨.ofOctets [(seed + i * 7) % 223 + 1, (seed * (i + 1)) % 256, 0, 0], 16 + i % 9,
        show 16 + i % 9 ≤ 32 by omega⟩ := by
  have hword : IsWord (v4Cidr seed i).toList := (isItem_cidr .v4 seed i).toIsWord
  have hoctets : ∀ n ∈ [(seed + i * 7) % 223 + 1, (seed * (i + 1)) % 256, 0, 0], n ≤ 255 := by
    simp only [List.forall_mem_cons]
    exact ⟨by omega, by omega, by omega, by omega, List.forall_mem_nil _⟩
  rw [Network.parse_of_isWord hword, toList_v4Cidr,
    Network.ofChars?_octets _ _ rfl hoctets (by omega)]
  rfl

/-- Three groups before the mark are an address if all of them fit 16 bits. -/
theorem ofChars?_groups_mark {first : Nat} (hfirst : first < 65536) (second third : Nat) :
    Address.ofChars? (Address.groupChars 4 [first, second, third] ++ [':', ':']) =
      if second ≤ 0xffff ∧ third ≤ 0xffff then
        some (.ofGroups [first, second, third, 0, 0, 0, 0, 0])
      else none := by
  by_cases hsecond : second ≤ 0xffff
  · by_cases hthird : third ≤ 0xffff
    · have hgroups : ∀ g ∈ [first, second, third], g < 65536 := by
        simp only [List.forall_mem_cons]
        exact ⟨hfirst, by omega, by omega, List.forall_mem_nil _⟩
      have hmark := Address.ofChars?_mark (by decide : 4 ≤ 4) hgroups (by simp)
        (Address.readGroups_nil 4 true)
      rw [if_pos ⟨hsecond, hthird⟩]
      exact hmark
    · have hgroups : ∀ g ∈ [first, second], g < 65536 := by
        simp only [List.forall_mem_cons]
        exact ⟨hfirst, by omega, List.forall_mem_nil _⟩
      have hnone := Address.ofChars?_eq_none (by decide : 4 ≤ 4) hgroups (by simp)
        (show 65536 ≤ third by omega) (.colon [':'])
      rw [if_neg fun h => hthird h.2]
      simpa [Address.groupChars, Address.rowChars] using hnone
  · have hnone := Address.ofChars?_eq_none (by decide : 4 ≤ 4) (List.forall_mem_singleton.2 hfirst)
      (by simp) (show 65536 ≤ second by omega)
      (.colon (paddedDigits 16 4 third ++ [':', ':']))
    rw [if_neg fun h => hsecond h.1]
    simpa [Address.groupChars, Address.rowChars] using hnone

/-- An IPv6 text of the sequence is a range as long as both of its groups fit 16 bits. -/
theorem parse_v6Cidr (seed i : Nat) :
    Network.parse (v6Cidr seed i) =
      if seed + i * 13 ≤ 0xffff ∧ seed * (i + 5) ≤ 0xffff then
        .ok ⟨.ofGroups [0x2001, seed + i * 13, seed * (i + 5), 0, 0, 0, 0, 0], 48,
          show 48 ≤ 128 by decide⟩
      else .error (.invalidRange (v6Cidr seed i)) := by
  have hword : IsWord (v6Cidr seed i).toList := (isItem_cidr .v6 seed i).toIsWord
  have hslash : ∀ n, '/' ∉ paddedDigits 16 4 n := fun n =>
    (isNumeral_paddedDigits 4 n).not_mem rfl
  have hfirst : paddedDigits 16 4 0x2001 = ['2', '0', '0', '1'] := by decide
  have hsplit : (v6Cidr seed i).toList =
      (Address.groupChars 4 [0x2001, seed + i * 13, seed * (i + 5)] ++ [':', ':']) ++
        '/' :: Nat.toDigits 10 48 := by
    rw [toList_v6Cidr, Address.groupChars, Address.rowChars, hfirst]
    simp
    rfl
  rw [Network.parse_of_isWord hword, hsplit,
    Network.ofChars?_append_slash (by simp [Address.groupChars, Address.rowChars, hslash]),
    ofChars?_groups_mark (by decide), Network.readLength?_toDigits (by decide)]
  split
  · rfl
  · rfl

example : Network.parse (v6Cidr 2718 20) = .error (.invalidRange "2001:0ba2:1096e::/48") := rfl

theorem parse_v6Cidr_eq_ok_iff {seed i : Nat} {n : Network} :
    Network.parse (v6Cidr seed i) = .ok n ↔
      (seed + i * 13 ≤ 0xffff ∧ seed * (i + 5) ≤ 0xffff) ∧
        n = ⟨.ofGroups [0x2001, seed + i * 13, seed * (i + 5), 0, 0, 0, 0, 0], 48,
          show 48 ≤ 128 by decide⟩ := by
  rw [parse_v6Cidr]
  by_cases hfit : seed + i * 13 ≤ 0xffff ∧ seed * (i + 5) ≤ 0xffff
  · rw [if_pos hfit, Except.ok.injEq]
    exact ⟨fun h => ⟨hfit, h.symm⟩, fun h => h.2.symm⟩
  · rw [if_neg hfit]
    constructor
    · intro h
      cases h
    · intro h
      exact absurd h.1 hfit

/-- A synthesized text denotes a range of its own family, if any. -/
theorem family_of_parse_cidr {family : AddressFamily} {seed i : Nat} {n : Network}
    (h : Network.parse (cidr family seed i) = .ok n) : n.family = family := by
  cases family with
  | v4 =>
    rw [cidr, parse_v4Cidr, Except.ok.injEq] at h
    rw [← h]
    rfl
  | v6 =>
    obtain ⟨-, rfl⟩ := parse_v6Cidr_eq_ok_iff.1 h
    rfl

/-! ## Seeds -/

theorem units16_of_isUpper {c : Char} (h : c.isUpper = true) : units16 c = [c.toNat] := by
  have hrange := (Text.isUpper_iff_toNat c).1 h
  rw [units16, if_pos (by omega)]

theorem seed_text (r : RegionCode) : seed r.text = 31 * r.first.toNat + r.second.toNat := by
  unfold seed RegionCode.text
  rw [String.toList_ofList]
  simp [RegionCode.chars, units16_of_isUpper r.first_isUpper, units16_of_isUpper r.second_isUpper]

theorem seed_text_bounds (r : RegionCode) : 2080 ≤ seed r.text ∧ seed r.text ≤ 2880 := by
  have hfirst := (Text.isUpper_iff_toNat _).1 r.first_isUpper
  have hsecond := (Text.isUpper_iff_toNat _).1 r.second_isUpper
  rw [seed_text]
  omega

/-- Codes with one seed are equal: the second letter makes less than 31 of it. -/
theorem seed_text_injective {r s : RegionCode} (h : seed r.text = seed s.text) : r = s := by
  have hr := (Text.isUpper_iff_toNat _).1 r.second_isUpper
  have hs := (Text.isUpper_iff_toNat _).1 s.second_isUpper
  rw [seed_text, seed_text] at h
  have hfirst : r.first = s.first := Char.toNat_inj.1 (by omega)
  have hsecond : r.second = s.second := Char.toNat_inj.1 (by omega)
  cases r
  cases s
  simp_all

/-- The first IPv4 text of a region tells the region. Its octets are the seed modulo 223 and
modulo 256, and the seeds of all codes lie closer together than the product. -/
theorem v4Cidr_seed_injective {r s : RegionCode}
    (h : v4Cidr (seed r.text) 0 = v4Cidr (seed s.text) 0) : r = s := by
  have hparse := parse_v4Cidr (seed r.text) 0
  rw [h, parse_v4Cidr, Except.ok.injEq] at hparse
  have hoctets := congrArg Network.address hparse
  dsimp only at hoctets
  obtain ⟨hfirst, hsecond⟩ :=
    Address.ofOctets_inj (by omega) (by omega) (by omega) (by omega) hoctets
  have hr := seed_text_bounds r
  have hs := seed_text_bounds s
  exact seed_text_injective (by omega)

end Synthesis

/-! ## Ranges of a region -/

theorem exists_cidr_of_mem_synthesize {region : String} {family : AddressFamily} {count : Nat}
    {r : AddressRange} (h : r ∈ synthesize region family count) :
    ∃ i, r.cidr = Synthesis.cidr family (Synthesis.seed region) i := by
  obtain ⟨cidr, hcidr, rfl⟩ := List.mem_map.1 h
  obtain ⟨i, -, rfl⟩ := List.mem_map.1 (mem_distinct.1 hcidr)
  exact ⟨i, rfl⟩

/-- A sequence of ranges starts with its first member. -/
theorem exists_synthesize_eq_cons (region : String) (family : AddressFamily) {count : Nat}
    (h : 0 < count) :
    ∃ rest, synthesize region family count =
      ⟨Synthesis.cidr family (Synthesis.seed region) 0, region, family⟩ :: rest := by
  obtain ⟨count, rfl⟩ := Nat.exists_eq_succ_of_ne_zero h.ne'
  rw [synthesize, List.range_succ_eq_map, List.map_cons, distinct, List.map_cons]
  exact ⟨_, rfl⟩

end GeoPolicy
