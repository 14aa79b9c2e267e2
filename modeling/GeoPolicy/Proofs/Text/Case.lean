import GeoPolicy.Text.Case
import Mathlib

/-!
# Capitals in ASCII

Putting a text into upper case can turn other characters into letters of ASCII: ten letters outside
ASCII have capitals in ASCII alone, and every other one has a capital outside it. All ten have an F,
an I or an S among their capitals, so a word without these letters is the upper case of a text
exactly if it is so letter by letter of ASCII.

## Main definitions

* `Text.asciiCapitals` — the letters outside ASCII whose upper case is made of letters of ASCII.
-/

namespace GeoPolicy

namespace Text

/-! ## Letters of ASCII -/

theorem isLower_iff_toNat (c : Char) : c.isLower = true ↔ 97 ≤ c.toNat ∧ c.toNat ≤ 122 :=
  Bool.and_eq_true_iff.trans (and_congr decide_eq_true_iff decide_eq_true_iff)

/-- The capital of a letter in lower case is 32 places before it. -/
theorem toNat_toUpper_lt_iff (c : Char) : c.toUpper.toNat < 128 ↔ c.toNat < 128 := by
  by_cases h : c.isLower
  · have hrange := (isLower_iff_toNat c).1 h
    rw [Char.toUpper_eq_of_isLower h, Char.toNat_ofNat, if_pos (.inl (by omega))]
    omega
  · rw [Char.toUpper_eq_of_not_isLower h]

theorem asciiLower_asciiUpper (s : String) : asciiLower (asciiUpper s) = asciiLower s := by
  have hcomp : Char.toLower ∘ Char.toUpper = Char.toLower :=
    funext Char.toLower_toUpper_eq_toLower
  rw [asciiLower, asciiUpper, String.toList_ofList, List.map_map, hcomp, asciiLower]

theorem upperChar_of_lt {c : Char} (h : c.toNat < 128) : upperChar c = [c.toUpper] :=
  if_pos h

theorem upper_of_forall_lt {s : List Char} (h : ∀ c ∈ s, c.toNat < 128) :
    upper s = s.map Char.toUpper := by
  rw [upper, List.map_eq_flatMap]
  exact List.flatMap_congr fun c hc => upperChar_of_lt (h c hc)

/-! ## Other letters -/

/-- The letters outside ASCII whose upper case is made of letters of ASCII, with it. -/
def asciiCapitals : List (Char × List Char) :=
  [('ß', ['S', 'S']), ('ı', ['I']), ('ſ', ['S']), ('ﬀ', ['F', 'F']), ('ﬁ', ['F', 'I']),
    ('ﬂ', ['F', 'L']), ('ﬃ', ['F', 'F', 'I']), ('ﬄ', ['F', 'F', 'L']), ('ﬅ', ['S', 'T']),
    ('ﬆ', ['S', 'T'])]

theorem upperChar_of_mem_asciiCapitals {c : Char} {capitals : List Char}
    (h : (c, capitals) ∈ asciiCapitals) : upperChar c = capitals := by
  have hall : ∀ e ∈ asciiCapitals, upperChar e.1 = e.2 := by decide +kernel
  exact hall _ h

theorem exists_mem_of_mem_asciiCapitals {c : Char} {capitals : List Char}
    (h : (c, capitals) ∈ asciiCapitals) : ∃ u ∈ capitals, u ∈ ['F', 'I', 'S'] := by
  have hall : ∀ e ∈ asciiCapitals, ∃ u ∈ e.2, u ∈ ['F', 'I', 'S'] := by simp [asciiCapitals]
  exact hall _ h

namespace Case

theorem of_mem_expansions {n : Nat} {codes : List Nat} (h : (n, codes) ∈ expansions) :
    (Char.ofNat n, codes.map Char.ofNat) ∈ asciiCapitals ∨
      ∃ code ∈ codes, 128 ≤ code ∧ code.isValidChar := by
  have hall : ∀ e ∈ expansions, (Char.ofNat e.1, e.2.map Char.ofNat) ∈ asciiCapitals ∨
      ∃ code ∈ e.2, 128 ≤ code ∧ code.isValidChar := by decide +kernel
  exact hall _ h

/-- A run of more than one letter keeps its capitals outside ASCII, and on one side of the code
points that are no characters. -/
theorem of_mem_runs {r : Run} (h : r ∈ runs) :
    r.first = r.last ∧ (Char.ofNat r.first, [Char.ofNat r.capital]) ∈ asciiCapitals ∨
      128 ≤ r.capital ∧ (r.capital + (r.last - r.first) < 0xD800 ∨
        0xDFFF < r.capital ∧ r.capital + (r.last - r.first) < 0x110000) := by
  have hall : ∀ r ∈ runs,
      r.first = r.last ∧ (Char.ofNat r.first, [Char.ofNat r.capital]) ∈ asciiCapitals ∨
        128 ≤ r.capital ∧ (r.capital + (r.last - r.first) < 0xD800 ∨
          0xDFFF < r.capital ∧ r.capital + (r.last - r.first) < 0x110000) := by
    decide +kernel
  exact hall r h

theorem of_capital?_eq_some {r : Run} (hr : r ∈ runs) {n code : Nat}
    (h : r.capital? n = some code) :
    (Char.ofNat n, [Char.ofNat code]) ∈ asciiCapitals ∨ 128 ≤ code ∧ code.isValidChar := by
  rw [Run.capital?] at h
  split at h
  · next hn =>
    obtain rfl := Option.some.inj h
    obtain ⟨hsingle, hmem⟩ | ⟨hcapital, hvalid⟩ := of_mem_runs hr
    · obtain rfl : r.first = n := by omega
      exact .inl (by simpa using hmem)
    · refine .inr ⟨by omega, ?_⟩
      rw [Nat.isValidChar]
      omega
  · cases h

/-- The capitals of a character outside ASCII are those in the list, or one of them is no letter of
ASCII. -/
theorem of_upperCodes (c : Char) (h : 128 ≤ c.toNat) :
    (c, (upperCodes c.toNat).map Char.ofNat) ∈ asciiCapitals ∨
      ∃ code ∈ upperCodes c.toNat, 128 ≤ code ∧ code.isValidChar := by
  have hself : Char.ofNat c.toNat = c := Char.ofNat_toNat c
  rw [upperCodes]
  cases hlookup : expansions.lookup c.toNat with
  | some codes =>
    obtain ⟨before, after, hsplit, -⟩ := List.lookup_eq_some_iff.1 hlookup
    have hcodes : (c.toNat, codes) ∈ expansions := by simp [hsplit]
    have hmem := of_mem_expansions hcodes
    rwa [hself] at hmem
  | none =>
    dsimp only
    cases hrun : runs.findSome? (·.capital? c.toNat) with
    | none => exact .inr ⟨c.toNat, List.mem_singleton.2 rfl, h, c.valid⟩
    | some code =>
      obtain ⟨r, hr, hcode⟩ := List.exists_of_findSome?_eq_some hrun
      obtain hmem | hcode := of_capital?_eq_some hr hcode
      · rw [hself] at hmem
        exact .inl hmem
      · exact .inr ⟨code, List.mem_singleton.2 rfl, hcode⟩

end Case

/-- A character outside ASCII is in the list, or it has a capital outside ASCII. -/
theorem mem_asciiCapitals_or_exists_le {c : Char} (h : 128 ≤ c.toNat) :
    (c, upperChar c) ∈ asciiCapitals ∨ ∃ u ∈ upperChar c, 128 ≤ u.toNat := by
  rw [upperChar, if_neg (Nat.not_lt.2 h)]
  obtain hmem | ⟨code, hcode, hle, hvalid⟩ := Case.of_upperCodes c h
  · exact .inl hmem
  · refine .inr ⟨Char.ofNat code, List.mem_map_of_mem hcode, ?_⟩
    rwa [Char.toNat_ofNat, if_pos hvalid]

theorem upperChar_ne_nil (c : Char) : upperChar c ≠ [] := by
  by_cases h : c.toNat < 128
  · rw [upperChar_of_lt h]
    exact List.cons_ne_nil _ _
  obtain hmem | ⟨u, hu, -⟩ := mem_asciiCapitals_or_exists_le (Nat.le_of_not_lt h)
  · obtain ⟨u, hu, -⟩ := exists_mem_of_mem_asciiCapitals hmem
    exact List.ne_nil_of_mem hu
  · exact List.ne_nil_of_mem hu

theorem length_le_length_upper (s : List Char) : s.length ≤ (upper s).length := by
  induction s with
  | nil => exact Nat.zero_le _
  | cons c s ih =>
    have hc := List.length_pos_of_ne_nil (upperChar_ne_nil c)
    rw [upper, List.flatMap_cons, List.length_append, ← upper, List.length_cons]
    omega

/-- Where the upper case of a text is in ASCII, each character is, or it is in the list. -/
theorem lt_or_mem_asciiCapitals {s : List Char} (h : ∀ u ∈ upper s, u.toNat < 128) :
    ∀ c ∈ s, c.toNat < 128 ∨ (c, upperChar c) ∈ asciiCapitals := by
  intro c hc
  by_cases hascii : c.toNat < 128
  · exact .inl hascii
  refine .inr ((mem_asciiCapitals_or_exists_le (Nat.le_of_not_lt hascii)).resolve_right ?_)
  rintro ⟨u, hu, hle⟩
  exact absurd (h u (List.mem_flatMap.2 ⟨c, hc, hu⟩)) (Nat.not_lt.2 hle)

/-- For a word in ASCII without F, I and S, upper case is upper case in ASCII. -/
theorem upper_eq_iff {w : List Char} (hascii : ∀ u ∈ w, u.toNat < 128)
    (hletters : ∀ u ∈ ['F', 'I', 'S'], u ∉ w) (s : List Char) :
    upper s = w ↔ s.map Char.toUpper = w := by
  suffices h : upper s = w ∨ s.map Char.toUpper = w → ∀ c ∈ s, c.toNat < 128 by
    constructor
    · exact fun hw => upper_of_forall_lt (h (.inl hw)) ▸ hw
    · exact fun hw => (upper_of_forall_lt (h (.inr hw))).trans hw
  rintro (rfl | rfl) c hc
  · refine (lt_or_mem_asciiCapitals hascii c hc).resolve_right fun hmem => ?_
    obtain ⟨u, hu, hletter⟩ := exists_mem_of_mem_asciiCapitals hmem
    exact hletters u hletter (List.mem_flatMap.2 ⟨c, hc, hu⟩)
  · exact (toNat_toUpper_lt_iff c).1 (hascii _ (List.mem_map_of_mem hc))

end Text

end GeoPolicy
