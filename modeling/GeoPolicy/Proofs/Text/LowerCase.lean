import GeoPolicy.Proofs.Text.Case

/-!
# Small letters in ASCII

Full lower casing is told by the table of capitals, read backwards: the lower case of a capital is
the letter that has it as its capital. Sigma alone has two lower cases, one of them for the ends of
words. Of all characters outside ASCII only the sign for kelvin has a lower case in ASCII alone, so
a word without a K is the lower case of a text exactly if it is so letter by letter of ASCII.

## Main definitions

* `Text.Case.lowerCodes` — the lower case of a code point outside ASCII.
* `Text.lowerForms` — the lower cases of a character.
* `Text.LowersTo` — a text and its lower case.
-/

namespace GeoPolicy

namespace Text

/-! ## Lower case -/

namespace Case

/-- The first letters of the runs that are second forms of letters, such as the long s: no capital
has one of them as its lower case. -/
def variants : List Nat :=
  [0xB5, 0x131, 0x17F, 0x1C5, 0x1C8, 0x1CB, 0x1F2, 0x345, 0x3C2, 0x3D0, 0x3D1, 0x3D5, 0x3D6, 0x3F0,
    0x3F1, 0x3F5, 0x1C80, 0x1C81, 0x1C82, 0x1C83, 0x1C85, 0x1C86, 0x1C87, 0x1C88, 0x1E9B, 0x1FBE]

/-- The letter of a run that has a code point as its capital. -/
def Run.small? (r : Run) (n : Nat) : Option Nat :=
  if r.first ∉ variants ∧ r.capital ≤ n ∧ n ≤ r.capital + (r.last - r.first) ∧
      (n - r.capital) % r.step = 0 then
    some (r.first + (n - r.capital))
  else
    none

/-- The characters that have a lower case without being the capital of a letter in a run: letters in
title case, second forms of capitals, and the dotted I. -/
def reductions : List (Nat × List Nat) :=
  [(0x130, [0x69, 0x307]), (0x1C5, [0x1C6]), (0x1C8, [0x1C9]), (0x1CB, [0x1CC]), (0x1F2, [0x1F3]),
    (0x3F4, [0x3B8]), (0x1E9E, [0xDF]), (0x1F88, [0x1F80]), (0x1F89, [0x1F81]), (0x1F8A, [0x1F82]),
    (0x1F8B, [0x1F83]), (0x1F8C, [0x1F84]), (0x1F8D, [0x1F85]), (0x1F8E, [0x1F86]),
    (0x1F8F, [0x1F87]), (0x1F98, [0x1F90]), (0x1F99, [0x1F91]), (0x1F9A, [0x1F92]),
    (0x1F9B, [0x1F93]), (0x1F9C, [0x1F94]), (0x1F9D, [0x1F95]), (0x1F9E, [0x1F96]),
    (0x1F9F, [0x1F97]), (0x1FA8, [0x1FA0]), (0x1FA9, [0x1FA1]), (0x1FAA, [0x1FA2]),
    (0x1FAB, [0x1FA3]), (0x1FAC, [0x1FA4]), (0x1FAD, [0x1FA5]), (0x1FAE, [0x1FA6]),
    (0x1FAF, [0x1FA7]), (0x1FBC, [0x1FB3]), (0x1FCC, [0x1FC3]), (0x1FFC, [0x1FF3]),
    (0x2126, [0x3C9]), (0x212A, [0x6B]), (0x212B, [0xE5])]

/-- The lower case of a code point outside ASCII. -/
def lowerCodes (n : Nat) : List Nat :=
  match reductions.lookup n with
  | some codes => codes
  | none => [(runs.findSome? (·.small? n)).getD n]

end Case

/-- The lower cases of a character. Only sigma has more than one. -/
def lowerForms (c : Char) : List (List Char) :=
  if c.toNat < 128 then [[c.toLower]]
  else if c = 'Σ' then [['σ'], ['ς']]
  else [(Case.lowerCodes c.toNat).map Char.ofNat]

/-- A text and its lower case, letter by letter. At each sigma either form may stand, as which of
them does depends on the letters around it. -/
inductive LowersTo : List Char → List Char → Prop
  | nil : LowersTo [] []
  | cons {c : Char} {s letters t : List Char} (hc : letters ∈ lowerForms c) (hs : LowersTo s t) :
    LowersTo (c :: s) (letters ++ t)

theorem exists_lowersTo (s : List Char) : ∃ t, LowersTo s t := by
  induction s with
  | nil => exact ⟨[], .nil⟩
  | cons c s ih =>
    obtain ⟨t, ht⟩ := ih
    obtain ⟨letters, hletters⟩ : ∃ letters, letters ∈ lowerForms c := by
      unfold lowerForms
      split_ifs
      all_goals exact ⟨_, List.mem_cons_self⟩
    exact ⟨letters ++ t, .cons hletters ht⟩

/-! ## Letters of ASCII -/

/-- The small letter of a capital is 32 places behind it. -/
theorem toNat_toLower_lt_iff (c : Char) : c.toLower.toNat < 128 ↔ c.toNat < 128 := by
  by_cases h : c.isUpper
  · have hrange := (isUpper_iff_toNat c).1 h
    rw [Char.toLower_eq_of_isUpper h, Char.toNat_ofNat, if_pos (.inl (by omega))]
    omega
  · rw [Char.toLower_eq_of_not_isUpper h]

theorem lowerForms_of_lt {c : Char} (h : c.toNat < 128) : lowerForms c = [[c.toLower]] :=
  if_pos h

theorem LowersTo.eq_of_forall_lt {s t : List Char} (h : LowersTo s t)
    (hs : ∀ c ∈ s, c.toNat < 128) : t = s.map Char.toLower := by
  induction h with
  | nil => rfl
  | @cons c s letters t hc _ ih =>
    obtain ⟨hlt, hs⟩ := List.forall_mem_cons.1 hs
    rw [lowerForms_of_lt hlt, List.mem_singleton] at hc
    rw [hc, ih hs, List.map_cons, List.singleton_append]

/-! ## Other letters -/

namespace Case

theorem of_mem_reductions {n : Nat} {codes : List Nat} (h : (n, codes) ∈ reductions) :
    n = 0x212A ∨ ∃ code ∈ codes, 128 ≤ code ∧ code.isValidChar := by
  have hall : ∀ e ∈ reductions,
      e.1 = 0x212A ∨ ∃ code ∈ e.2, 128 ≤ code ∧ code.isValidChar := by decide +kernel
  exact hall _ h

/-- The letters of a run are outside ASCII, and on one side of the code points that are no
characters. -/
theorem letters_of_mem_runs {r : Run} (h : r ∈ runs) :
    128 ≤ r.first ∧ r.first ≤ r.last ∧
      (r.last < 0xD800 ∨ 0xDFFF < r.first ∧ r.last < 0x110000) := by
  have hall : ∀ r ∈ runs, 128 ≤ r.first ∧ r.first ≤ r.last ∧
      (r.last < 0xD800 ∨ 0xDFFF < r.first ∧ r.last < 0x110000) := by
    decide +kernel
  exact hall r h

theorem of_small?_eq_some {r : Run} (hr : r ∈ runs) {n code : Nat} (h : r.small? n = some code) :
    128 ≤ code ∧ code.isValidChar := by
  rw [Run.small?] at h
  split at h
  · next hn =>
    obtain rfl := Option.some.inj h
    have hletters := letters_of_mem_runs hr
    refine ⟨by omega, ?_⟩
    rw [Nat.isValidChar]
    omega
  · cases h

theorem exists_le_of_lowerCodes {c : Char} (h : 128 ≤ c.toNat) (hkelvin : c.toNat ≠ 0x212A) :
    ∃ code ∈ lowerCodes c.toNat, 128 ≤ code ∧ code.isValidChar := by
  rw [lowerCodes]
  cases hlookup : reductions.lookup c.toNat with
  | some codes =>
    obtain ⟨before, after, hsplit, -⟩ := List.lookup_eq_some_iff.1 hlookup
    have hcodes : (c.toNat, codes) ∈ reductions := by simp [hsplit]
    exact (of_mem_reductions hcodes).resolve_left hkelvin
  | none =>
    cases hrun : runs.findSome? (·.small? c.toNat) with
    | none => exact ⟨c.toNat, List.mem_singleton.2 rfl, h, c.valid⟩
    | some code =>
      obtain ⟨r, hr, hcode⟩ := List.exists_of_findSome?_eq_some hrun
      exact ⟨code, List.mem_singleton.2 rfl, of_small?_eq_some hr hcode⟩

end Case

/-- A character outside ASCII other than the sign for kelvin keeps a letter outside ASCII in its
lower case. -/
theorem exists_le_of_mem_lowerForms {c : Char} (h : 128 ≤ c.toNat) (hkelvin : c.toNat ≠ 0x212A)
    {letters : List Char} (hletters : letters ∈ lowerForms c) : ∃ u ∈ letters, 128 ≤ u.toNat := by
  rw [lowerForms, if_neg (Nat.not_lt.2 h)] at hletters
  split at hletters
  · have hsigma : ∀ letters ∈ [['σ'], ['ς']], ∃ u ∈ letters, 128 ≤ u.toNat := by simp
    exact hsigma letters hletters
  · obtain rfl := List.mem_singleton.1 hletters
    obtain ⟨code, hcode, hle, hvalid⟩ := Case.exists_le_of_lowerCodes h hkelvin
    refine ⟨Char.ofNat code, List.mem_map_of_mem hcode, ?_⟩
    rwa [Char.toNat_ofNat, if_pos hvalid]

theorem lowerForms_kelvin {c : Char} (h : c.toNat = 0x212A) : lowerForms c = [['k']] := by
  obtain rfl : c = Char.ofNat 0x212A := by rw [← h, Char.ofNat_toNat]
  decide +kernel

/-- Where the lower case of a text is in ASCII and without a K, so is the text. -/
theorem LowersTo.forall_lt {s t : List Char} (h : LowersTo s t) (ht : ∀ u ∈ t, u.toNat < 128)
    (hk : 'k' ∉ t) : ∀ c ∈ s, c.toNat < 128 := by
  induction h with
  | nil => exact List.forall_mem_nil _
  | @cons c s letters t hc _ ih =>
    rw [List.mem_append, not_or] at hk
    obtain ⟨hletters, ht⟩ := List.forall_mem_append.1 ht
    refine List.forall_mem_cons.2 ⟨?_, ih ht hk.2⟩
    by_contra hle
    by_cases hkelvin : c.toNat = 0x212A
    · rw [lowerForms_kelvin hkelvin, List.mem_singleton] at hc
      exact hk.1 (hc ▸ List.mem_singleton.2 rfl)
    · obtain ⟨u, hu, hlarge⟩ := exists_le_of_mem_lowerForms (Nat.le_of_not_lt hle) hkelvin hc
      exact absurd (hletters u hu) (Nat.not_lt.2 hlarge)

/-- For a word in ASCII without a K, lower case is lower case in ASCII. -/
theorem LowersTo.eq_iff {s t w : List Char} (h : LowersTo s t) (hascii : ∀ u ∈ w, u.toNat < 128)
    (hk : 'k' ∉ w) : t = w ↔ s.map Char.toLower = w := by
  suffices hs : t = w ∨ s.map Char.toLower = w → ∀ c ∈ s, c.toNat < 128 by
    constructor
    · exact fun hw => h.eq_of_forall_lt (hs (.inl hw)) ▸ hw
    · exact fun hw => (h.eq_of_forall_lt (hs (.inr hw))).trans hw
  rintro (rfl | rfl)
  · exact h.forall_lt hascii hk
  · exact fun c hc => (toNat_toLower_lt_iff c).1 (hascii _ (List.mem_map_of_mem hc))

end Text

end GeoPolicy
