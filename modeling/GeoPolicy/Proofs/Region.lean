import GeoPolicy.Proofs.Text.Case
import GeoPolicy.Proofs.Text.Words
import GeoPolicy.Region

/-!
# Texts of region codes

A code is looked for in the upper case of a text, not in the text. So two letters of ASCII in any
case are a code, and among the texts in ASCII nothing else is. But some letters outside ASCII have
their capitals in ASCII, and these letters write codes as well, alone or as one of two letters.

## Main definitions

* `RegionCode.Writes` — the letters that a capital may be written with.
* `RegionCode.IsWritten` — the texts that a code may be written as.
-/

namespace GeoPolicy

open Text

namespace RegionCode

/-! ## Written codes -/

/-- A letter whose capital is the given one: a letter of ASCII, or another one in the list. -/
def Writes (c capital : Char) : Prop :=
  c.isAlpha = true ∧ c.toUpper = capital ∨ (c, [capital]) ∈ asciiCapitals

/-- A text whose letters have the capitals of a code: one letter for each, or one for both. -/
inductive IsWritten (r : RegionCode) : List Char → Prop where
  | letters {a b : Char} (ha : Writes a r.first) (hb : Writes b r.second) : IsWritten r [a, b]
  | ligature {c : Char} (hc : (c, r.chars) ∈ asciiCapitals) : IsWritten r [c]

theorem lt_of_isUpper {u : Char} (h : u.isUpper = true) : u.toNat < 128 := by
  have hrange := (isUpper_iff_toNat u).1 h
  omega

theorem isUpper_of_mem_chars {r : RegionCode} : ∀ u ∈ r.chars, u.isUpper = true :=
  List.forall_mem_cons.2 ⟨r.first_isUpper, List.forall_mem_singleton.2 r.second_isUpper⟩

theorem writes_iff {c u : Char} (hu : u.isUpper = true) : Writes c u ↔ upperChar c = [u] := by
  constructor
  · rintro (⟨hc, rfl⟩ | hmem)
    · have hrange := lt_of_isUpper (c.isUpper_toUpper_eq_isAlpha.trans hc)
      exact upperChar_of_lt ((toNat_toUpper_lt_iff c).1 hrange)
    · exact upperChar_of_mem_asciiCapitals hmem
  · intro h
    have hascii : ∀ v ∈ upper [c], v.toNat < 128 := by simp [upper, h, lt_of_isUpper hu]
    obtain hc | hmem := lt_or_mem_asciiCapitals hascii c List.mem_cons_self
    · rw [upperChar_of_lt hc, List.cons.injEq] at h
      exact .inl ⟨c.isUpper_toUpper_eq_isAlpha.symm.trans (h.1 ▸ hu), h.1⟩
    · exact .inr (h ▸ hmem)

/-- A written code is told by its upper case. -/
theorem isWritten_iff {r : RegionCode} {s : List Char} : r.IsWritten s ↔ upper s = r.chars := by
  constructor
  · rintro (⟨ha, hb⟩ | ⟨hc⟩)
    · rw [writes_iff r.first_isUpper] at ha
      rw [writes_iff r.second_isUpper] at hb
      simp [upper, ha, hb, chars]
    · simpa [upper] using upperChar_of_mem_asciiCapitals hc
  · intro h
    have hascii : ∀ u ∈ upper s, u.toNat < 128 := by
      rw [h]
      exact fun u hu => lt_of_isUpper (isUpper_of_mem_chars u hu)
    have hlength : s.length ≤ 2 := (length_le_length_upper s).trans_eq (congrArg List.length h)
    -- A text of one or two letters, as no letter has an empty upper case.
    rcases s with _ | ⟨a, _ | ⟨b, _ | ⟨c, s⟩⟩⟩
    · cases h
    · have hupper : upperChar a = r.chars := by simpa [upper] using h
      obtain ha | hmem := lt_or_mem_asciiCapitals hascii a List.mem_cons_self
      · rw [upperChar_of_lt ha] at hupper
        exact absurd (congrArg List.length hupper) (by simp [chars])
      · exact .ligature (hupper ▸ hmem)
    · have hpair : upperChar a ++ upperChar b = r.chars := by simpa [upper] using h
      have hcount := congrArg List.length hpair
      rw [List.length_append] at hcount
      have ha := List.length_pos_of_ne_nil (upperChar_ne_nil a)
      have hb := List.length_pos_of_ne_nil (upperChar_ne_nil b)
      have htotal : r.chars.length = 2 := rfl
      obtain ⟨u, hu⟩ := List.length_eq_one_iff.1 (show (upperChar a).length = 1 by omega)
      obtain ⟨v, hv⟩ := List.length_eq_one_iff.1 (show (upperChar b).length = 1 by omega)
      rw [hu, hv, chars, List.cons_append, List.nil_append, List.cons.injEq,
        List.cons.injEq] at hpair
      exact .letters ((writes_iff r.first_isUpper).2 (hpair.1 ▸ hu))
        ((writes_iff r.second_isUpper).2 (hpair.2.1 ▸ hv))
    · simp only [List.length_cons] at hlength
      omega

theorem ofChars?_eq_some_iff {s : List Char} {r : RegionCode} :
    ofChars? s = some r ↔ s = r.chars := by
  constructor
  · intro h
    unfold ofChars? at h
    split at h
    · split at h
      · obtain rfl := Option.some.inj h
        rfl
      · cases h
    · cases h
  · rintro rfl
    exact dif_pos ⟨r.first_isUpper, r.second_isUpper⟩

/-! ## Accepted texts -/

theorem parse_eq_ok_iff {s : String} {r : RegionCode} :
    parse s = .ok r ↔ r.IsWritten (trimChars s.toList) := by
  rw [isWritten_iff, ← ofChars?_eq_some_iff, parse]
  cases ofChars? (upper (trimChars s.toList)) <;> simp

theorem parse_of_not_isWritten {s : String}
    (h : ∀ r : RegionCode, ¬r.IsWritten (trimChars s.toList)) :
    parse s = .error (.invalidRegion (String.ofList (upper (trimChars s.toList)))) := by
  cases hcode : ofChars? (upper (trimChars s.toList)) with
  | some r => exact absurd (isWritten_iff.2 (ofChars?_eq_some_iff.1 hcode)) (h r)
  | none => rw [parse, hcode]

/-- Two letters of ASCII write the code of their capitals. -/
theorem exists_isWritten_pair {a b : Char} (ha : a.isAlpha = true) (hb : b.isAlpha = true) :
    ∃ r : RegionCode, r.IsWritten [a, b] ∧ r.chars = [a.toUpper, b.toUpper] :=
  ⟨⟨a.toUpper, b.toUpper, a.isUpper_toUpper_eq_isAlpha.trans ha,
      b.isUpper_toUpper_eq_isAlpha.trans hb⟩,
    .letters (.inl ⟨ha, rfl⟩) (.inl ⟨hb, rfl⟩), rfl⟩

/-- No letter of the list is in ASCII. -/
theorem isWritten_of_ascii {r : RegionCode} {s : List Char} (hs : ∀ c ∈ s, c.toNat < 128)
    (h : r.IsWritten s) : ∃ a b, s = [a, b] ∧ a.isAlpha = true ∧ b.isAlpha = true := by
  have hlist : ∀ c capitals, (c, capitals) ∈ asciiCapitals → ¬c.toNat < 128 := by
    have hall : ∀ e ∈ asciiCapitals, ¬e.1.toNat < 128 := by decide
    exact fun c capitals hmem => hall _ hmem
  have hwrites : ∀ c u, Writes c u → c.toNat < 128 → c.isAlpha = true := by
    rintro c u (⟨hc, -⟩ | hmem) hascii
    · exact hc
    · exact absurd hascii (hlist c _ hmem)
  cases h with
  | letters ha hb =>
    exact ⟨_, _, rfl, hwrites _ _ ha (hs _ (by simp)), hwrites _ _ hb (hs _ (by simp))⟩
  | ligature hc => exact absurd (hs _ List.mem_cons_self) (hlist _ _ hc)

/-- Exactly the texts that a code may be written as are read as this code, between blanks, and all
others get the same error. Two letters of ASCII are read as the code of their capitals, and no other
text in ASCII is a code. -/
theorem parse_accepts_iff (s : String) :
    (∀ r, parse s = .ok r ↔ r.IsWritten (trimChars s.toList)) ∧
    ((∀ r : RegionCode, ¬r.IsWritten (trimChars s.toList)) →
      parse s = .error (.invalidRegion (String.ofList (upper (trimChars s.toList))))) ∧
    (∀ a b, trimChars s.toList = [a, b] → a.isAlpha = true → b.isAlpha = true →
      ∃ r, parse s = .ok r ∧ r.chars = [a.toUpper, b.toUpper]) ∧
    ((∀ c ∈ trimChars s.toList, c.toNat < 128) → ((∃ r, parse s = .ok r) ↔
      ∃ a b, trimChars s.toList = [a, b] ∧ a.isAlpha = true ∧ b.isAlpha = true)) := by
  have hpair : ∀ a b, trimChars s.toList = [a, b] → a.isAlpha = true → b.isAlpha = true →
      ∃ r, parse s = .ok r ∧ r.chars = [a.toUpper, b.toUpper] := by
    intro a b hs ha hb
    obtain ⟨r, hr, hchars⟩ := exists_isWritten_pair ha hb
    exact ⟨r, parse_eq_ok_iff.2 (hs ▸ hr), hchars⟩
  refine ⟨fun r => parse_eq_ok_iff, parse_of_not_isWritten, hpair, fun hascii => ⟨?_, ?_⟩⟩
  · rintro ⟨r, hr⟩
    exact isWritten_of_ascii hascii (parse_eq_ok_iff.1 hr)
  · rintro ⟨a, b, hs, ha, hb⟩
    obtain ⟨r, hr, -⟩ := hpair a b hs ha hb
    exact ⟨r, hr⟩

/-- A letter that has two letters of ASCII for a capital is read as a code, though it is not two
letters and not in ASCII. -/
theorem parse_accepts_sharp_s :
    ¬∀ s : String, (∃ r, parse s = .ok r) ↔
      ∃ a b, trimChars s.toList = [a, b] ∧ a.isAlpha = true ∧ b.isAlpha = true := by
  intro h
  have haccepted : parse "ß" = .ok ⟨'S', 'S', rfl, rfl⟩ := rfl
  have htrim : trimChars "ß".toList = ['ß'] := rfl
  obtain ⟨a, b, hs, -, -⟩ := (h "ß").1 ⟨_, haccepted⟩
  rw [htrim] at hs
  exact absurd (congrArg List.length hs) (by simp)

end RegionCode

end GeoPolicy
