import GeoPolicy.Proofs.Text.Words
import GeoPolicy.Text.Numeral

/-!
# Numerals in a text

Numerals in any base up to sixteen are words of digits, so the characters between them cannot be
mistaken for parts of them.

## Main definitions

* `Text.IsNumeral` — one or more hexadecimal digits.
* `Text.digitChars` — the digits that numerals are written with.
-/

namespace GeoPolicy

namespace Text

/-- A text of one or more hexadecimal digits. -/
structure IsNumeral (s : List Char) : Prop where
  ne_nil : s ≠ []
  isSome_hexValue? : ∀ c ∈ s, (hexValue? c).isSome

theorem isBlank_of_isSome_hexValue? {c : Char} (h : (hexValue? c).isSome) : isBlank c = false := by
  have hrange : (48 ≤ c.toNat ∧ c.toNat ≤ 57) ∨ (97 ≤ c.toNat ∧ c.toNat ≤ 102) ∨
      (65 ≤ c.toNat ∧ c.toNat ≤ 70) := by
    unfold hexValue? at h
    split at h
    · next hdigit =>
      simp only [Char.isDigit, Bool.and_eq_true, decide_eq_true_eq] at hdigit
      exact .inl hdigit
    split at h
    · next hlower => exact .inr (.inl hlower)
    split at h
    · next hupper => exact .inr (.inr hupper)
    · exact absurd h Bool.false_ne_true
  simp only [isBlank, Bool.or_eq_false_iff, Bool.and_eq_false_iff, decide_eq_false_iff_not,
    beq_eq_false_iff_ne]
  omega

theorem IsNumeral.isWord {s : List Char} (h : IsNumeral s) : IsWord s where
  ne_nil := h.ne_nil
  not_blank := fun c hc => isBlank_of_isSome_hexValue? (h.isSome_hexValue? c hc)

theorem IsNumeral.not_mem {s : List Char} (h : IsNumeral s) {c : Char} (hc : hexValue? c = none) :
    c ∉ s := by
  intro hmem
  have hsome := h.isSome_hexValue? c hmem
  rw [hc] at hsome
  exact absurd hsome Bool.false_ne_true

theorem hexValue?_digitChar {d : Nat} (h : d < 16) : hexValue? d.digitChar = some d := by
  revert d
  decide

theorem isNumeral_toDigits {base : Nat} (n : Nat) (hb : 1 < base := by decide)
    (hb' : base ≤ 16 := by decide) : IsNumeral (Nat.toDigits base n) where
  ne_nil := Nat.toDigits_ne_nil
  isSome_hexValue? := by
    have hdigit : ∀ d < base, (hexValue? d.digitChar).isSome = true := by
      intro d hd
      rw [hexValue?_digitChar (hd.trans_le hb')]
      rfl
    induction n using Nat.base_induction base hb with
    | single m hm =>
      rw [Nat.toDigits_of_lt_base hm]
      exact List.forall_mem_singleton.2 (hdigit m hm)
    | digit m d hd hm ih =>
      rw [← Nat.toDigits_append_toDigits hb hm hd, Nat.toDigits_of_lt_base hd]
      exact List.forall_mem_append.2 ⟨ih, List.forall_mem_singleton.2 (hdigit d hd)⟩

theorem isNumeral_paddedDigits {base : Nat} (width n : Nat) (hb : 1 < base := by decide)
    (hb' : base ≤ 16 := by decide) : IsNumeral (paddedDigits base width n) where
  ne_nil := by simp [paddedDigits, List.leftpad, Nat.toDigits_ne_nil]
  isSome_hexValue? := by
    intro c hc
    obtain hc | hc := List.mem_append.1 hc
    · rw [List.eq_of_mem_replicate hc]
      rfl
    · exact (isNumeral_toDigits n hb hb').isSome_hexValue? c hc

/-- The digits of numerals, in lower case. -/
def digitChars : List Char :=
  ['0', '1', '2', '3', '4', '5', '6', '7', '8', '9', 'a', 'b', 'c', 'd', 'e', 'f']

theorem mem_digitChars_of_mem_toDigits {base n : Nat} (hb : 1 < base := by decide)
    (hb' : base ≤ 16 := by decide) : ∀ c ∈ Nat.toDigits base n, c ∈ digitChars := by
  have hdigit : ∀ d < 16, d.digitChar ∈ digitChars := by decide
  induction n using Nat.base_induction base hb with
  | single m hm =>
    rw [Nat.toDigits_of_lt_base hm]
    exact List.forall_mem_singleton.2 (hdigit m (hm.trans_le hb'))
  | digit m d hd hm ih =>
    rw [← Nat.toDigits_append_toDigits hb hm hd, Nat.toDigits_of_lt_base hd]
    exact List.forall_mem_append.2 ⟨ih, List.forall_mem_singleton.2 (hdigit d (hd.trans_le hb'))⟩

theorem mem_digitChars_of_mem_paddedDigits {base width n : Nat} (hb : 1 < base := by decide)
    (hb' : base ≤ 16 := by decide) : ∀ c ∈ paddedDigits base width n, c ∈ digitChars := by
  intro c hc
  obtain hc | hc := List.mem_append.1 hc
  · rw [List.eq_of_mem_replicate hc]
    exact List.mem_cons_self
  · exact mem_digitChars_of_mem_toDigits hb hb' c hc

/-! ## Values of numerals -/

theorem readHex?_append (before : Nat) (s t : List Char) :
    readHex? before (s ++ t) = (readHex? before s).bind (readHex? · t) := by
  induction s generalizing before with
  | nil => rfl
  | cons c s ih =>
    rw [List.cons_append, readHex?, readHex?]
    cases hexValue? c with
    | none => rfl
    | some d => exact ih _

theorem readHex?_toDigits (n : Nat) : readHex? 0 (Nat.toDigits 16 n) = some n := by
  induction n using Nat.base_induction 16 (by decide) with
  | single m hm =>
    rw [Nat.toDigits_of_lt_base hm, readHex?, hexValue?_digitChar hm]
    simp [readHex?]
  | digit m d hd hm ih =>
    rw [← Nat.toDigits_append_toDigits (by decide) hm hd, readHex?_append, ih,
      Nat.toDigits_of_lt_base hd, Option.bind_some, readHex?, hexValue?_digitChar hd]
    rfl

/-- Zeros in front do not change the value. -/
theorem readHex?_paddedDigits (width n : Nat) :
    readHex? 0 (paddedDigits 16 width n) = some n := by
  have hzeros : ∀ count s, readHex? 0 (List.replicate count '0' ++ s) = readHex? 0 s := by
    intro count s
    induction count with
    | zero => rfl
    | succ count ih => exact ih
  rw [paddedDigits, List.leftpad, hzeros, readHex?_toDigits]

theorem eq_zero_of_head?_toDigits {n : Nat} (h : (Nat.toDigits 10 n).head? = some '0') :
    n = 0 := by
  induction n using Nat.base_induction 10 (by decide) with
  | single m hm =>
    rw [Nat.toDigits_of_lt_base hm, List.head?_cons, Option.some_inj] at h
    revert m
    decide
  | digit m d hd hm ih =>
    rw [← Nat.toDigits_append_toDigits (by decide) hm hd,
      List.head?_append_of_ne_nil _ Nat.toDigits_ne_nil] at h
    exact absurd (ih h) hm.ne'

end Text

end GeoPolicy
