import GeoPolicy.Proofs.Address.RoundTrip

/-!
# How addresses and ranges are written

Whatever a reader of addresses takes off the start of a text consists of digits, dots and colons.
So the text of an address has neither blanks nor slashes, and a text denotes a range exactly if it
is an address, or an address, a slash and a number of bits that the address has. The number is
written in decimal digits, and the reader lets it have a plus sign.

## Main definitions

* `Address.isNotation` — the characters that addresses are written with.
* `Address.Takes` — what a reader may take off the start of a text.
* `Network.IsWritten` — the texts that denote a range, for one sign in front of the number of bits.
* `Network.signs` — the signs that are read.
-/

namespace GeoPolicy

open Text

namespace Address

/-! ## Characters of addresses -/

/-- The characters that addresses are written with. -/
def isNotation (c : Char) : Bool :=
  (hexValue? c).isSome || c == '.' || c == ':'

theorem isBlank_of_isNotation {c : Char} (h : isNotation c = true) : isBlank c = false := by
  simp only [isNotation, Bool.or_eq_true, beq_iff_eq] at h
  obtain (hhex | rfl) | rfl := h
  · exact isBlank_of_isSome_hexValue? hhex
  · decide
  · decide

/-- A reader may go from a text to a rest of it over characters of addresses. -/
def Takes (s rest : List Char) : Prop :=
  ∃ taken, s = taken ++ rest ∧ ∀ c ∈ taken, isNotation c = true

theorem Takes.refl (s : List Char) : Takes s s :=
  ⟨[], rfl, List.forall_mem_nil _⟩

theorem Takes.trans {s t rest : List Char} (h : Takes s t) (h' : Takes t rest) : Takes s rest := by
  obtain ⟨taken, rfl, htaken⟩ := h
  obtain ⟨more, rfl, hmore⟩ := h'
  exact ⟨taken ++ more, by rw [List.append_assoc], List.forall_mem_append.2 ⟨htaken, hmore⟩⟩

theorem Takes.cons {c : Char} {s rest : List Char} (hc : isNotation c = true) (h : Takes s rest) :
    Takes (c :: s) rest :=
  Takes.trans ⟨[c], rfl, List.forall_mem_singleton.2 hc⟩ h

theorem takes_takeDigits (base : Nat) (s : List Char) : Takes s (takeDigits base s).2 := by
  induction s with
  | nil => exact .refl []
  | cons c s ih =>
    rw [takeDigits]
    split
    · next d hd =>
      have hc : isNotation c = true := by
        have hvalue := (Option.filter_eq_some_iff.1 hd).1
        simp [isNotation, hvalue]
      exact .cons hc ih
    · exact .refl _

theorem takes_of_readOctet? {s rest : List Char} {n : Nat} (h : readOctet? s = some (n, rest)) :
    Takes s rest := by
  rw [rest_of_readOctet? h]
  exact takes_takeDigits 10 s

theorem takes_of_readOctets? {count : Nat} {isFirst : Bool} {s rest : List Char}
    {octets : List Nat} (h : readOctets? count isFirst s = some (octets, rest)) :
    Takes s rest := by
  induction count generalizing isFirst s octets with
  | zero =>
    obtain ⟨-, rfl⟩ : [] = octets ∧ s = rest := by simpa [readOctets?] using h
    exact .refl s
  | succ count ih =>
    -- The rest of the step, after the dot that stands before each octet but the first one.
    have hstep : ∀ t, ((readOctet? t).bind fun octet => (readOctets? count false octet.2).bind
        fun more => some (octet.1 :: more.1, more.2)) = some (octets, rest) → Takes t rest := by
      intro t ht
      obtain ⟨octet, hoctet, ht⟩ := Option.bind_eq_some_iff.1 ht
      obtain ⟨more, hmore, ht⟩ := Option.bind_eq_some_iff.1 ht
      obtain ⟨-, rfl⟩ := Prod.mk.inj (Option.some.inj ht)
      exact (takes_of_readOctet? hoctet).trans (ih hmore)
    unfold readOctets? at h
    cases isFirst with
    | true => exact hstep s h
    | false =>
      cases s with
      | nil => exact absurd h (by simp)
      | cons c s =>
        by_cases hc : c = '.'
        · subst hc
          exact .cons rfl (hstep s h)
        · exact absurd h (by simp [hc])

theorem takes_of_readGroup? {s rest : List Char} {g : Nat} (h : readGroup? s = some (g, rest)) :
    Takes s rest := by
  unfold readGroup? at h
  dsimp only at h
  split at h
  · exact absurd h (by simp)
  · obtain ⟨-, rfl⟩ := Prod.mk.inj (Option.some.inj h)
    exact takes_takeDigits 16 s

theorem takes_readGroups (limit : Nat) (isFirst : Bool) (s : List Char) :
    Takes s (readGroups limit isFirst s).2.2 := by
  have hstart : ∀ {s t : List Char}, s = t ∨ s = ':' :: t → Takes s t := by
    rintro s t (rfl | rfl)
    · exact .refl s
    · exact .cons rfl (.refl t)
  -- A group starts where the text does, or behind the colon before all groups but the first one.
  fun_induction readGroups limit isFirst s with
  | case1 _ s | case2 _ _ s | case4 _ _ s => exact .refl s
  | case3 limit isFirst s start t ht octets rest hoctets =>
    have hst : s = t ∨ s = ':' :: t := by grind
    split at hoctets
    · exact absurd hoctets (by simp)
    · exact (hstart hst).trans (takes_of_readOctets? hoctets)
  | case5 limit isFirst s start t ht _ group rest hgroup groups hasOctets after hmore ih =>
    have hst : s = t ∨ s = ':' :: t := by grind
    rw [hmore] at ih
    exact ((hstart hst).trans (takes_of_readGroup? hgroup)).trans ih

theorem takes_of_readEight? {s rest : List Char} {groups : List Nat}
    (h : readEight? s = some (groups, rest)) : Takes s rest := by
  have hhead := takes_readGroups 8 true s
  unfold readEight? at h
  dsimp only at h
  split at h
  · obtain ⟨-, rfl⟩ := Prod.mk.inj (Option.some.inj h)
    exact hhead
  split at h
  · exact absurd h (by simp)
  split at h
  · next mark hmark =>
    obtain ⟨-, rfl⟩ := Prod.mk.inj (Option.some.inj h)
    rw [hmark] at hhead
    exact hhead.trans (.cons rfl (.cons rfl (takes_readGroups _ true mark)))
  · exact absurd h (by simp)

/-- The text of an address consists of characters of addresses. -/
theorem isNotation_of_ofChars? {s : List Char} {a : Address} (h : ofChars? s = some a) :
    ∀ c ∈ s, isNotation c = true := by
  have htake : Takes s [] := by
    unfold ofChars? at h
    split at h
    · next octets rest hoctets =>
      split at h
      · next hrest => exact hrest ▸ takes_of_readOctets? hoctets
      · exact absurd h (by simp)
    · split at h
      · next groups height => exact takes_of_readEight? height
      · exact absurd h (by simp)
  obtain ⟨taken, rfl, htaken⟩ := htake
  rwa [List.append_nil]

theorem isWord_of_ofChars? {s : List Char} {a : Address} (h : ofChars? s = some a) : IsWord s where
  ne_nil := by
    rintro rfl
    rw [show ofChars? [] = none from rfl] at h
    exact absurd h (by simp)
  not_blank c hc := isBlank_of_isNotation (isNotation_of_ofChars? h c hc)

theorem not_mem_of_ofChars? {s : List Char} {a : Address} (h : ofChars? s = some a) {c : Char}
    (hc : isNotation c = false) : c ∉ s := by
  intro hmem
  rw [isNotation_of_ofChars? h c hmem] at hc
  exact absurd hc (by decide)

theorem ofChars?_text (a : Address) : ofChars? a.text.toList = some a :=
  parse?_text a

end Address

namespace Network

/-! ## Texts of ranges -/

/-- The texts that denote a range: an address, or an address, a slash and a number of bits that the
address has. The number is written in one or more decimal digits, with `sign` in front of them. -/
inductive IsWritten (sign : List Char) : List Char → Network → Prop
  | host {s : List Char} {a : Address} (haddress : Address.ofChars? s = some a) :
    IsWritten sign s (host a)
  | slash {s digits : List Char} {a : Address} (haddress : Address.ofChars? s = some a)
    (hne : digits ≠ []) (hdigits : ∀ c ∈ digits, c.isDigit = true)
    (hle : Nat.ofDigitChars 10 digits 0 ≤ a.width) :
    IsWritten sign (s ++ '/' :: (sign ++ digits)) ⟨a, Nat.ofDigitChars 10 digits 0, hle⟩

/-- The signs that a reader lets the number of bits have: none, or a plus. -/
def signs : List (List Char) :=
  [[], ['+']]

theorem readDecimal?_eq_some_iff {s : List Char} {n : Nat} :
    readDecimal? s = some n ↔
      s ≠ [] ∧ (∀ c ∈ s, c.isDigit = true) ∧ Nat.ofDigitChars 10 s 0 = n := by
  rw [readDecimal?]
  constructor
  · intro h
    split at h
    · next hs => exact ⟨hs.1, List.all_eq_true.1 hs.2, Option.some.inj h⟩
    · exact absurd h (by simp)
  · rintro ⟨hne, hdigits, rfl⟩
    exact if_pos ⟨hne, List.all_eq_true.2 hdigits⟩

theorem readLength?_plus (s : List Char) :
    readLength? ('+' :: s) = (readDecimal? s).filter (· ≤ 255) := rfl

theorem readLength?_of_ne {c : Char} (hc : c ≠ '+') (s : List Char) :
    readLength? (c :: s) = (readDecimal? (c :: s)).filter (· ≤ 255) := by
  unfold readLength?
  split
  · next heq => exact absurd (List.cons.inj heq).1 hc
  · rfl

/-- A number of bits is read with a plus sign in front of its digits, or with none. -/
theorem readLength?_eq_some_iff {s : List Char} {n : Nat} :
    readLength? s = some n ↔ n ≤ 255 ∧
      ∃ sign ∈ signs, ∃ digits, s = sign ++ digits ∧ readDecimal? digits = some n := by
  constructor
  · intro h
    cases s with
    | nil => exact absurd h (by simp [readLength?, readDecimal?])
    | cons c s =>
      by_cases hc : c = '+'
      · subst hc
        rw [readLength?_plus, Option.filter_eq_some_iff, decide_eq_true_eq] at h
        exact ⟨h.2, ['+'], by simp [signs], s, rfl, h.1⟩
      · rw [readLength?_of_ne hc, Option.filter_eq_some_iff, decide_eq_true_eq] at h
        exact ⟨h.2, [], by simp [signs], c :: s, rfl, h.1⟩
  · rintro ⟨hle, sign, hsign, digits, rfl, hread⟩
    simp only [signs, List.mem_cons, List.not_mem_nil, or_false] at hsign
    obtain rfl | rfl := hsign
    · obtain ⟨hne, hdigits, -⟩ := readDecimal?_eq_some_iff.1 hread
      obtain ⟨c, digits, rfl⟩ := List.exists_cons_of_ne_nil hne
      have hc : c ≠ '+' := by
        rintro rfl
        exact absurd (hdigits '+' List.mem_cons_self) (by decide)
      rw [List.nil_append, readLength?_of_ne hc, hread]
      simp [Option.filter, hle]
    · rw [List.singleton_append, readLength?_plus, hread]
      simp [Option.filter, hle]

theorem ofChars?_of_not_mem {s : List Char} (h : '/' ∉ s) :
    ofChars? s = (Address.ofChars? s).map host := by
  have hdrop : s.dropWhile (· ≠ '/') = [] := by
    rw [List.dropWhile_eq_nil_iff]
    intro c hc
    rw [decide_eq_true_eq]
    rintro rfl
    exact h hc
  rw [ofChars?, hdrop]

theorem isWritten_of_ofChars? {s : List Char} {n : Network} (h : ofChars? s = some n) :
    ∃ sign ∈ signs, IsWritten sign s n := by
  by_cases hslash : '/' ∈ s
  · -- The slash that counts is the first one.
    obtain ⟨t, length, rfl, ht⟩ := List.eq_append_cons_of_mem hslash
    rw [ofChars?_append_slash ht, Option.bind_eq_some_iff] at h
    obtain ⟨a, ha, h⟩ := h
    obtain ⟨bits, hbits, h⟩ := Option.bind_eq_some_iff.1 h
    obtain ⟨-, sign, hsign, digits, rfl, hread⟩ := readLength?_eq_some_iff.1 hbits
    obtain ⟨hne, hdigits, rfl⟩ := readDecimal?_eq_some_iff.1 hread
    rw [ofLength?] at h
    split at h
    · next hle =>
      obtain rfl := Option.some.inj h
      exact ⟨sign, hsign, .slash ha hne hdigits hle⟩
    · exact absurd h (by simp)
  · rw [ofChars?_of_not_mem hslash, Option.map_eq_some_iff] at h
    obtain ⟨a, ha, rfl⟩ := h
    exact ⟨[], by simp [signs], .host ha⟩

theorem IsWritten.ofChars?_eq {sign s : List Char} {n : Network} (hsign : sign ∈ signs)
    (h : IsWritten sign s n) : ofChars? s = some n := by
  cases h with
  | host haddress =>
    rw [ofChars?_of_not_mem (Address.not_mem_of_ofChars? haddress rfl), haddress]
    rfl
  | @slash t digits a haddress hne hdigits hle =>
    have hwidth : a.width ≤ 255 := by
      cases a <;> simp [Address.width, Address.family, AddressFamily.width]
    have hread := readDecimal?_eq_some_iff.2 ⟨hne, hdigits, rfl⟩
    have hbits := readLength?_eq_some_iff.2 ⟨hle.trans hwidth, sign, hsign, digits, rfl, hread⟩
    rw [ofChars?_append_slash (Address.not_mem_of_ofChars? haddress rfl), haddress, hbits]
    exact dif_pos hle

/-- Exactly the texts of the two forms denote ranges, with a plus sign or with none. -/
theorem ofChars?_eq_some_iff {s : List Char} {n : Network} :
    ofChars? s = some n ↔ ∃ sign ∈ signs, IsWritten sign s n :=
  ⟨isWritten_of_ofChars?, fun ⟨_, hsign, h⟩ => h.ofChars?_eq hsign⟩

/-- Without a sign there is no plus in the text. -/
theorem IsWritten.not_mem {s : List Char} {n : Network} (h : IsWritten [] s n) : '+' ∉ s := by
  cases h with
  | host haddress => exact Address.not_mem_of_ofChars? haddress rfl
  | slash haddress hne hdigits hle =>
    have haddress := Address.not_mem_of_ofChars? haddress (c := '+') rfl
    have hdigits : '+' ∉ _ := fun hc => absurd (hdigits '+' hc) (by decide)
    simp [haddress, hdigits]

/-- No blanks stand in a text that denotes a range. -/
theorem IsWritten.isWord {s : List Char} {n : Network} (h : IsWritten [] s n) : IsWord s := by
  cases h with
  | host haddress => exact Address.isWord_of_ofChars? haddress
  | @slash t digits a haddress hne hdigits hle =>
    have hblank : ∀ c ∈ digits, isBlank c = false := by
      intro c hc
      exact isBlank_of_isSome_hexValue? (by simp [hexValue?, hdigits c hc])
    refine ⟨by simp, ?_⟩
    rw [List.forall_mem_append, List.forall_mem_cons]
    exact ⟨(Address.isWord_of_ofChars? haddress).not_blank, by decide, hblank⟩

/-- The text of a range is of the second form, without a sign. -/
theorem isWritten_text (n : Network) : IsWritten [] n.text.toList n := by
  obtain ⟨a, length, hle⟩ := n
  have htext : (text ⟨a, length, hle⟩).toList = a.text.toList ++ '/' :: Nat.toDigits 10 length := by
    simp [text]
  have hdigits : ∀ c ∈ Nat.toDigits 10 length, c.isDigit = true := fun c hc =>
    Nat.isDigit_of_mem_toDigits (by decide) (by decide) hc
  have hvalue : Nat.ofDigitChars 10 (Nat.toDigits 10 length) 0 = length :=
    Nat.ofDigitChars_ten_toDigits
  have hwritten := @IsWritten.slash [] _ _ a (Address.ofChars?_text a) Nat.toDigits_ne_nil hdigits
    (hvalue.symm ▸ hle)
  rw [htext]
  simpa only [hvalue, List.nil_append] using hwritten

end Network

end GeoPolicy
