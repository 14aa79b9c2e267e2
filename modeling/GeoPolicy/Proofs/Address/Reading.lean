import GeoPolicy.Address.Network
import GeoPolicy.Proofs.Text.Numeral

/-!
# Reading addresses and ranges

Reading undoes writing, from digits over octets to ranges in slash notation. Each reader leaves
alone what follows the part it reads, so the readers can be put in a row.
-/

namespace GeoPolicy

/-! ## Digits -/

theorem joinGroups_append_singleton (base : Nat) (groups : List Nat) (g : Nat) :
    joinGroups base (groups ++ [g]) = joinGroups base groups * base + g := by
  simp [joinGroups]

namespace Text

/-- A numeral is the digits that join to the number. It begins with a zero only if it is one. -/
theorem exists_toDigits_eq_map {base : Nat} (hb : 1 < base) (n : Nat) :
    ∃ digits : List Nat, Nat.toDigits base n = digits.map Nat.digitChar ∧
      (∀ d ∈ digits, d < base) ∧ joinGroups base digits = n ∧
      (digits.head? = some 0 → n = 0) := by
  induction n using Nat.base_induction base hb with
  | single m hm =>
    refine ⟨[m], by simp [Nat.toDigits_of_lt_base hm], by simpa using hm, by simp [joinGroups], ?_⟩
    simp
  | digit m d hd hm ih =>
    obtain ⟨digits, hdigits, hlt, hjoin, hhead⟩ := ih
    refine ⟨digits ++ [d], ?_, ?_, ?_, ?_⟩
    · rw [← Nat.toDigits_append_toDigits hb hm hd, hdigits, Nat.toDigits_of_lt_base hd,
        List.map_append, List.map_singleton]
    · simpa [or_imp, forall_and] using ⟨hlt, hd⟩
    · rw [joinGroups_append_singleton, hjoin, Nat.mul_comm]
    · cases digits with
      | nil => exact absurd hjoin (by simp [joinGroups]; omega)
      | cons first digits =>
        intro hzero
        exact absurd (hhead hzero) (by omega)

theorem readDecimal?_toDigits (n : Nat) : readDecimal? (Nat.toDigits 10 n) = some n := by
  have hdigits : (Nat.toDigits 10 n).all Char.isDigit = true :=
    List.all_eq_true.2 fun c hc => Nat.isDigit_of_mem_toDigits (by decide) (by decide) hc
  rw [readDecimal?, if_pos ⟨Nat.toDigits_ne_nil, hdigits⟩, Nat.ofDigitChars_ten_toDigits]

end Text

/-! ## Octets -/

namespace Address

open Text

theorem takeDigits_map_digitChar {base : Nat} (hb : base ≤ 16) (digits : List Nat)
    (h : ∀ d ∈ digits, d < base) (rest : List Char) :
    takeDigits base (digits.map Nat.digitChar ++ rest) =
      (digits ++ (takeDigits base rest).1, (takeDigits base rest).2) := by
  induction digits with
  | nil => rfl
  | cons d digits ih =>
    have hd : d < base := h d List.mem_cons_self
    have hdigits := ih fun e he => h e (List.mem_cons_of_mem d he)
    rw [List.map_cons, List.cons_append, takeDigits, hexValue?_digitChar (hd.trans_le hb)]
    simp [Option.filter, hd, hdigits]

theorem readOctet?_toDigits {n : Nat} (hn : n ≤ 255) {rest : List Char}
    (hrest : takeDigits 10 rest = ([], rest)) :
    readOctet? (Nat.toDigits 10 n ++ rest) = some (n, rest) := by
  obtain ⟨digits, hdigits, hlt, hjoin, hhead⟩ := exists_toDigits_eq_map (by decide : 1 < 10) n
  have htake : takeDigits 10 (Nat.toDigits 10 n ++ rest) = (digits, rest) := by
    rw [hdigits, takeDigits_map_digitChar (by decide) digits hlt, hrest, List.append_nil]
  have hlength : digits.length = (Nat.toDigits 10 n).length := by rw [hdigits, List.length_map]
  have hne : digits ≠ [] := by
    rintro rfl
    exact absurd hdigits Nat.toDigits_ne_nil
  have hshort : digits.length ≤ 3 := by
    rw [hlength, Nat.length_toDigits_le_iff (by decide) (by decide)]
    omega
  have hzero : ¬(1 < digits.length ∧ digits.head? = some 0) := by
    rintro ⟨hlong, hzero⟩
    rw [hlength, hhead hzero] at hlong
    exact absurd hlong (by decide)
  have hgood : ¬(digits = [] ∨ 3 < digits.length ∨ (1 < digits.length ∧ digits.head? = some 0) ∨
      255 < joinGroups 10 digits) := by
    rw [hjoin]
    simp only [not_or]
    exact ⟨hne, by omega, hzero, by omega⟩
  unfold readOctet?
  rw [htake]
  dsimp only
  rw [if_neg hgood, hjoin]

/-- Octets are read one by one, each but the first one after its dot. -/
theorem readOctets?_succ {count n : Nat} {octets : List Nat} {s t rest : List Char}
    (hfirst : readOctet? s = some (n, t))
    (hmore : readOctets? count false t = some (octets, rest)) :
    readOctets? (count + 1) true s = some (n :: octets, rest) ∧
      readOctets? (count + 1) false ('.' :: s) = some (n :: octets, rest) := by
  constructor
  all_goals
    unfold readOctets?
    simp [hfirst, hmore]

theorem readOctets?_flatMap (octets : List Nat) (h : ∀ n ∈ octets, n ≤ 255) {rest : List Char}
    (hrest : takeDigits 10 rest = ([], rest)) :
    readOctets? octets.length false
      (octets.flatMap (fun n => '.' :: Nat.toDigits 10 n) ++ rest) = some (octets, rest) := by
  induction octets with
  | nil => rfl
  | cons n octets ih =>
    have hn : n ≤ 255 := h n List.mem_cons_self
    have hoctets := ih fun m hm => h m (List.mem_cons_of_mem n hm)
    have hnext : takeDigits 10 (octets.flatMap (fun n => '.' :: Nat.toDigits 10 n) ++ rest) =
        ([], octets.flatMap (fun n => '.' :: Nat.toDigits 10 n) ++ rest) := by
      cases octets with
      | nil => exact hrest
      | cons m octets => rfl
    rw [List.flatMap_cons, List.append_assoc, List.cons_append]
    exact (readOctets?_succ (readOctet?_toDigits hn hnext) hoctets).2

/-- Four octets have dots between them. -/
theorem readOctets?_octets (first : Nat) (octets : List Nat) (hlength : octets.length = 3)
    (h : ∀ n ∈ first :: octets, n ≤ 255) :
    readOctets? 4 true
        (Nat.toDigits 10 first ++ octets.flatMap fun n => '.' :: Nat.toDigits 10 n) =
      some (first :: octets, []) := by
  have hfirst : first ≤ 255 := h first List.mem_cons_self
  have hend : takeDigits 10 [] = ([], []) := rfl
  have hoctets :=
    readOctets?_flatMap octets (fun m hm => h m (List.mem_cons_of_mem first hm)) hend
  have hnext : takeDigits 10 (octets.flatMap fun n => '.' :: Nat.toDigits 10 n) =
      ([], octets.flatMap fun n => '.' :: Nat.toDigits 10 n) := by
    cases octets with
    | nil => rfl
    | cons m octets => rfl
  rw [List.append_nil, hlength] at hoctets
  exact (readOctets?_succ (readOctet?_toDigits hfirst hnext) hoctets).1

/-- Four octets with dots between them are read as an IPv4 address. -/
theorem ofChars?_octets (first : Nat) (octets : List Nat) (hlength : octets.length = 3)
    (h : ∀ n ∈ first :: octets, n ≤ 255) :
    ofChars? (Nat.toDigits 10 first ++ octets.flatMap fun n => '.' :: Nat.toDigits 10 n) =
      some (ofOctets (first :: octets)) := by
  rw [ofChars?, readOctets?_octets first octets hlength h]
  rfl

theorem ofOctets_inj {a b c d : Nat} (ha : a < 256) (hb : b < 256) (hc : c < 256) (hd : d < 256)
    (h : ofOctets [a, b, 0, 0] = ofOctets [c, d, 0, 0]) : a = c ∧ b = d := by
  have hbits := congrArg BitVec.toNat (Address.v4.inj h)
  rw [BitVec.toNat_ofNat, BitVec.toNat_ofNat] at hbits
  simp only [joinGroups, List.foldl_cons, List.foldl_nil] at hbits
  omega

end Address

/-! ## Ranges -/

namespace Network

open Text

theorem readLength?_toDigits {n : Nat} (hn : n ≤ 255) :
    readLength? (Nat.toDigits 10 n) = some n := by
  have hsign : '+' ∉ Nat.toDigits 10 n :=
    (isNumeral_toDigits n).not_mem rfl
  unfold readLength?
  split
  · next rest heq => exact absurd (heq ▸ List.mem_cons_self) hsign
  · simp [readDecimal?_toDigits, Option.filter, hn]

/-- The slash is the first one of the text. -/
theorem ofChars?_append_slash {s : List Char} (h : '/' ∉ s) (t : List Char) :
    ofChars? (s ++ '/' :: t) =
      (Address.ofChars? s).bind fun a => (readLength? t).bind (ofLength? a) := by
  have hs : ∀ c ∈ s, decide (c ≠ '/') = true := by
    intro c hc
    rw [decide_eq_true_eq]
    rintro rfl
    exact h hc
  have hdrop : (s ++ '/' :: t).dropWhile (· ≠ '/') = '/' :: t := by
    rw [List.dropWhile_append_of_pos hs]
    rfl
  have htake : (s ++ '/' :: t).takeWhile (· ≠ '/') = s := by
    rw [List.takeWhile_append_of_pos hs]
    simp
  rw [ofChars?, hdrop, htake]
  rfl

/-- Four octets, a slash and a length are read as an IPv4 range. -/
theorem ofChars?_octets (first : Nat) (octets : List Nat) (hlength : octets.length = 3)
    (h : ∀ n ∈ first :: octets, n ≤ 255) {length : Nat} (hle : length ≤ 32) :
    ofChars? (Nat.toDigits 10 first ++ octets.flatMap (fun n => '.' :: Nat.toDigits 10 n) ++
      '/' :: Nat.toDigits 10 length) = some ⟨.ofOctets (first :: octets), length, hle⟩ := by
  have hslash : ∀ n, '/' ∉ Nat.toDigits 10 n := fun n =>
    (isNumeral_toDigits n).not_mem rfl
  have hnone : '/' ∉ Nat.toDigits 10 first ++ octets.flatMap fun n => '.' :: Nat.toDigits 10 n := by
    simp [hslash]
  rw [ofChars?_append_slash hnone, Address.ofChars?_octets first octets hlength h,
    readLength?_toDigits (by omega)]
  exact dif_pos hle

/-- A text that no blank cuts is read and quoted as it is. -/
theorem parse_of_isWord {s : String} (h : IsWord s.toList) :
    parse s = (ofChars? s.toList).elim (.error (.invalidRange s)) .ok := by
  have htrim : trim s = s := by rw [trim, trimChars_word h, String.ofList_toList]
  rw [parse, trimChars_word h, htrim]
  cases ofChars? s.toList <;> rfl

end Network

end GeoPolicy
