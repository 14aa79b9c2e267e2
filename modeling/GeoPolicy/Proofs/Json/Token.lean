import GeoPolicy.Json.Printer
import GeoPolicy.Json.Token
import GeoPolicy.Proofs.Text.Numeral

/-!
# Tokens as they are written

A token that is written is read back, with whatever follows it left alone. Only after a number it
matters what follows: another digit, a point or an exponent would be taken for a part of it.

## Main definitions

* `Json.Token.chars` — a token as it is written.
* `Json.Token.IsPlain` — tokens of natural numbers and of texts without half a surrogate pair.
* `Json.EndsNumber` — what may follow a number.
-/

namespace GeoPolicy

namespace Json

open Text

/-! ## Quoted text -/

theorem joinPieces_unit_cons {value : Nat} (h : value < 0xD800) (pieces : List Piece) :
    joinPieces (.unit value :: pieces) = (joinPieces pieces).map (Char.ofNat value :: ·) := by
  have hhigh : ¬0xD800 ≤ value := by omega
  have hlow : ¬0xDC00 ≤ value := by omega
  cases pieces with
  | nil => simp [joinPieces, hhigh]
  | cons piece pieces => cases piece <;> simp [joinPieces, hhigh, hlow]

theorem readPieces?_letter {letter c : Char} (hletter : letter ≠ 'u')
    (h : escaped? letter = some c) (rest : List Char) :
    readPieces? ('\\' :: letter :: rest) =
      (readPieces? rest).map fun r => (.char c :: r.1, r.2) := by
  rw [readPieces?.eq_4 letter rest fun _ _ _ _ _ hu _ => hletter hu, h]
  cases readPieces? rest <;> rfl

theorem readPieces?_digits {n : Nat} (h : n < 0x20) (rest : List Char) :
    readPieces? (['\\', 'u'] ++ paddedDigits 16 4 n ++ rest) =
      (readPieces? rest).map fun r => (.unit n :: r.1, r.2) := by
  have hlength : (paddedDigits 16 4 n).length = 4 := by
    rw [paddedDigits, List.length_leftpad, max_eq_left]
    rw [Nat.length_toDigits_le_iff (by decide) (by decide)]
    omega
  have hvalue := readHex?_paddedDigits 4 n
  obtain ⟨a, b, c, d, hdigits⟩ := List.length_eq_four.1 hlength
  rw [hdigits] at hvalue ⊢
  show readPieces? ('\\' :: 'u' :: a :: b :: c :: d :: rest) = _
  rw [readPieces?, hvalue]
  cases readPieces? rest <;> rfl

theorem readPieces?_self {c : Char} (hquote : c ≠ '"') (hslash : c ≠ '\\')
    (hcontrol : ¬c.toNat < 0x20) (rest : List Char) :
    readPieces? (c :: rest) = (readPieces? rest).map fun r => (.char c :: r.1, r.2) := by
  rw [readPieces?.eq_5 c rest hquote (fun _ _ _ _ _ hc _ => hslash hc) fun _ _ hc _ => hslash hc,
    if_neg (by simp [hslash, hcontrol])]
  cases readPieces? rest <;> rfl

/-- An escaped character is read as one piece, and the piece stands for the character whatever
comes after it. -/
theorem exists_readPieces?_escape (c : Char) :
    ∃ piece, (∀ rest, readPieces? (escape c ++ rest) =
        (readPieces? rest).map fun r => (piece :: r.1, r.2)) ∧
      ∀ pieces, joinPieces (piece :: pieces) = (joinPieces pieces).map (c :: ·) := by
  have hshort : ∀ letter : Char, letter ≠ 'u' → escaped? letter = some c →
      ∃ piece, (∀ rest, readPieces? (['\\', letter] ++ rest) =
          (readPieces? rest).map fun r => (piece :: r.1, r.2)) ∧
        ∀ pieces, joinPieces (piece :: pieces) = (joinPieces pieces).map (c :: ·) :=
    fun letter hletter h => ⟨.char c, readPieces?_letter hletter h, fun _ => rfl⟩
  unfold escape
  split_ifs with hquote hslash hb hf hn hr ht hcontrol
  · exact hshort '"' (by decide) (by rw [hquote]; rfl)
  · exact hshort '\\' (by decide) (by rw [hslash]; rfl)
  · exact hshort 'b' (by decide) (by rw [hb]; rfl)
  · exact hshort 'f' (by decide) (by rw [hf]; rfl)
  · exact hshort 'n' (by decide) (by rw [hn]; rfl)
  · exact hshort 'r' (by decide) (by rw [hr]; rfl)
  · exact hshort 't' (by decide) (by rw [ht]; rfl)
  · refine ⟨.unit c.toNat, readPieces?_digits hcontrol, fun pieces => ?_⟩
    rw [joinPieces_unit_cons (by omega), Char.ofNat_toNat]
  · exact ⟨.char c, readPieces?_self hquote hslash hcontrol, fun _ => rfl⟩

theorem readQuoted?_escape (s rest : List Char) :
    readQuoted? (s.flatMap escape ++ '"' :: rest) = some (some (String.ofList s), rest) := by
  have hpieces : ∃ pieces, readPieces? (s.flatMap escape ++ '"' :: rest) = some (pieces, rest) ∧
      joinPieces pieces = some s := by
    induction s with
    | nil => exact ⟨[], rfl, rfl⟩
    | cons c s ih =>
      obtain ⟨pieces, hread, hjoin⟩ := ih
      obtain ⟨piece, hpiece, hchar⟩ := exists_readPieces?_escape c
      refine ⟨piece :: pieces, ?_, ?_⟩
      · rw [List.flatMap_cons, List.append_assoc, hpiece, hread]
        rfl
      · rw [hchar, hjoin]
        rfl
  obtain ⟨pieces, hread, hjoin⟩ := hpieces
  rw [readQuoted?, hread, Option.map_some]
  dsimp only
  rw [hjoin, Option.map_some]

/-! ## Numbers -/

/-- A text whose first character cannot go on with a number. -/
def EndsNumber (rest : List Char) : Prop :=
  ∀ c ∈ rest.head?, c.isDigit = false ∧ c ∉ ['.', 'e', 'E']

theorem EndsNumber.nil : EndsNumber [] := by
  intro c hc
  exact absurd hc (by simp)

theorem EndsNumber.cons {c : Char} {rest : List Char}
    (h : (!c.isDigit && c ∉ ['.', 'e', 'E']) = true) : EndsNumber (c :: rest) := by
  intro d hd
  obtain rfl : c = d := by simpa using hd
  simpa using h

theorem readDigits?_toDigits (n : Nat) {rest : List Char} (h : EndsNumber rest) :
    readDigits? (Nat.toDigits 10 n ++ rest) = some (Nat.toDigits 10 n, rest) := by
  have hdigits : ∀ c ∈ Nat.toDigits 10 n, c.isDigit = true := fun c hc =>
    Nat.isDigit_of_mem_toDigits (by decide) (by decide) hc
  have hrest : rest.takeWhile Char.isDigit = [] ∧ rest.dropWhile Char.isDigit = rest := by
    cases rest with
    | nil => exact ⟨rfl, rfl⟩
    | cons c rest =>
      have hc := (h c rfl).1
      simp [hc]
  rw [readDigits?, List.takeWhile_append_of_pos hdigits, List.dropWhile_append_of_pos hdigits,
    hrest.1, hrest.2, List.append_nil, if_neg Nat.toDigits_ne_nil]

theorem readWhole?_toDigits (n : Nat) {rest : List Char} (h : EndsNumber rest) :
    readWhole? (Nat.toDigits 10 n ++ rest) = some (Nat.toDigits 10 n, rest) := by
  rw [readWhole?, readDigits?_toDigits n h]
  refine if_neg ?_
  rintro ⟨hhead, hne⟩
  rw [eq_zero_of_head?_toDigits hhead] at hne
  exact hne rfl

theorem readFraction?_of_endsNumber {rest : List Char} (h : EndsNumber rest) :
    readFraction? rest = some ([], rest) := by
  cases rest with
  | nil => rfl
  | cons c rest =>
    rw [readFraction?]
    intro s hs
    obtain rfl := (List.cons.inj hs).1
    exact (h '.' rfl).2 (by decide)

theorem readExponent?_of_endsNumber {rest : List Char} (h : EndsNumber rest) :
    readExponent? rest = some ([], rest) := by
  cases rest with
  | nil => rfl
  | cons c rest =>
    have hc := (h c rfl).2
    rw [readExponent?, if_neg (by simp_all)]

theorem exists_toDigits_eq_cons (n : Nat) :
    ∃ c digits, Nat.toDigits 10 n = c :: digits ∧ c.isDigit = true := by
  obtain ⟨c, digits, hdigits⟩ :=
    List.exists_cons_of_ne_nil (Nat.toDigits_ne_nil (b := 10) (n := n))
  have hc : c ∈ Nat.toDigits 10 n := hdigits ▸ List.mem_cons_self
  exact ⟨c, digits, hdigits, Nat.isDigit_of_mem_toDigits (by decide) (by decide) hc⟩

theorem readNumber?_toDigits (n : Nat) {rest : List Char} (h : EndsNumber rest) :
    readNumber? (Nat.toDigits 10 n ++ rest) = some (toString n, rest) := by
  have hminus : ∀ s, Nat.toDigits 10 n ++ rest ≠ '-' :: s := by
    intro s hs
    obtain ⟨c, digits, hdigits, hc⟩ := exists_toDigits_eq_cons n
    rw [hdigits, List.cons_append, List.cons.injEq] at hs
    rw [hs.1] at hc
    exact absurd hc (by decide)
  have htext : String.ofList (Nat.toDigits 10 n) = toString n := by
    rw [← Nat.toList_repr, String.ofList_toList]
    rfl
  unfold readNumber?
  split
  next minus s hs =>
    split at hs
    · next digits hdigits => exact absurd hdigits (hminus digits)
    · obtain ⟨rfl, rfl⟩ := Prod.mk.inj hs
      rw [readWhole?_toDigits n h]
      simp [readFraction?_of_endsNumber h, readExponent?_of_endsNumber h, htext]

/-! ## Single tokens -/

namespace Token

/-- A token as it is written. -/
def chars : Token → List Char
  | openArray => ['[']
  | closeArray => [']']
  | openObject => ['\x7b']
  | closeObject => ['\x7d']
  | comma => [',']
  | colon => [':']
  | null => "null".toList
  | bool true => "true".toList
  | bool false => "false".toList
  | number literal => literal.toList
  | quoted content => writeQuoted content

/-- A token of a natural number, of a text or of a fixed word or mark. -/
def IsPlain : Token → Prop
  | number literal => ∃ n : Nat, literal = toString n
  | quoted content => content.isSome
  | _ => True

/-- Whether it matters what follows a token. -/
def isNumber : Token → Bool
  | number _ => true
  | _ => false

end Token

theorem readToken?_number (n : Nat) {rest : List Char} (h : EndsNumber rest) :
    readToken? (Nat.toDigits 10 n ++ rest) = some (.number (toString n), rest) := by
  have hnumber := readNumber?_toDigits n h
  obtain ⟨c, digits, hdigits, hc⟩ := exists_toDigits_eq_cons n
  rw [hdigits, List.cons_append] at hnumber ⊢
  have hne : ∀ d : Char, d.isDigit = false → ∀ s, c :: (digits ++ rest) ≠ d :: s := by
    rintro d hd s hs
    rw [(List.cons.inj hs).1, hd] at hc
    exact absurd hc Bool.false_ne_true
  rw [readToken?.eq_11, hnumber]
  · rfl
  all_goals exact fun s => hne _ rfl _

/-- A written token is read back, if what follows does not belong to a number. -/
theorem readToken?_chars {t : Token} (ht : t.IsPlain) {rest : List Char}
    (h : t.isNumber = true → EndsNumber rest) :
    readToken? (t.chars ++ rest) = some (t, rest) := by
  cases t with
  | openArray | closeArray | openObject | closeObject | comma | colon => rfl
  | null =>
    rw [Token.chars, String.toList_ofList]
    rfl
  | bool b =>
    cases b
    all_goals
      rw [Token.chars, String.toList_ofList]
      rfl
  | number literal =>
    obtain ⟨n, rfl⟩ := ht
    rw [Token.chars, show (toString n).toList = Nat.toDigits 10 n from Nat.toList_repr]
    exact readToken?_number n (h rfl)
  | quoted content =>
    obtain ⟨s, rfl⟩ := Option.isSome_iff_exists.1 ht
    have hread := readQuoted?_escape s.toList rest
    rw [String.ofList_toList] at hread
    show readToken? (['"'] ++ s.toList.flatMap escape ++ ['"'] ++ rest) = _
    rw [List.append_assoc, List.append_assoc, List.singleton_append, List.singleton_append,
      readToken?, hread]
    rfl

/-- A token does not begin with a blank. -/
theorem exists_chars_eq_cons {t : Token} (ht : t.IsPlain) :
    ∃ c more, t.chars = c :: more ∧ isSpace c = false := by
  cases t with
  | openArray | closeArray | openObject | closeObject | comma | colon => exact ⟨_, _, rfl, rfl⟩
  | null =>
    rw [Token.chars, String.toList_ofList]
    exact ⟨_, _, rfl, rfl⟩
  | bool b =>
    cases b
    all_goals
      rw [Token.chars, String.toList_ofList]
      exact ⟨_, _, rfl, rfl⟩
  | number literal =>
    obtain ⟨n, rfl⟩ := ht
    obtain ⟨c, digits, hdigits, hc⟩ := exists_toDigits_eq_cons n
    refine ⟨c, digits, Nat.toList_repr.trans hdigits, ?_⟩
    rw [← Bool.not_eq_true]
    intro hspace
    simp only [isSpace, Bool.or_eq_true, beq_iff_eq] at hspace
    obtain ((rfl | rfl) | rfl) | rfl := hspace
    all_goals exact absurd hc (by decide)
  | quoted content => exact ⟨_, _, rfl, rfl⟩

/-! ## Texts -/

/-- More fuel than needed changes nothing. -/
theorem tokensWithin?_mono {m n : Nat} (hmn : m ≤ n) {s : List Char} {ts : List Token}
    (h : tokensWithin? m s = some ts) : tokensWithin? n s = some ts := by
  induction m generalizing n s ts with
  | zero =>
    cases s with
    | nil => simpa [tokensWithin?] using h
    | cons c s => simp [tokensWithin?] at h
  | succ m ih =>
    obtain ⟨n, rfl⟩ := Nat.exists_eq_succ_of_ne_zero (by omega : n ≠ 0)
    cases s with
    | nil => simpa [tokensWithin?] using h
    | cons c s =>
      rw [tokensWithin?] at h ⊢
      split at h
      · next hspace => rw [if_pos hspace, ih (by omega) h]
      · next hspace =>
        rw [if_neg hspace]
        obtain ⟨⟨t, after⟩, ht, h⟩ := Option.bind_eq_some_iff.1 h
        obtain ⟨more, hmore, h⟩ := Option.bind_eq_some_iff.1 h
        rw [ht, Option.bind_eq_bind, Option.bind_some]
        dsimp only
        rw [ih (by omega) hmore]
        exact h

/-- The first token of a text and the tokens of the rest. -/
theorem tokens?_chars_append {t : Token} (ht : t.IsPlain) {rest : List Char} {ts : List Token}
    (h : t.isNumber = true → EndsNumber rest) (hts : tokens? rest = some ts) :
    tokens? (t.chars ++ rest) = some (t :: ts) := by
  have hread := readToken?_chars ht h
  obtain ⟨c, more, hchars, hspace⟩ := exists_chars_eq_cons ht
  rw [tokens?] at hts
  rw [hchars, List.cons_append] at hread ⊢
  have hmore : tokensWithin? (more ++ rest).length rest = some ts :=
    tokensWithin?_mono (by simp) hts
  rw [tokens?, List.length_cons, tokensWithin?, if_neg (by simp [hspace]), hread]
  dsimp only [bind, Option.bind]
  rw [hmore]
  rfl

/-- After a token that is not a number, anything may follow. -/
theorem tokens?_mark_append {t : Token} (ht : t.IsPlain) (hmark : t.isNumber = false)
    {rest : List Char} {ts : List Token} (hts : tokens? rest = some ts) :
    tokens? (t.chars ++ rest) = some (t :: ts) := by
  refine tokens?_chars_append ht (fun hnumber => ?_) hts
  exact absurd (hmark.symm.trans hnumber) Bool.false_ne_true

/-- Blanks before the first token are passed over. -/
theorem tokens?_space_append {blanks rest : List Char} {ts : List Token}
    (h : ∀ c ∈ blanks, isSpace c = true) (hts : tokens? rest = some ts) :
    tokens? (blanks ++ rest) = some ts := by
  induction blanks with
  | nil => exact hts
  | cons c blanks ih =>
    obtain ⟨hc, hblanks⟩ := List.forall_mem_cons.1 h
    rw [List.cons_append, tokens?, List.length_cons, tokensWithin?, if_pos hc]
    exact ih hblanks

end Json

end GeoPolicy
