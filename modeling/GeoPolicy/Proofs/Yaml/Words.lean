import GeoPolicy.Proofs.Text.Case
import GeoPolicy.Text.Blank
import GeoPolicy.Yaml.Layout

/-!
# Plain words of YAML

A plain word is made of letters, digits, underscores and hyphens, and starts with a letter. So no
character of it means anything else to a reader, wherever the word stands: it is read as a plain
scalar with just these characters, which ends where a mark, a bracket or a line break follows.

## Main definitions

* `Yaml.IsPlainWord` — a text that is one plain word.

## Main statements

* `Yaml.readPlain?_word_colon`, `Yaml.readPlain?_word_line`, `Yaml.readPlain?_word_flow` — a plain
  word is read as it is, as a key, as a value at the end of a line, and between brackets.
-/

namespace GeoPolicy

namespace Yaml

/-! ## Characters -/

section Characters

variable {c : Char}

/-- Whether a character is a printable one of ASCII. -/
def IsPrintable (c : Char) : Prop :=
  0x20 ≤ c.toNat ∧ c.toNat < 0x7F

instance : DecidablePred IsPrintable := fun c =>
  inferInstanceAs (Decidable (0x20 ≤ c.toNat ∧ c.toNat < 0x7F))

theorem IsPrintable.ne {d : Char} (h : IsPrintable c) (hd : ¬ IsPrintable d) : c ≠ d := by
  rintro rfl
  exact hd h

theorem IsPrintable.isSeparator (h : IsPrintable c) : isSeparator c = false := by
  simp [Yaml.isSeparator, h.ne (d := '\u2028') (by decide), h.ne (d := '\u2029') (by decide)]

theorem IsPrintable.isBreak (h : IsPrintable c) : isBreak c = false := by
  simp [Yaml.isBreak, h.isSeparator, h.ne (d := '\n') (by decide)]

theorem IsPrintable.isBlank (h : IsPrintable c) (hspace : c ≠ ' ') : Text.isBlank c = false := by
  have hne : c.toNat ≠ 0x20 := fun hc => hspace (Char.toNat_inj.1 hc)
  have hlow := h.1
  have hhigh := h.2
  simp only [Text.isBlank, Bool.or_eq_false_iff, Bool.and_eq_false_iff, decide_eq_false_iff_not,
    beq_eq_false_iff_ne]
  omega

theorem isPrintable_of_isWord (h : isWord c = true) : IsPrintable c := by
  have hkinds : ((c.isUpper = true ∨ c.isLower = true) ∨ c.isDigit = true) ∨ c = '_' ∨ c = '-' := by
    simpa [isWord, Char.isAlphanum, Char.isAlpha, or_assoc] using h
  unfold IsPrintable
  obtain ((hupper | hlower) | hdigit) | rfl | rfl := hkinds
  · have := (Text.isUpper_iff_toNat c).1 hupper
    omega
  · have := (Text.isLower_iff_toNat c).1 hlower
    omega
  · have : 48 ≤ c.toNat ∧ c.toNat ≤ 57 :=
      (Bool.and_eq_true_iff.trans (and_congr decide_eq_true_iff decide_eq_true_iff)).1 hdigit
    omega
  all_goals decide

theorem isWord_of_isAlpha (h : c.isAlpha = true) : isWord c = true := by
  simp [isWord, Char.isAlphanum, h]

/-- A character of a word is none of the characters that are not. -/
theorem ne_of_isWord {d : Char} (h : isWord c = true) (hd : isWord d = false) : c ≠ d := by
  rintro rfl
  exact Bool.false_ne_true (hd.symm.trans h)

theorem isBlank_of_isWord (h : isWord c = true) : isBlank c = false := by
  simp [isBlank, ne_of_isWord h (d := ' ') (by decide), ne_of_isWord h (d := '\t') (by decide)]

theorem not_mem_flowIndicators_of_isWord (h : isWord c = true) : c ∉ flowIndicators := by
  have hnone : flowIndicators.all (!isWord ·) = true := by decide
  intro hc
  simpa [h] using List.all_eq_true.1 hnone c hc

theorem isPrintable_of_mem_flowIndicators (h : c ∈ flowIndicators) : IsPrintable c := by
  have hall : flowIndicators.all fun d => IsPrintable d := by decide
  simpa using List.all_eq_true.1 hall c h

end Characters

/-! ## Words -/

/-- A word that starts with a letter. It is short enough to be a mapping key. -/
structure IsPlainWord (w : List Char) : Prop where
  head : w.head?.any Char.isAlpha = true
  isWord : ∀ c ∈ w, isWord c = true
  length_le : w.length ≤ 1024

theorem isPlainWord_iff {w : List Char} :
    IsPlainWord w ↔
      w.head?.any Char.isAlpha = true ∧ w.all Yaml.isWord = true ∧ w.length ≤ 1024 := by
  rw [List.all_eq_true]
  exact ⟨fun h => ⟨h.head, h.isWord, h.length_le⟩, fun h => ⟨h.1, h.2.1, h.2.2⟩⟩

instance : DecidablePred IsPlainWord := fun _ => decidable_of_iff' _ isPlainWord_iff

theorem IsPlainWord.exists_cons {w : List Char} (h : IsPlainWord w) :
    ∃ c rest, w = c :: rest ∧ c.isAlpha = true := by
  cases w with
  | nil => exact absurd h.head (by simp)
  | cons c rest => exact ⟨c, rest, rfl, by simpa using h.head⟩

theorem IsPlainWord.length_pos {w : List Char} (h : IsPlainWord w) : 0 < w.length := by
  obtain ⟨c, rest, rfl, -⟩ := h.exists_cons
  exact Nat.succ_pos _

/-! ## Marks -/

section Marks

variable (index line column : Nat) (rest : List Char)

theorem marksFrom_newline :
    marksFrom index line column ('\n' :: rest) =
      ⟨'\n', index, line, column⟩ :: marksFrom (index + 1) (line + 1) 0 rest := by
  rw [marksFrom.eq_3 _ _ _ _ _ (by rintro _ ⟨⟩), if_pos (.inl rfl)]
  rfl

/-- A printable character takes one byte and one column. -/
theorem marksFrom_cons {c : Char} (hc : IsPrintable c) :
    marksFrom index line column (c :: rest) =
      ⟨c, index, line, column⟩ :: marksFrom (index + 1) line (column + 1) rest := by
  have hsize : c.utf8Size = 1 :=
    Char.utf8Size_eq_one_iff.2 (UInt32.le_iff_toNat_le.2 (Nat.le_of_lt hc.2))
  have hbreak : ¬ (c = '\n' ∨ c = '\r' ∨ c = '\u0085') := by
    simp [hc.ne (d := '\n') (by decide), hc.ne (d := '\r') (by decide),
      hc.ne (d := '\u0085') (by decide)]
  rw [marksFrom.eq_3 _ _ _ _ _ fun _ hcr => absurd hcr (hc.ne (by decide)), if_neg hbreak,
    hc.isSeparator, hsize]
  rfl

theorem length_marksFrom_word {w : List Char} (hw : ∀ c ∈ w, isWord c = true) :
    (marksFrom index line column (w ++ rest)).length =
      w.length + (marksFrom (index + w.length) line (column + w.length) rest).length := by
  induction w generalizing index column with
  | nil => simp
  | cons c w ih =>
    have hrest := ih (index + 1) (column + 1) fun d hd => hw d (List.mem_cons_of_mem c hd)
    rw [List.cons_append, marksFrom_cons _ _ _ _ (isPrintable_of_isWord (hw c List.mem_cons_self)),
      List.length_cons, hrest]
    simp only [List.length_cons, Nat.add_assoc, Nat.add_comm 1]

end Marks

/-! ## Plain scalars -/

section Plain

variable {w : List Char} (index line column : Nat)

/-- The characters of a word are added to a plain scalar one by one. -/
theorem readPlainFrom?_word (isFlow : Bool) (indent : Int) (text : List Char)
    (hw : ∀ c ∈ w, isWord c = true) (rest : List Char) :
    readPlainFrom? isFlow indent text .empty (marksFrom index line column (w ++ rest)) =
      readPlainFrom? isFlow indent (w.reverse ++ text) .empty
        (marksFrom (index + w.length) line (column + w.length) rest) := by
  induction w generalizing index column text with
  | nil => rfl
  | cons c w ih =>
    have hc := hw c List.mem_cons_self
    have hcode := isPrintable_of_isWord hc
    have hstep := ih (index + 1) (column + 1) (c :: text) fun d hd =>
      hw d (List.mem_cons_of_mem c hd)
    rw [List.cons_append, marksFrom_cons _ _ _ _ hcode, readPlainFrom?]
    simpa [isBlank_of_isWord hc, hcode.isBreak, ne_of_isWord hc (d := ':') (by decide),
      not_mem_flowIndicators_of_isWord hc, Gap.empty, Gap.isEmpty, Gap.hasBreak, Gap.folded,
      Nat.add_assoc, Nat.add_comm 1] using hstep

/-- A word before a colon and a space is a scalar of the block around it. -/
theorem readPlain?_word_colon (indent : Int) (hw : ∀ c ∈ w, isWord c = true) (rest : List Char) :
    readPlain? false indent (marksFrom index line column (w ++ ':' :: ' ' :: rest)) =
      some (w, false,
        marksFrom (index + w.length) line (column + w.length) (':' :: ' ' :: rest)) := by
  rw [readPlain?, readPlainFrom?_word _ _ _ _ _ _ hw, marksFrom_cons _ _ _ _ (by decide),
    marksFrom_cons _ _ _ _ (by decide), readPlainFrom?]
  simp [isBlank, isBreak, isSeparator, Gap.empty, Gap.isEmpty, Gap.hasBreak, atGap]

/-- A word at the end of a line is a scalar of the block around it, if the next line is not
indented. The line break belongs to it. -/
theorem readPlain?_word_line {indent : Int} (hindent : 0 < indent) (hw : ∀ c ∈ w, isWord c = true)
    {rest : List Char} (hrest : rest.head?.all Char.isAlpha = true) :
    readPlain? false indent (marksFrom index line column (w ++ '\n' :: rest)) =
      some (w, true, marksFrom (index + w.length + 1) (line + 1) 0 rest) := by
  have hnewline : isBlank '\n' = false ∧ isBreak '\n' = true := by decide
  rw [readPlain?, readPlainFrom?_word _ _ _ _ _ _ hw, marksFrom_newline, readPlainFrom?]
  simp only [hnewline, Bool.false_eq_true, if_false, if_true]
  cases rest with
  | nil => simp [marksFrom, readPlainFrom?, Gap.empty, Gap.addBreak, Gap.hasBreak]
  | cons c rest =>
    have hc : isWord c = true := isWord_of_isAlpha (by simpa using hrest)
    have hcode := isPrintable_of_isWord hc
    rw [marksFrom_cons _ _ _ _ hcode]
    simp [readPlainFrom?, isBlank_of_isWord hc, hcode.isBreak, Gap.empty, Gap.addBreak,
      Gap.hasBreak, Gap.isEmpty, hindent]

/-- A word between brackets ends at a comma or a bracket. -/
theorem readPlain?_word_flow (indent : Int) (hw : ∀ c ∈ w, isWord c = true) {stop : Char}
    (hstop : stop ∈ flowIndicators) (rest : List Char) :
    readPlain? true indent (marksFrom index line column (w ++ stop :: rest)) =
      some (w, false,
        marksFrom (index + w.length) line (column + w.length) (stop :: rest)) := by
  have hcode := isPrintable_of_mem_flowIndicators hstop
  have hkinds : flowIndicators.all fun c => !isBlank c && c != ':' := by decide
  obtain ⟨hblank, hcolon⟩ : isBlank stop = false ∧ stop ≠ ':' := by
    simpa using List.all_eq_true.1 hkinds stop hstop
  rw [readPlain?, readPlainFrom?_word _ _ _ _ _ _ hw, marksFrom_cons _ _ _ _ hcode, readPlainFrom?]
  simp [hblank, hcode.isBreak, hcolon, hstop, Gap.empty, Gap.isEmpty, Gap.hasBreak]

end Plain

end Yaml

end GeoPolicy
