import GeoPolicy.Proofs.Yaml.Words

/-!
# Scanning plain words

The tokens of plain words and of the marks around them. Each token is read by one step from one
layout to the next, whatever follows it; a run of steps is a run with less fuel, so runs compose.

## Main definitions

* `Yaml.Reads` — a layout and a text are a later layout and what is left of the text.
* `Yaml.Layout.IsSteady` — a layout in which neither a key nor a block comes to its end.

## Main statements

* `Yaml.reads_plain`, `Yaml.reads_mark` — a plain word is one token, and so is a mark.
* `Yaml.reads_keyWord`, `Yaml.reads_colon` — the key of a member.
* `Yaml.reads_word`, `Yaml.reads_open`, `Yaml.reads_item`, `Yaml.reads_comma`, `Yaml.reads_close` —
  the two kinds of values.
-/

namespace GeoPolicy

namespace Yaml

/-! ## Runs -/

/-- Reading on from a layout gives the same tokens as from a later layout with what is left of the
text. Each step takes a character at least. -/
def Reads (l : Layout) (s : List Mark) (l' : Layout) (s' : List Mark) : Prop :=
  ∃ steps, s'.length + steps ≤ s.length ∧
    ∀ fuel, lexemesFrom (fuel + steps + 1) l s = lexemesFrom (fuel + 1) l' s'

namespace Reads

variable {l l' l'' : Layout} {s s' s'' : List Mark}

theorem refl (l : Layout) (s : List Mark) : Reads l s l s :=
  ⟨0, le_rfl, fun _ => rfl⟩

theorem trans (h : Reads l s l' s') (h' : Reads l' s' l'' s'') : Reads l s l'' s'' := by
  obtain ⟨steps, hlength, hrun⟩ := h
  obtain ⟨steps', hlength', hrun'⟩ := h'
  refine ⟨steps' + steps, by omega, fun fuel => ?_⟩
  rw [← Nat.add_assoc, hrun, hrun']

theorem of_advance? (h : l.advance? s = some (l', some s')) (hlength : s'.length < s.length) :
    Reads l s l' s' :=
  ⟨1, hlength, fun fuel => by rw [lexemesFrom.eq_def]; simp only [h]⟩

/-- A text that has been read to its end has the tokens so far. -/
theorem lexemesFrom_eq (h : Reads l s l' []) (hl : l'.advance? [] = some (l'', none)) :
    lexemesFrom (s.length + 1) l s = l''.tokens.reverse := by
  obtain ⟨steps, hlength, hrun⟩ := h
  obtain ⟨spare, hspare⟩ := Nat.exists_eq_add_of_le' (Nat.zero_add steps ▸ hlength)
  rw [hspare, hrun, lexemesFrom]
  simp only [hl]

end Reads

/-! ## Single steps -/

namespace Layout

section Step

variable {l : Layout} {m : Mark} {rest : List Mark}

theorem skipToToken_of_not_blank {c : Char} {index line column : Nat} {isFlow isKeyAllowed : Bool}
    (hcode : IsPrintable c) (hspace : c ≠ ' ') (hcomment : c ≠ '#') :
    skipToToken isFlow false isKeyAllowed (⟨c, index, line, column⟩ :: rest) =
      (isKeyAllowed, ⟨c, index, line, column⟩ :: rest) := by
  simp [skipToToken, hcode.isBreak, hspace, hcomment, hcode.ne (d := '\t') (by decide),
    hcode.ne (d := '\uFEFF') (by decide)]

theorem skipToToken_space {index line column : Nat} {isFlow isKeyAllowed : Bool} :
    skipToToken isFlow false isKeyAllowed (⟨' ', index, line, column⟩ :: rest) =
      skipToToken isFlow false isKeyAllowed rest := by
  simp [skipToToken, isBreak, isSeparator]

theorem atDocumentMark_of_ne (hhyphen : m.char ≠ '-') (hpoint : m.char ≠ '.') :
    atDocumentMark (m :: rest) = false := by
  have htriple {c : Char} (hc : m.char ≠ c) : atTriple c (m :: rest) = false := by
    unfold atTriple
    split
    · next h =>
      cases h
      simp [hc]
    · rfl
  simp [atDocumentMark, htriple hhyphen, htriple hpoint]

/-- Where a letter comes next, a plain scalar begins. -/
theorem step?_of_isAlpha (h : m.char.isAlpha = true) :
    l.step? m rest = do
      let l ← l.markSpot? m
      let (text, isOverBreak, rest) ← readPlain? l.isFlow (l.indent + 1) (m :: rest)
      return ((l.emit (.scalar .plain (String.ofList text)) m.place).allowKey isOverBreak,
        rest) := by
  have hne : ∀ d : Char, d.isAlpha = false → m.char ≠ d := by
    rintro d hd rfl
    exact Bool.false_ne_true (hd.symm.trans h)
  have hplain : atPlain l.isFlow m rest = true := by
    simp (disch := decide) [atPlain, isBlank, hne]
  have hmark : atDocumentMark (m :: rest) = false :=
    atDocumentMark_of_ne (hne _ (by decide)) (hne _ (by decide))
  simp (disch := decide) only [step?, hne, false_and, if_false, hmark, Bool.false_eq_true, hplain,
    or_self, if_true]

/-- The plain scalar that begins with a letter is the next token. -/
theorem step?_of_plain {spot : Option KeySpot} {w : List Char} {isOverBreak : Bool}
    {rest' : List Mark} (h : m.char.isAlpha = true) (hspot : l.markSpot? m = some { l with spot })
    (hplain : readPlain? l.isFlow (l.indent + 1) (m :: rest) = some (w, isOverBreak, rest')) :
    l.step? m rest =
      some ({ l with
        tokens := ⟨.scalar .plain (String.ofList w), m.place⟩ :: l.tokens
        count := l.count + 1
        spot
        isKeyAllowed := isOverBreak }, rest') := by
  change readPlain? ({ l with spot } : Layout).isFlow (({ l with spot } : Layout).indent + 1) _ = _
    at hplain
  simp only [step?_of_isAlpha h, hspot, Option.bind_eq_bind, Option.bind_some, hplain]
  rfl

end Step

/-! ### Steps that close and give up nothing -/

/-- A possible key is not given up yet at a place. -/
def IsKept (spot : Option KeySpot) (index line : Nat) : Prop :=
  ∀ k, spot = some k → line ≤ k.mark.line ∧ index ≤ k.mark.index + 1024

theorem isKept_none (index line : Nat) : IsKept none index line :=
  fun _ h => nomatch h

/-- Neither a key nor a block comes to its end at a place. -/
structure IsSteady (l : Layout) (index line : Nat) : Prop where
  blocks : l.blocks = [] ∨ l.blocks = [0]
  outerSpots : l.outerSpots = [] ∨ l.outerSpots = [none]
  spot : IsKept l.spot index line

theorem IsSteady.expireSpots?_eq {l : Layout} {m : Mark} (h : l.IsSteady m.index m.line) :
    l.expireSpots? m = some l := by
  have hinner : expireSpot? m l.spot = some l.spot := by
    cases hspot : l.spot with
    | none => rfl
    | some k =>
      have hk := h.spot k hspot
      simp only [expireSpot?]
      rw [if_neg (by omega)]
  have houter : l.outerSpots.mapM (expireSpot? m) = some l.outerSpots := by
    obtain h | h := h.outerSpots <;> rw [h] <;> rfl
  simp [expireSpots?, hinner, houter]

/-- Blocks that begin at the first column stay open. -/
theorem closeBlocks_eq_self {l : Layout} (h : l.blocks = [] ∨ l.blocks = [0]) (column : Nat) :
    l.closeBlocks column = l := by
  unfold closeBlocks
  split
  · rfl
  · obtain h | h := h <;> cases l <;> simp_all

/-- Where a layout is steady before and after a token, reading on is reading the token. -/
theorem advance?_of_step? {l l' : Layout} {m : Mark} {s rest rest' : List Mark}
    (hskip : skipToToken l.isFlow false l.isKeyAllowed s = (l.isKeyAllowed, m :: rest))
    (hl : l.IsSteady m.index m.line) (hstep : l.step? m rest = some (l', rest'))
    (hl' : ∀ n, nextMark? (m :: rest) rest' = some n → l'.IsSteady n.index n.line) :
    l.advance? s = some (l', some rest') := by
  have hallow : l.allowKey l.isKeyAllowed = l := rfl
  simp only [advance?, hskip, hallow, hl.expireSpots?_eq, closeBlocks_eq_self hl.blocks, hstep,
    Option.bind_eq_bind, Option.bind_some]
  cases h : nextMark? (m :: rest) rest' with
  | none => rfl
  | some n => simp [(hl' n h).expireSpots?_eq]

/-! ### Layouts of flat files -/

/-- The layout after tokens, the last one first, within a line of a mapping at the first column. -/
def inBlock (ts : List Lexeme) (isKeyAllowed : Bool) : Layout :=
  { tokens := ts, count := ts.length, blocks := [0], isKeyAllowed }

/-- The layout after tokens within brackets in a mapping at the first column. -/
def inBrackets (ts : List Lexeme) (spot : Option KeySpot) (isKeyAllowed : Bool) : Layout :=
  { tokens := ts, count := ts.length, blocks := [0], spot, outerSpots := [none], isKeyAllowed }

/-- The layout after the tokens of whole lines. The mapping begins with the first of them. -/
def atLineStart (ts : List Lexeme) : Layout :=
  { tokens := ts, count := ts.length, blocks := if ts = [] then [] else [0] }

/-- The layout after a word at the start of a line, which may be a key. It has to be one where the
mapping is open. -/
def afterKeyWord (ts : List Lexeme) (word : Lexeme) (m : Mark) : Layout :=
  { tokens := word :: ts
    count := ts.length + 1
    blocks := (atLineStart ts).blocks
    spot := some ⟨ts.length, m, decide ((atLineStart ts).indent = m.column)⟩
    isKeyAllowed := false }

/-- The tokens of whole lines and the start of the mapping, where a line is to follow. -/
def opened (ts : List Lexeme) (place : Place) : List Lexeme :=
  if ts = [] then [⟨.blockMappingStart, place⟩] else ts

section Layouts

variable (ts : List Lexeme) (index line : Nat)

theorem atLineStart_of_ne_nil {ts : List Lexeme} (h : ts ≠ []) :
    atLineStart ts = inBlock ts true := by
  rw [atLineStart, if_neg h]
  rfl

theorem isSteady_inBlock (isKeyAllowed : Bool) : (inBlock ts isKeyAllowed).IsSteady index line :=
  ⟨.inr rfl, .inl rfl, isKept_none index line⟩

theorem isSteady_inBrackets {spot : Option KeySpot} {index line : Nat} (h : IsKept spot index line)
    (isKeyAllowed : Bool) : (inBrackets ts spot isKeyAllowed).IsSteady index line :=
  ⟨.inr rfl, .inr rfl, h⟩

theorem blocks_atLineStart : (atLineStart ts).blocks = [] ∨ (atLineStart ts).blocks = [0] := by
  unfold atLineStart
  split <;> simp

theorem isSteady_atLineStart : (atLineStart ts).IsSteady index line :=
  ⟨blocks_atLineStart ts, .inl rfl, isKept_none index line⟩

/-- The mark of a word is near enough for a key at the end of the word. -/
theorem isKept_of_isPlainWord {w : List Char} (hw : IsPlainWord w) {number : Nat} {c : Char}
    {column : Nat} {isRequired : Bool} :
    IsKept (some ⟨number, ⟨c, index, line, column⟩, isRequired⟩) (index + w.length) line := by
  rintro k ⟨⟩
  exact ⟨le_rfl, Nat.add_le_add_left hw.length_le index⟩

/-- A colon puts the mark of the key before the word, and the start of the mapping before the
first one. -/
theorem startValue?_afterKeyWord (word : Lexeme) {m : Mark} (hm : m.column = 0) (n : Mark) :
    (afterKeyWord ts word m).startValue? n =
      some (inBlock (⟨.value, n.place⟩ :: word :: ⟨.key, m.place⟩ :: opened ts m.place) false) := by
  cases ts <;>
    simp [afterKeyWord, startValue?, insert, openBlock, emit, inBlock, opened, atLineStart, isFlow,
      indent, Mark.place, hm]

end Layouts

end Layout

/-! ## Runs of one step -/

section Steps

variable {w : List Char} (ts : List Lexeme) (index line column : Nat) (rest : List Char)

open Layout

/-- A word is one step, if it is read as a plain scalar. -/
theorem reads_plain {l : Layout} (spot : Char → Option KeySpot) {isOverBreak : Bool}
    {s : List Mark} (hw : IsPlainWord w) (hl : l.IsSteady index line)
    (hspot : ∀ c, l.markSpot? ⟨c, index, line, column⟩ = some { l with spot := spot c })
    (hplain : readPlain? l.isFlow (l.indent + 1) (marksFrom index line column (w ++ rest)) =
      some (w, isOverBreak, s))
    (hlength : s.length < (marksFrom index line column (w ++ rest)).length)
    (hnext : ∀ c n, nextMark? (marksFrom index line column (w ++ rest)) s = some n →
      IsKept (spot c) n.index n.line) :
    ∃ c, Reads l (marksFrom index line column (w ++ rest))
      { l with
        tokens := ⟨.scalar .plain (String.ofList w), ⟨line, column⟩⟩ :: l.tokens
        count := l.count + 1
        spot := spot c
        isKeyAllowed := isOverBreak } s := by
  obtain ⟨c, tail, rfl, hc⟩ := hw.exists_cons
  have hword := isWord_of_isAlpha hc
  rw [List.cons_append, marksFrom_cons _ _ _ _ (isPrintable_of_isWord hword)] at *
  refine ⟨c, .of_advance? (advance?_of_step? (m := ⟨c, index, line, column⟩) ?_ hl
    (step?_of_plain hc (hspot c) hplain) fun n hn => ⟨hl.blocks, hl.outerSpots, hnext c n hn⟩)
    hlength⟩
  exact skipToToken_of_not_blank (isPrintable_of_isWord hword) (ne_of_isWord hword (by decide))
    (ne_of_isWord hword (by decide))

/-- A mark that is a token is one step. -/
theorem reads_mark {l l' : Layout} {c : Char} (hc : IsPrintable c ∧ c ≠ ' ' ∧ c ≠ '#')
    (hl : l.IsSteady index line)
    (hstep : l.step? ⟨c, index, line, column⟩ (marksFrom (index + 1) line (column + 1) rest) =
      some (l', marksFrom (index + 1) line (column + 1) rest))
    (hl' : ∀ n : Mark, l'.IsSteady n.index n.line) :
    Reads l (marksFrom index line column (c :: rest)) l'
      (marksFrom (index + 1) line (column + 1) rest) := by
  rw [marksFrom_cons _ _ _ _ hc.1]
  exact .of_advance? (advance?_of_step? (skipToToken_of_not_blank hc.1 hc.2.1 hc.2.2) hl hstep
    fun n _ => hl' n) (Nat.lt_succ_self _)

/-! ### Keys -/

/-- A word at the start of a line may be a key. -/
theorem reads_keyWord (hw : IsPlainWord w) :
    ∃ c, Reads (atLineStart ts) (marksFrom index line 0 (w ++ ':' :: ' ' :: rest))
      (afterKeyWord ts ⟨.scalar .plain (String.ofList w), ⟨line, 0⟩⟩ ⟨c, index, line, 0⟩)
      (marksFrom (index + w.length) line w.length (':' :: ' ' :: rest)) := by
  have hlength := length_marksFrom_word index line 0 (':' :: ' ' :: rest) hw.isWord
  have hplain := readPlain?_word_colon index line 0 ((atLineStart ts).indent + 1) hw.isWord rest
  have hpos := hw.length_pos
  rw [Nat.zero_add] at hplain hlength
  refine reads_plain index line 0 _ _ hw (isSteady_atLineStart ts index line) (fun c => rfl) hplain
    (by omega) fun c n hn => ?_
  rw [marksFrom_cons _ _ _ _ (by decide)] at hn
  obtain rfl := Option.some.inj hn
  exact isKept_of_isPlainWord index line hw

/-- A colon and a space after a word that may be a key make it one. -/
theorem reads_colon (hw : IsPlainWord w) (word : Lexeme) (c : Char) :
    Reads (afterKeyWord ts word ⟨c, index, line, 0⟩)
      (marksFrom (index + w.length) line w.length (':' :: ' ' :: rest))
      (inBlock (⟨.value, ⟨line, w.length⟩⟩ :: word :: ⟨.key, ⟨line, 0⟩⟩ :: opened ts ⟨line, 0⟩)
        false)
      (marksFrom (index + w.length + 1) line (w.length + 1) (' ' :: rest)) := by
  refine reads_mark _ _ _ _ (by decide)
    ⟨blocks_atLineStart ts, .inl rfl, isKept_of_isPlainWord index line hw⟩ ?_
    fun n => isSteady_inBlock ..
  rw [marksFrom_cons _ _ _ _ (by decide)]
  simp [step?, atDocumentMark_of_ne, atGap, isBlank, startValue?_afterKeyWord, Mark.place]

/-! ### Values -/

/-- A word is a value that ends with its line. -/
theorem reads_word (hw : IsPlainWord w) (hrest : rest.head?.all Char.isAlpha = true) :
    Reads (inBlock ts false) (marksFrom index line column (w ++ '\n' :: rest))
      (inBlock (⟨.scalar .plain (String.ofList w), ⟨line, column⟩⟩ :: ts) true)
      (marksFrom (index + w.length + 1) (line + 1) 0 rest) := by
  have hlength := length_marksFrom_word index line column ('\n' :: rest) hw.isWord
  have hplain := readPlain?_word_line index line column Int.one_pos hw.isWord hrest
  rw [marksFrom_newline, List.length_cons] at hlength
  obtain ⟨-, hrun⟩ := reads_plain index line column _ (fun _ => none) hw
    (isSteady_inBlock ts index line false) (fun c => rfl) hplain (by omega)
    fun c n _ => isKept_none _ _
  exact hrun

/-- A bracket begins a sequence. -/
theorem reads_open :
    Reads (inBlock ts false) (marksFrom index line column ('[' :: rest))
      (inBrackets (⟨.flowSequenceStart, ⟨line, column⟩⟩ :: ts) none true)
      (marksFrom (index + 1) line (column + 1) rest) := by
  refine reads_mark _ _ _ _ (by decide) (isSteady_inBlock ..) ?_
    fun n => isSteady_inBrackets _ (isKept_none _ _) _
  simp [step?, atDocumentMark_of_ne]
  rfl

/-- A word between brackets is an item. It might still turn out to be a key. -/
theorem reads_item (hw : IsPlainWord w) {stop : Char} (hstop : stop ∈ flowIndicators) :
    ∃ spot, IsKept spot (index + w.length) line ∧ spot.any (·.isRequired) = false ∧
      Reads (inBrackets ts none true) (marksFrom index line column (w ++ stop :: rest))
        (inBrackets (⟨.scalar .plain (String.ofList w), ⟨line, column⟩⟩ :: ts) spot false)
        (marksFrom (index + w.length) line (column + w.length) (stop :: rest)) := by
  have hlength := length_marksFrom_word index line column (stop :: rest) hw.isWord
  have hplain := readPlain?_word_flow index line column 1 hw.isWord hstop rest
  have hpos := hw.length_pos
  let spot (c : Char) : Option KeySpot := some ⟨ts.length, ⟨c, index, line, column⟩, false⟩
  have hkept : ∀ c n, nextMark? (marksFrom index line column (w ++ stop :: rest))
      (marksFrom (index + w.length) line (column + w.length) (stop :: rest)) = some n →
      IsKept (spot c) n.index n.line := by
    intro c n hn
    rw [marksFrom_cons _ _ _ _ (isPrintable_of_mem_flowIndicators hstop)] at hn
    obtain rfl := Option.some.inj hn
    exact isKept_of_isPlainWord index line hw
  obtain ⟨c, hrun⟩ := reads_plain index line column _ spot hw
    (isSteady_inBrackets ts (isKept_none index line) true) (fun c => rfl) hplain (by omega) hkept
  exact ⟨spot c, isKept_of_isPlainWord index line hw, rfl, hrun⟩

section Brackets

variable {spot : Option KeySpot} (isKeyAllowed : Bool) (hspot : IsKept spot index line)
  (hrequired : spot.any (·.isRequired) = false)
include hspot hrequired

/-- A comma after an item is followed by another one. -/
theorem reads_comma :
    Reads (inBrackets ts spot isKeyAllowed) (marksFrom index line column (',' :: rest))
      (inBrackets (⟨.flowEntry, ⟨line, column⟩⟩ :: ts) none true)
      (marksFrom (index + 1) line (column + 1) rest) := by
  refine reads_mark _ _ _ _ (by decide) (isSteady_inBrackets ts hspot _) ?_
    fun n => isSteady_inBrackets _ (isKept_none _ _) _
  simp [step?, atDocumentMark_of_ne, dropSpot?, inBrackets, hrequired]
  rfl

/-- A closing bracket ends the sequence. -/
theorem reads_close :
    Reads (inBrackets ts spot isKeyAllowed) (marksFrom index line column (']' :: rest))
      (inBlock (⟨.flowSequenceEnd, {}⟩ :: ts) false)
      (marksFrom (index + 1) line (column + 1) rest) := by
  refine reads_mark _ _ _ _ (by decide) (isSteady_inBrackets ts hspot _) ?_
    fun n => isSteady_inBlock ..
  simp [step?, atDocumentMark_of_ne, closeBracket?, dropSpot?, inBrackets, hrequired]
  rfl

end Brackets

/-! ### Blanks -/

/-- A space does not matter. -/
theorem reads_space (l : Layout) :
    Reads l (marksFrom index line column (' ' :: rest)) l
      (marksFrom (index + 1) line (column + 1) rest) := by
  rw [marksFrom_cons _ _ _ _ (by decide)]
  refine ⟨0, by simp, fun fuel => ?_⟩
  simp only [lexemesFrom, advance?, skipToToken_space]

/-- A line break outside of brackets allows a key. -/
theorem reads_newline :
    Reads (inBlock ts false) (marksFrom index line column ('\n' :: rest)) (inBlock ts true)
      (marksFrom (index + 1) (line + 1) 0 rest) := by
  rw [marksFrom_newline]
  refine ⟨0, by simp, fun fuel => ?_⟩
  have hadvance (s : List Mark) : (inBlock ts false).advance? (⟨'\n', index, line, column⟩ :: s) =
      (inBlock ts true).advance? s := rfl
  simp only [lexemesFrom, hadvance]
  rfl

end Steps

end Yaml

end GeoPolicy
