import GeoPolicy.Proofs.Yaml.Scanning

/-!
# Flat files

A flat file is YAML text of a simple shape: one line for each member of a mapping, with a plain
word or plain words between brackets as its value. The tokens of such a text are told by its
members alone.

## Main definitions

* `Yaml.FlatValue`, `Yaml.FlatMember` — a value and a member, with their text and their tokens.

## Main statements

* `Yaml.token_lexemes` — the tokens of a flat file.
-/

namespace GeoPolicy

namespace Yaml

/-! ## Members -/

/-- The value of a member: a word, or words between brackets. -/
inductive FlatValue where
  | word (w : String)
  | words (ws : List String)
  deriving DecidableEq, Repr

namespace FlatValue

/-- A value as it is written. -/
def chars : FlatValue → List Char
  | word w => w.toList
  | words ws => '[' :: [',', ' '].intercalate (ws.map String.toList) ++ [']']

/-- The tokens of a value. -/
def tokens : FlatValue → List Token
  | word w => [.scalar .plain w]
  | words ws =>
    .flowSequenceStart ::
      ((ws.map (Token.scalar .plain)).intersperse .flowEntry ++ [.flowSequenceEnd])

/-- Whether all words of a value are plain words. -/
def IsPlain : FlatValue → Prop
  | word w => IsPlainWord w.toList
  | words ws => ∀ w ∈ ws, IsPlainWord w.toList

end FlatValue

/-- A member of a flat file. -/
structure FlatMember where
  name : String
  value : FlatValue
  deriving DecidableEq, Repr

namespace FlatMember

/-- The line of a member. -/
def chars (m : FlatMember) : List Char :=
  m.name.toList ++ ':' :: ' ' :: m.value.chars ++ ['\n']

/-- The tokens of a member. -/
def tokens (m : FlatMember) : List Token :=
  .key :: .scalar .plain m.name :: .value :: m.value.tokens

/-- Whether all words of a member are plain words. -/
structure IsPlain (m : FlatMember) : Prop where
  name : IsPlainWord m.name.toList
  value : m.value.IsPlain

end FlatMember

/-! ## Items -/

/-- The text of items after the first one. -/
def itemsText (ws : List String) : List Char :=
  ws.flatMap fun w => ',' :: ' ' :: w.toList

/-- The tokens of items after the first one. -/
def itemTokens (ws : List String) : List Token :=
  ws.flatMap fun w => [.flowEntry, .scalar .plain w]

theorem intercalate_toList_cons (w : String) (ws : List String) :
    [',', ' '].intercalate ((w :: ws).map String.toList) = w.toList ++ itemsText ws := by
  induction ws generalizing w with
  | nil => simp [itemsText]
  | cons v ws ih =>
    rw [List.map_cons, List.map_cons, List.intercalate_cons_cons, ← List.map_cons, ih]
    simp [itemsText]

theorem intersperse_flowEntry_cons (w : String) (ws : List String) :
    ((w :: ws).map (Token.scalar .plain)).intersperse .flowEntry =
      .scalar .plain w :: itemTokens ws := by
  induction ws generalizing w with
  | nil => rfl
  | cons v ws ih =>
    rw [List.map_cons, List.map_cons, List.intersperse_cons_cons, ← List.map_cons, ih]
    rfl

/-- After an item comes a comma or a bracket. -/
theorem exists_stop (ws : List String) (rest : List Char) :
    ∃ stop after, itemsText ws ++ ']' :: rest = stop :: after ∧ stop ∈ flowIndicators := by
  cases ws with
  | nil => exact ⟨']', rest, rfl, by decide⟩
  | cons w ws => exact ⟨',', _, rfl, by decide⟩

/-! ## Runs -/

/-- The tokens that have been read, in the order of the text. -/
def tokensOf (ts : List Lexeme) : List Token :=
  ts.reverse.map (·.token)

@[simp]
theorem tokensOf_cons (t : Lexeme) (ts : List Lexeme) :
    tokensOf (t :: ts) = tokensOf ts ++ [t.token] := by
  simp [tokensOf]

section Runs

open Layout

variable (ts : List Lexeme) (index line column : Nat) (rest : List Char)

/-- The items after the first one, and the bracket behind them. -/
theorem reads_items {ws : List String} (hws : ∀ w ∈ ws, IsPlainWord w.toList)
    {spot : Option KeySpot} (isKeyAllowed : Bool) (hspot : IsKept spot index line)
    (hrequired : spot.any (·.isRequired) = false) :
    ∃ ts' index' column', tokensOf ts' = tokensOf ts ++ itemTokens ws ++ [.flowSequenceEnd] ∧
      Reads (inBrackets ts spot isKeyAllowed)
        (marksFrom index line column (itemsText ws ++ ']' :: rest))
        (inBlock ts' false) (marksFrom index' line column' rest) := by
  induction ws generalizing ts index column spot isKeyAllowed with
  | nil =>
    exact ⟨_, _, _, by simp [itemTokens], reads_close ts index line column rest _ hspot hrequired⟩
  | cons w ws ih =>
    obtain ⟨stop, after, hafter, hstop⟩ := exists_stop ws rest
    let comma : Lexeme := ⟨.flowEntry, ⟨line, column⟩⟩
    have hcomma := reads_comma ts index line column (' ' :: w.toList ++ stop :: after)
      isKeyAllowed hspot hrequired
    have hspace := reads_space (index + 1) line (column + 1) (w.toList ++ stop :: after)
      (inBrackets (comma :: ts) none true)
    obtain ⟨spot', hspot', hrequired', hitem⟩ := reads_item (comma :: ts) (index + 1 + 1) line
      (column + 1 + 1) after (hws w List.mem_cons_self) hstop
    rw [String.ofList_toList] at hitem
    obtain ⟨ts', index', column', htokens, hrest⟩ :=
      ih (⟨.scalar .plain w, ⟨line, column + 1 + 1⟩⟩ :: comma :: ts) _
        (column + 1 + 1 + w.toList.length) (fun v hv => hws v (List.mem_cons_of_mem w hv)) false
        hspot' hrequired'
    refine ⟨ts', index', column', by simp [htokens, itemTokens, comma], ?_⟩
    have hrun := (hcomma.trans hspace).trans (hitem.trans (hafter ▸ hrest))
    rw [← hafter] at hrun
    simpa [itemsText] using hrun

/-- A value to the end of its line. -/
theorem reads_value {value : FlatValue} (hvalue : value.IsPlain)
    (hrest : rest.head?.all Char.isAlpha = true) :
    ∃ ts' index', tokensOf ts' = tokensOf ts ++ value.tokens ∧
      Reads (inBlock ts false) (marksFrom index line column (value.chars ++ '\n' :: rest))
        (inBlock ts' true) (marksFrom index' (line + 1) 0 rest) := by
  cases value with
  | word w =>
    have hword := reads_word ts index line column rest hvalue hrest
    rw [String.ofList_toList] at hword
    exact ⟨_, _, by simp [FlatValue.tokens], hword⟩
  | words ws =>
    let bracket : Lexeme := ⟨.flowSequenceStart, ⟨line, column⟩⟩
    cases ws with
    | nil =>
      have hopen := reads_open ts index line column (']' :: '\n' :: rest)
      have hclose := reads_close (bracket :: ts) (index + 1) line (column + 1) ('\n' :: rest)
        true (isKept_none _ _) rfl
      exact ⟨_, _, by simp [FlatValue.tokens, bracket],
        hopen.trans (hclose.trans (reads_newline _ _ _ _ rest))⟩
    | cons w ws =>
      obtain ⟨stop, after, hafter, hstop⟩ := exists_stop ws ('\n' :: rest)
      have hopen := reads_open ts index line column (w.toList ++ stop :: after)
      obtain ⟨spot, hspot, hrequired, hitem⟩ := reads_item (bracket :: ts) (index + 1) line
        (column + 1) after (hvalue w List.mem_cons_self) hstop
      rw [String.ofList_toList] at hitem
      obtain ⟨ts', index', column', htokens, hitems⟩ :=
        reads_items (⟨.scalar .plain w, ⟨line, column + 1⟩⟩ :: bracket :: ts) _ line
          (column + 1 + w.toList.length) ('\n' :: rest)
          (fun v hv => hvalue v (List.mem_cons_of_mem w hv)) false hspot hrequired
      refine ⟨ts', index' + 1, ?_, ?_⟩
      · rw [htokens, FlatValue.tokens, intersperse_flowEntry_cons]
        simp [bracket]
      · have hrun := hopen.trans (hitem.trans
          ((hafter ▸ hitems).trans (reads_newline _ _ _ column' rest)))
        rw [← hafter] at hrun
        rw [FlatValue.chars, intercalate_toList_cons]
        simpa using hrun

/-! ## Lines -/

theorem tokensOf_opened (place place' : Place) :
    tokensOf (opened ts place) = tokensOf (opened ts place') := by
  unfold opened
  split <;> rfl

/-- The name of a member, the colon and the space. -/
theorem reads_name {name : String} (hname : IsPlainWord name.toList) :
    ∃ ts' index' column',
      tokensOf ts' = tokensOf (opened ts {}) ++ [.key, .scalar .plain name, .value] ∧
      Reads (atLineStart ts) (marksFrom index line 0 (name.toList ++ ':' :: ' ' :: rest))
        (inBlock ts' false) (marksFrom index' line column' rest) := by
  obtain ⟨c, hword⟩ := reads_keyWord ts index line rest hname
  have hcolon := reads_colon ts index line rest hname
    ⟨.scalar .plain (String.ofList name.toList), ⟨line, 0⟩⟩ c
  refine ⟨_, _, _, ?_, (hword.trans hcolon).trans (reads_space _ _ _ _ _)⟩
  simp [tokensOf_opened ts _ ⟨line, 0⟩]

/-- The line of a member. -/
theorem reads_member {m : FlatMember} (hm : m.IsPlain)
    (hrest : rest.head?.all Char.isAlpha = true) :
    ∃ ts' index', ts' ≠ [] ∧ tokensOf ts' = tokensOf (opened ts {}) ++ m.tokens ∧
      Reads (atLineStart ts) (marksFrom index line 0 (m.chars ++ rest)) (atLineStart ts')
        (marksFrom index' (line + 1) 0 rest) := by
  obtain ⟨ts₁, index₁, column₁, htokens₁, hname⟩ :=
    reads_name ts index line (m.value.chars ++ '\n' :: rest) hm.name
  obtain ⟨ts', index', htokens, hvalue⟩ := reads_value ts₁ index₁ line column₁ rest hm.value hrest
  have hmember : tokensOf ts' = tokensOf (opened ts {}) ++ m.tokens := by
    simp [htokens, htokens₁, FlatMember.tokens]
  have hne : ts' ≠ [] := by
    rintro rfl
    simp [tokensOf, FlatMember.tokens] at hmember
  refine ⟨ts', index', hne, hmember, ?_⟩
  have hrun := hname.trans hvalue
  rw [← atLineStart_of_ne_nil hne] at hrun
  simpa [FlatMember.chars] using hrun

/-- A line begins with a letter. -/
theorem head?_lines {ms : List FlatMember} (hms : ∀ m ∈ ms, m.IsPlain) :
    (ms.flatMap FlatMember.chars).head?.all Char.isAlpha = true := by
  cases ms with
  | nil => rfl
  | cons m ms =>
    obtain ⟨c, tail, hname, hc⟩ := (hms m List.mem_cons_self).name.exists_cons
    simp [FlatMember.chars, hname, hc]

/-- The lines of members to the end of the text. -/
theorem reads_members {ms : List FlatMember} (hms : ∀ m ∈ ms, m.IsPlain) :
    ∃ ts', (ts' = [] ↔ ts = [] ∧ ms = []) ∧
      tokensOf (opened ts' {}) = tokensOf (opened ts {}) ++ ms.flatMap FlatMember.tokens ∧
      Reads (atLineStart ts) (marksFrom index line 0 (ms.flatMap FlatMember.chars))
        (atLineStart ts') [] := by
  induction ms generalizing ts index line with
  | nil => exact ⟨ts, by simp, by simp, .refl _ _⟩
  | cons m ms ih =>
    have hms' : ∀ n ∈ ms, n.IsPlain := fun n hn => hms n (List.mem_cons_of_mem m hn)
    obtain ⟨ts₁, index₁, hne, htokens₁, hmember⟩ :=
      reads_member ts index line _ (hms m List.mem_cons_self) (head?_lines hms')
    obtain ⟨ts', hnil, htokens, hmembers⟩ := ih ts₁ index₁ (line + 1) hms'
    -- After a line the mapping is open, so the next line only adds its own tokens.
    refine ⟨ts', by simp [hnil, hne], ?_, hmember.trans hmembers⟩
    rw [htokens, opened, if_neg hne, htokens₁]
    simp

end Runs

/-! ## Flat files -/

theorem isPrintable_of_mem_value {value : FlatValue} (hvalue : value.IsPlain) :
    ∀ c ∈ value.chars, IsPrintable c := by
  have hword {w : String} (hw : IsPlainWord w.toList) : ∀ c ∈ w.toList, IsPrintable c :=
    fun c hc => isPrintable_of_isWord (hw.isWord c hc)
  cases value with
  | word w => exact hword hvalue
  | words ws =>
    cases ws with
    | nil =>
      have hbrackets : ['[', ']'].all fun c => IsPrintable c := by decide
      intro c hc
      simpa using List.all_eq_true.1 hbrackets c hc
    | cons w ws =>
      rw [FlatValue.chars, intercalate_toList_cons]
      simp only [List.mem_cons, List.mem_append, List.cons_append, itemsText, List.mem_flatMap,
        List.not_mem_nil, or_false]
      rintro c (rfl | (hc | ⟨v, hv, rfl | rfl | hc⟩) | rfl)
      · decide
      · exact hword (hvalue w List.mem_cons_self) c hc
      · decide
      · decide
      · exact hword (hvalue v (List.mem_cons_of_mem w hv)) c hc
      · decide

theorem isAllowed_of_mem_line {m : FlatMember} (hm : m.IsPlain) :
    ∀ c ∈ m.chars, isAllowed c = true := by
  have hprintable {c : Char} (hc : IsPrintable c) : isAllowed c = true := by
    have hrange : 0x20 ≤ c.toNat ∧ c.toNat ≤ 0x7E := ⟨hc.1, Nat.le_of_lt_succ hc.2⟩
    simp [isAllowed, hrange]
  simp only [FlatMember.chars, List.mem_append, List.mem_cons, List.not_mem_nil, or_false]
  rintro c ((hc | rfl | rfl | hc) | rfl)
  · exact hprintable (isPrintable_of_isWord (hm.name.isWord c hc))
  · rfl
  · rfl
  · exact hprintable (isPrintable_of_mem_value hm.value c hc)
  · rfl

/-- The end of the text closes the mapping. -/
theorem advance?_nil (ts : List Lexeme) :
    ∃ l, (Layout.atLineStart ts).advance? [] = some (l, none) ∧
      tokensOf l.tokens =
        if ts = [] then [.streamEnd] else tokensOf ts ++ [.blockEnd, .streamEnd] := by
  cases ts with
  | nil => exact ⟨_, rfl, rfl⟩
  | cons t ts =>
    let finished : Layout :=
      { tokens := ⟨.streamEnd, {}⟩ :: ⟨.blockEnd, {}⟩ :: t :: ts
        count := ts.length + 3
        isKeyAllowed := false }
    exact ⟨finished, rfl, by simp [finished]⟩

/-- The tokens of a flat file. A file without members has no mapping. -/
def fileTokens (ms : List FlatMember) : List Token :=
  if ms = [] then [.streamEnd]
  else .blockMappingStart :: ms.flatMap FlatMember.tokens ++ [.blockEnd, .streamEnd]

theorem token_lexemes {s : String} {ms : List FlatMember} (hms : ∀ m ∈ ms, m.IsPlain)
    (hs : s.toList = ms.flatMap FlatMember.chars) :
    (lexemes s).map (·.token) = fileTokens ms := by
  have hallowed : s.toList.all isAllowed = true := by
    rw [hs, List.all_flatMap]
    exact List.all_eq_true.2 fun m hm => List.all_eq_true.2 (isAllowed_of_mem_line (hms m hm))
  obtain ⟨ts, hnil, htokens, hrun⟩ := reads_members [] 0 0 hms
  obtain ⟨l, hend, hlast⟩ := advance?_nil ts
  have hlexemes : lexemes s = l.tokens.reverse := by
    rw [lexemes, marks?, if_pos hallowed, hs]
    exact hrun.lexemesFrom_eq hend
  rw [hlexemes, ← tokensOf, hlast, fileTokens]
  by_cases hempty : ms = []
  · rw [if_pos (hnil.2 ⟨rfl, hempty⟩), if_pos hempty]
  · have hts : ts ≠ [] := fun h => hempty (hnil.1 h).2
    rw [if_neg hts, if_neg hempty]
    rw [Layout.opened, if_neg hts] at htokens
    rw [htokens]
    rfl

end Yaml

end GeoPolicy
