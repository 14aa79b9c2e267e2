import GeoPolicy.Parity
import GeoPolicy.Proofs.Text.Numeral

/-!
# Lines as they are written

Every line of a script that takes effect ends with a word and begins with one of a few commands.
So no line end cuts it, trimming leaves it alone, and it counts for parity. A script is read back
as the lines it was written from.

## Main definitions

* `Script.spelled` — the characters of a text, ready for evaluation.
* `Script.Line.chars` — the characters of a line, with its open places apart.
* `Script.Line.WellFormed` — a line whose open places hold words, or texts without line ends.
* `Script.Line.isStatement` — the lines that count for parity.
-/

namespace GeoPolicy

namespace Script

open Text

/-! ## Spelling -/

theorem toList_eq {s : String} {chars : List Char} (h : s = String.ofList chars) :
    s.toList = chars :=
  h ▸ String.toList_ofList

/-- The characters of a text. They are found when the term is elaborated, so that evaluation need
not decode the text. -/
def spelled (s : String) {chars : List Char}
    (_ : s.toList = chars := by exact toList_eq rfl) : List Char :=
  chars

theorem spelled_eq (s : String) {chars : List Char} (h : s.toList = chars) :
    spelled s h = s.toList :=
  h.symm

/-- The characters of a text that depends on a family. -/
def spelledFor (name : AddressFamily → String) (family : AddressFamily) {v4 v6 : List Char}
    (_ : (name .v4).toList = v4 := by exact toList_eq rfl)
    (_ : (name .v6).toList = v6 := by exact toList_eq rfl) : List Char :=
  match family with
  | .v4 => v4
  | .v6 => v6

theorem spelledFor_eq (name : AddressFamily → String) (family : AddressFamily)
    {v4 v6 : List Char} (h4 : (name .v4).toList = v4) (h6 : (name .v6).toList = v6) :
    spelledFor name family h4 h6 = (name family).toList := by
  cases family
  · exact h4.symm
  · exact h6.symm

/-- The characters of an announcement. -/
def SectionStyle.chars : SectionStyle → List Char
  | sets => spelled "Region: "
  | rules => spelled "Rules for "
  | bulk => spelled "Bulk prefixes for "

theorem SectionStyle.chars_eq (style : SectionStyle) : style.chars = style.announcement.toList := by
  cases style
  all_goals exact String.toList_ofList.symm

/-- The characters of a statement that prints a message where a command is missing. -/
def whenMissingChars (command message : List Char) (isFatal : Bool) : List Char :=
  spelled "if ! command -v " ++ command ++ spelled " &> /dev/null; then echo \"" ++ message ++
    spelled "\"; " ++ (if isFatal then spelled "exit 1; " else []) ++ spelled "fi"

theorem toList_whenMissing (command message : String) (isFatal : Bool) :
    (whenMissing command message isFatal).toList =
      whenMissingChars command.toList message.toList isFatal := by
  unfold whenMissing whenMissingChars
  cases isFatal <;> simp only [String.toList_append, spelled_eq] <;> rfl

/-- The characters of a line. The texts in its open places stand by themselves. -/
def Line.chars : Line → List Char
  | interpreter => spelled "#!/bin/bash"
  | blank => []
  | comment text => spelled "# " ++ text.toList
  | heading style region => spelled "# " ++ style.chars ++ region.toList
  | requireCommand command =>
    whenMissingChars command.toList
      (spelled "Error: " ++ command.toList ++ spelled " not found.") true
  | warnWithoutIPv6 =>
    whenMissingChars (spelled "ip6tables")
      (spelled "Warning: ip6tables not found. IPv6 rules will be skipped.") false
  | requireIpset =>
    whenMissingChars (spelled "ipset")
      (spelled "Error: ipset utility not found. Required for optimized sets.") true
  | createSet family =>
    spelled "ipset create " ++ spelledFor setName family ++ spelled " hash:net family " ++
      spelledFor setFamily family ++ spelled " -!"
  | flushSet family => spelled "ipset flush " ++ spelledFor setName family
  | addToSet family cidr =>
    spelled "ipset add " ++ spelledFor setName family ++ spelled " " ++ cidr.toList
  | createChain family =>
    spelledFor tool family ++ spelled " -N " ++ spelled chain ++ spelled " 2>/dev/null || true"
  | flushChain family => spelledFor tool family ++ spelled " -F " ++ spelled chain
  | matchSet family verb =>
    spelledFor tool family ++ spelled " -A " ++ spelled chain ++
      spelled " -m set --match-set " ++ spelledFor setName family ++ spelled " src -j " ++
      verb.toList
  | matchRange family cidr verb =>
    spelledFor tool family ++ spelled " -A " ++ spelled chain ++ spelled " -s " ++ cidr.toList ++
      spelled " -j " ++ verb.toList
  | linkChain family =>
    spelledFor tool family ++ spelled " -C INPUT -j " ++ spelled chain ++
      spelled " 2>/dev/null || " ++ spelledFor tool family ++ spelled " -I INPUT 1 -j " ++
      spelled chain
  | addTable => spelled "nft add table " ++ spelled table ++ spelled " 2>/dev/null || true"
  | flushTable => spelled "nft flush table " ++ spelled table
  | addNftSet family =>
    spelled "nft add set " ++ spelled table ++ spelled " " ++ spelledFor nftSet family ++
      spelled " \x7b type " ++ spelledFor nftAddressType family ++
      spelled "; flags interval; \x7d"
  | addElements family cidrs =>
    spelled "nft add element " ++ spelled table ++ spelled " " ++ spelledFor nftSet family ++
      spelled " \x7b " ++ (spelled ", ").intercalate (cidrs.map String.toList) ++
      spelled " \x7d"
  | addInputChain =>
    spelled "nft add chain " ++ spelled table ++
      spelled " input \x7b type filter hook input priority 0; policy accept; \x7d"
  | addNftRule family verb =>
    spelled "nft add rule " ++ spelled table ++ spelled " input " ++
      spelledFor nftProtocol family ++ spelled " saddr @" ++ spelledFor nftSet family ++
      spelled " " ++ verb.toList
  | report regions engine =>
    spelled "echo \"[GeoGuard] Policy for " ++ Nat.toDigits 10 regions ++
      spelled " regions applied successfully using " ++ engine.toList ++ spelled ".\""

/-- A line as written has its characters. -/
theorem Line.toList_text (l : Line) : l.text.toList = l.chars := by
  cases l with
  | interpreter | blank => exact String.toList_ofList
  | requireCommand | warnWithoutIPv6 | requireIpset =>
    dsimp only [text, chars, toString]
    rw [toList_whenMissing]
    simp only [String.toList_append, spelled_eq]
  | report =>
    dsimp only [text, chars, toString]
    simp only [String.toList_append, Nat.toList_repr, spelled_eq]
  | _ =>
    dsimp only [text, chars]
    simp only [String.toList_append, String.toList_intercalate, SectionStyle.chars_eq, spelled_eq,
      spelledFor_eq]

/-! ## Lines with open places -/

/-- A line whose ranges, commands and verbs are words and whose other texts have no line ends.
A comment does not look like an announcement. -/
def Line.WellFormed : Line → Prop
  | comment text =>
    IsLine text.toList ∧ ∀ style : SectionStyle, ¬style.announcement.toList <+: text.toList
  | heading _ region => IsLine region.toList
  | requireCommand command => IsWord command.toList
  | addToSet _ cidr => IsWord cidr.toList
  | matchSet _ verb => IsWord verb.toList
  | matchRange _ cidr verb => IsWord cidr.toList ∧ IsWord verb.toList
  | addElements _ cidrs => ∀ cidr ∈ cidrs, IsItem cidr.toList
  | addNftRule _ verb => IsWord verb.toList
  | report _ engine => IsLine engine.toList
  | _ => True

/-- The lines that count for parity. -/
def Line.isStatement : Line → Bool
  | interpreter | blank | comment _ | heading _ _ | report _ _ => false
  | _ => true

/-! ## Commands -/

/-- The characters that may begin a command: no blanks, and none that begins a comment or the name
of a printing command. -/
def mayBegin (c : Char) : Bool :=
  !isBlank c && c ∉ ['#', 'e', 'p']

/-- A text on one line that begins like a command and ends with a word. -/
structure IsCommand (s : List Char) : Prop where
  first : s.head?.any mayBegin = true
  no_feed : '\n' ∉ s
  last : s.getLast?.any (!isBlank ·) = true

theorem IsCommand.append {start word : List Char} (hfirst : start.head?.any mayBegin = true)
    (hfeed : '\n' ∉ start) (hword : IsWord word) : IsCommand (start ++ word) where
  first := by
    cases start with
    | nil => exact absurd hfirst Bool.false_ne_true
    | cons c start => exact hfirst
  no_feed := by simp [hfeed, hword.isLine.not_mem]
  last := by
    rw [List.getLast?_append_of_ne_nil _ hword.ne_nil, Option.any_eq_true]
    obtain ⟨c, hc⟩ := Option.ne_none_iff_exists'.1 (mt List.getLast?_eq_none_iff.1 hword.ne_nil)
    exact ⟨c, hc, by simp [hword.not_blank c (List.mem_of_getLast? hc)]⟩

theorem IsCommand.isLine {s : List Char} (h : IsCommand s) : IsLine s where
  not_mem := h.no_feed
  getLast?_ne := by
    intro hlast
    exact absurd (hlast ▸ h.last) (by decide)

theorem IsCommand.trimChars_eq {s : List Char} (h : IsCommand s) : trimChars s = s := by
  refine trimChars_eq_self (fun c hc => ?_) fun c hc => ?_
  · have hfirst := hc ▸ h.first
    simp only [Option.any_some, mayBegin, Bool.and_eq_true, Bool.not_eq_true'] at hfirst
    exact hfirst.1
  · have hlast := hc ▸ h.last
    simpa using hlast

theorem IsCommand.isSignificant {s : List Char} (h : IsCommand s) :
    Parity.isSignificant s = true := by
  cases s with
  | nil => exact absurd h.first Bool.false_ne_true
  | cons c s =>
    have hfirst := h.first
    simp only [List.head?_cons, Option.any_some, mayBegin, Bool.and_eq_true, Bool.not_eq_true',
      decide_eq_true_eq, List.mem_cons, List.not_mem_nil, or_false, not_or] at hfirst
    obtain ⟨hc, hhash, hecho, hprint⟩ := hfirst
    rw [Parity.isSignificant, String.toList_ofList, String.toList_ofList]
    simp [firstWord, hc, hhash, hecho, hprint]

/-- A line that takes effect is a command. -/
theorem Line.isCommand_text (l : Line) (h : l.WellFormed) (hs : l.isStatement = true) :
    IsCommand l.text.toList := by
  rw [toList_text]
  cases l with
  | interpreter | blank | comment | heading | report => exact absurd hs Bool.false_ne_true
  | requireCommand command =>
    have hcommand := IsWord.isLine h |>.not_mem
    refine .append rfl ?_ (isWord_of_all rfl)
    simp [spelled, hcommand]
  | warnWithoutIPv6 | requireIpset | addTable | flushTable | addInputChain =>
    exact ⟨rfl, by decide, by decide⟩
  | createSet family | flushSet family | createChain family | flushChain family | linkChain family
  | addNftSet family =>
    cases family
    all_goals exact ⟨rfl, by decide, by decide⟩
  | addToSet family word | matchSet family word | addNftRule family word =>
    cases family
    all_goals exact .append rfl (by decide) h
  | matchRange family cidr verb =>
    have hcidr := h.1.isLine.not_mem
    cases family
    all_goals
      refine .append rfl ?_ h.2
      simp [spelled, spelledFor, hcidr]
  | addElements family cidrs =>
    have hcidrs : '\n' ∉ List.intercalate [',', ' '] (cidrs.map String.toList) := by
      refine not_mem_intercalate _ (by decide) ?_
      rw [List.forall_mem_map]
      exact fun cidr hcidr => (h cidr hcidr).isLine.not_mem
    cases family
    all_goals
      refine ⟨rfl, by simp [chars, spelled, spelledFor, hcidrs], ?_⟩
      dsimp only [chars]
      rw [List.getLast?_append_of_ne_nil _ (by decide)]
      rfl

/-! ## All lines -/

theorem Line.isLine_text (l : Line) (h : l.WellFormed) : IsLine l.text.toList := by
  by_cases hs : l.isStatement = true
  · exact (l.isCommand_text h hs).isLine
  have hhash : IsLine ['#', ' '] := ⟨by decide, by decide⟩
  rw [toList_text]
  cases l with
  | interpreter => exact ⟨by decide, by decide⟩
  | blank => exact .nil
  | comment text => exact hhash.append h.1
  | heading style region =>
    refine (hhash.append ?_).append h
    cases style
    all_goals exact ⟨by decide, by decide⟩
  | report regions engine =>
    have hregions : IsWord (Nat.toDigits 10 regions) :=
      (isNumeral_toDigits regions).isWord
    refine .append (.append (.append (.append ?_ hregions.isLine) ?_) h) ?_
    all_goals exact ⟨by decide, by decide⟩
  | _ => exact absurd rfl hs

theorem isSignificant_trimChars_comment (s : List Char) :
    Parity.isSignificant (trimChars ('#' :: s)) = false := by
  simp [Parity.isSignificant, head?_trimChars s (show isBlank '#' = false from rfl)]

theorem isSignificant_of_firstWord_eq_echo {s : List Char}
    (h : firstWord s = ['e', 'c', 'h', 'o']) : Parity.isSignificant s = false := by
  rw [Parity.isSignificant, String.toList_ofList, h]
  simp

/-- For parity a line counts exactly if it is a statement. -/
theorem Line.isSignificant_text (l : Line) (h : l.WellFormed) :
    Parity.isSignificant (trimChars l.text.toList) = l.isStatement := by
  by_cases hs : l.isStatement = true
  · have hcommand := l.isCommand_text h hs
    rw [hcommand.trimChars_eq, hcommand.isSignificant, hs]
  rw [Bool.not_eq_true] at hs
  rw [hs, toList_text]
  cases l with
  | interpreter | comment | heading => exact isSignificant_trimChars_comment _
  | blank => rfl
  | report regions engine =>
    have hecho : IsWord ['e', 'c', 'h', 'o'] := isWord_of_all rfl
    rw [chars, trimChars_append_eq_self rfl rfl]
    exact isSignificant_of_firstWord_eq_echo (firstWord_word_append hecho rfl)
  | _ => simp [isStatement] at hs

/-- A script is read back as the lines it was written from. -/
theorem lines_text (ls : List Line) (h : ∀ l ∈ ls, l.WellFormed) :
    lines (text ls).toList = ls.map (·.text.toList) := by
  have hlines : ∀ s ∈ ls.map (·.text.toList), IsLine s := by
    rw [List.forall_mem_map]
    exact fun l hl => l.isLine_text (h l hl)
  rw [text, textOf, String.toList_join, ← lines_flatMap _ hlines]
  simp [List.flatMap_map, Function.comp_def]

/-- What parity compares is the statements of a script, as they are written. -/
theorem significantLines_text (ls : List Line) (h : ∀ l ∈ ls, l.WellFormed) :
    Parity.significantLines (text ls) = (ls.filter Line.isStatement).map (·.text.toList) := by
  rw [Parity.significantLines, lines_text ls h, List.map_map, List.filter_map]
  have hfilter : ls.filter (Parity.isSignificant ∘ trimChars ∘ (·.text.toList)) =
      ls.filter Line.isStatement :=
    List.filter_congr fun l hl => l.isSignificant_text (h l hl)
  rw [hfilter]
  refine List.map_congr_left fun l hl => ?_
  have hmem := List.mem_filter.1 hl
  exact (l.isCommand_text (h l hmem.1) hmem.2).trimChars_eq

end Script

end GeoPolicy
