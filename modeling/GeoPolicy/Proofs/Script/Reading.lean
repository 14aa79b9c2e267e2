import GeoPolicy.Proofs.Script.LineText
import Mathlib.Data.List.Basic

/-!
# Reading scripts

A script is read back from its text alone, line by line: announcements begin the section of a
region, and six kinds of statements install ranges. Nothing here refers to how scripts are made.

## Main definitions

* `Script.Notice`, `Script.readNotice?` — what a line tells about installed ranges.
* `Script.Section`, `Script.readSections?` — the ranges that a script installs, by sections.
-/

namespace GeoPolicy

namespace Script

open Text

/-! ## Notices -/

/-- What a line tells about installed ranges. -/
inductive Notice where
  /-- The section of a region begins. -/
  | heading (region : String)
  /-- Ranges of a family are installed, into a set, by a rule of their own or in bulk. -/
  | ranges (style : SectionStyle) (family : AddressFamily) (cidrs : List String)
  deriving DecidableEq, Repr

/-- The first of the given beginnings that a line has, and the rest of the line. -/
def readStart? {β : Type} (starts : List (String × β)) (line : List Char) :
    Option (β × List Char) :=
  starts.findSome? fun start => (line.dropPrefix? start.1.toList).map (start.2, ·)

/-- The beginnings of announcements. -/
def headingStarts : List (String × SectionStyle) :=
  [("# Region: ", .sets), ("# Rules for ", .rules), ("# Bulk prefixes for ", .bulk)]

/-- The beginnings of statements that install ranges, with the family they are for. -/
def rangeStarts : List (String × SectionStyle × AddressFamily) :=
  [("ipset add geoguard_v4 ", .sets, .v4),
    ("ipset add geoguard_v6 ", .sets, .v6),
    ("iptables -A GEOGUARD -s ", .rules, .v4),
    ("ip6tables -A GEOGUARD -s ", .rules, .v6),
    ("nft add element inet geoguard blocklist_v4 \x7b ", .bulk, .v4),
    ("nft add element inet geoguard blocklist_v6 \x7b ", .bulk, .v6)]

/-- The announcement on a line. The region is the rest of the line. -/
def readHeading? (line : List Char) : Option Notice :=
  (readStart? headingStarts line).map fun (_, region) => .heading (String.ofList region)

/-- The operands in the rest of a statement: one word, or the items before the closing brace. -/
def readOperands? (style : SectionStyle) (rest : List Char) : Option (List (List Char)) :=
  match style with
  | .sets | .rules => some [firstWord rest]
  | .bulk => (rest.dropSuffix? [' ', '\x7d']).map items

/-- The ranges that a line installs. -/
def readRanges? (line : List Char) : Option Notice := do
  let ((style, family), rest) ← readStart? rangeStarts line
  let cidrs ← readOperands? style rest
  return .ranges style family (cidrs.map String.ofList)

/-- What a line tells about installed ranges. -/
def readNotice? (line : List Char) : Option Notice :=
  (readHeading? line).or (readRanges? line)

/-! ## Sections -/

/-- The ranges of both families that a part of a script installs, in order. -/
structure Ranges where
  v4 : List String := []
  v6 : List String := []
  deriving DecidableEq, Repr

/-- The ranges of a family. -/
def Ranges.of (r : Ranges) : AddressFamily → List String
  | .v4 => r.v4
  | .v6 => r.v6

/-- Ranges of a family before other ones. -/
def Ranges.cons (r : Ranges) (cidrs : List String) : AddressFamily → Ranges
  | .v4 => { r with v4 := cidrs ++ r.v4 }
  | .v6 => { r with v6 := cidrs ++ r.v6 }

/-- The section of a region. -/
structure Section extends Ranges where
  region : String
  deriving DecidableEq, Repr

/-- Ranges belong to the announcement before them. The first component holds the ranges before
the first announcement. -/
def collect : List Notice → Ranges × List Section
  | [] => ({}, [])
  | .heading region :: rest =>
    let (own, sections) := collect rest
    ({}, { own with region } :: sections)
  | .ranges _ family cidrs :: rest =>
    let (own, sections) := collect rest
    (own.cons cidrs family, sections)

/-- What the lines of a script tell, in order. -/
def notices (script : String) : List Notice :=
  (lines script.toList).filterMap readNotice?

/-- The sections of a script. There are none to speak of if a range stands before the first
announcement. -/
def readSections? (script : String) : Option (List Section) :=
  let (stray, sections) := collect (notices script)
  if stray = {} then some sections else none

/-! ## Beginnings -/

/-- A line that has none of the given beginnings. -/
def Misses {β : Type} (starts : List (String × β)) (line : List Char) : Prop :=
  ∀ start ∈ starts, start.1.toList.isPrefixOf line = false

/-- The characters of beginnings tell which of them a line has. -/
theorem misses_of_chars {β : Type} {starts : List (String × β)} {chars : List (List Char)}
    (hchars : starts.map (·.1.toList) = chars) {line : List Char}
    (h : chars.all (!·.isPrefixOf line) = true) : Misses starts line := by
  subst hchars
  intro start hstart
  have hmiss := List.all_eq_true.1 h _ (List.mem_map_of_mem hstart)
  simpa using hmiss

theorem dropPrefix?_append (s t : List Char) : (s ++ t).dropPrefix? s = some t :=
  List.dropPrefix?_eq_some_iff.2 ⟨s, rfl, beq_self_eq_true s⟩

theorem dropPrefix?_of_isPrefixOf_eq_false {s t : List Char} (h : s.isPrefixOf t = false) :
    t.dropPrefix? s = none := by
  rw [Option.eq_none_iff_forall_ne_some]
  intro rest hrest
  obtain ⟨s', rfl, hs⟩ := List.dropPrefix?_eq_some_iff.1 hrest
  rw [eq_of_beq hs] at h
  have hprefix := List.isPrefixOf_iff_prefix.2 (List.prefix_append s rest)
  exact absurd (h.symm.trans hprefix) Bool.false_ne_true

theorem dropSuffix?_append (s t : List Char) : (s ++ t).dropSuffix? t = some s :=
  List.dropSuffix?_eq_some_iff.2 ⟨t, rfl, beq_self_eq_true t⟩

theorem readStart?_of_misses {β : Type} {starts : List (String × β)} {line : List Char}
    (h : Misses starts line) : readStart? starts line = none := by
  rw [readStart?, List.findSome?_eq_none_iff]
  intro start hstart
  rw [dropPrefix?_of_isPrefixOf_eq_false (h start hstart), Option.map_none]

/-- A beginning is found if no earlier one is there as well. -/
theorem readStart?_append {β : Type} (before after : List (String × β)) (start : String) (b : β)
    (rest : List Char) (h : Misses before (start.toList ++ rest)) :
    readStart? (before ++ (start, b) :: after) (start.toList ++ rest) = some (b, rest) := by
  have hbefore := readStart?_of_misses h
  unfold readStart? at hbefore ⊢
  rw [List.findSome?_append, hbefore, Option.none_or, List.findSome?_cons, dropPrefix?_append]
  rfl

/-- The beginning at a position is found by its characters. -/
theorem readStart?_of_chars {β : Type} {starts : List (String × β)} {chars : List (List Char)}
    (hchars : starts.map (·.1.toList) = chars) (n : Nat) {start : String} {b : β}
    {begin line rest : List Char} (hstart : starts[n]? = some (start, b))
    (hbegin : chars[n]? = some begin) (hline : line = begin ++ rest)
    (hbefore : (chars.take n).all (!·.isPrefixOf line) = true) :
    readStart? starts line = some (b, rest) := by
  obtain ⟨hn, hget⟩ := List.getElem?_eq_some_iff.1 hstart
  have hsplit : starts = starts.take n ++ (start, b) :: starts.drop (n + 1) := by
    rw [← hget, List.getElem_cons_drop, List.take_append_drop]
  have hsame : begin = start.toList := by
    rw [← hchars, List.getElem?_map, hstart] at hbegin
    exact (Option.some.inj hbegin).symm
  have hmisses : Misses (starts.take n) line :=
    misses_of_chars (by rw [List.map_take, hchars]) hbefore
  rw [hline, hsame] at hmisses ⊢
  rw [hsplit]
  exact readStart?_append _ _ start b rest hmisses

/-! ## What written lines tell -/

/-- What a line tells about installed ranges, told from the line itself. -/
def Line.notice? : Line → Option Notice
  | heading _ region => some (.heading region)
  | addToSet family cidr => some (.ranges .sets family [cidr])
  | matchRange family cidr _ => some (.ranges .rules family [cidr])
  | addElements family cidrs => some (.ranges .bulk family cidrs)
  | _ => none

/-- The characters of the beginnings of announcements. -/
def headingStartChars : List (List Char) :=
  [spelled "# Region: ", spelled "# Rules for ", spelled "# Bulk prefixes for "]

theorem map_headingStarts : headingStarts.map (·.1.toList) = headingStartChars := by
  simp only [headingStarts, headingStartChars, List.map_cons, List.map_nil, spelled_eq]

/-- The characters of the beginnings of statements that install ranges. -/
def rangeStartChars : List (List Char) :=
  [spelled "ipset add geoguard_v4 ", spelled "ipset add geoguard_v6 ",
    spelled "iptables -A GEOGUARD -s ", spelled "ip6tables -A GEOGUARD -s ",
    spelled "nft add element inet geoguard blocklist_v4 \x7b ",
    spelled "nft add element inet geoguard blocklist_v6 \x7b "]

theorem map_rangeStarts : rangeStarts.map (·.1.toList) = rangeStartChars := by
  simp only [rangeStarts, rangeStartChars, List.map_cons, List.map_nil, spelled_eq]

/-- Announcements are comments. -/
theorem misses_headingStarts {line : List Char} (h : line.head?.all (· ≠ '#') = true) :
    Misses headingStarts line := by
  refine misses_of_chars map_headingStarts ?_
  cases line with
  | nil => rfl
  | cons c rest =>
    have hc : '#' ≠ c := Ne.symm (by simpa using h)
    simp [headingStartChars, spelled, List.isPrefixOf, hc]

theorem isPrefixOf_eq_false {s t : List Char} (h : ¬s <+: t) : s.isPrefixOf t = false := by
  rwa [← Bool.not_eq_true, List.isPrefixOf_iff_prefix]

/-- A comment is an announcement only if it has the words of one. -/
theorem misses_headingStarts_comment {text : List Char}
    (h : ∀ style : SectionStyle, ¬style.announcement.toList <+: text) :
    Misses headingStarts (['#', ' '] ++ text) := by
  have hmiss : ∀ style : SectionStyle, style.chars.isPrefixOf text = false := fun style =>
    isPrefixOf_eq_false (style.chars_eq ▸ h style)
  refine misses_of_chars map_headingStarts ?_
  show (!SectionStyle.sets.chars.isPrefixOf text && (!SectionStyle.rules.chars.isPrefixOf text &&
    (!SectionStyle.bulk.chars.isPrefixOf text && true))) = true
  rw [hmiss, hmiss, hmiss]
  rfl

theorem readNotice?_of_misses {line : List Char} (hheadings : Misses headingStarts line)
    (hranges : Misses rangeStarts line) : readNotice? line = none := by
  rw [readNotice?, readHeading?, readRanges?, readStart?_of_misses hheadings,
    readStart?_of_misses hranges]
  rfl

/-- An announcement is found by its beginning, if no earlier one is there as well. -/
theorem readNotice?_of_heading (n : Nat) {start : String} {style : SectionStyle}
    {begin line : List Char} {region : String} (hstart : headingStarts[n]? = some (start, style))
    (hbegin : headingStartChars[n]? = some begin) (hline : line = begin ++ region.toList)
    (hbefore : (headingStartChars.take n).all (!·.isPrefixOf line) = true) :
    readNotice? line = some (.heading region) := by
  rw [readNotice?, readHeading?,
    readStart?_of_chars map_headingStarts n hstart hbegin hline hbefore]
  simp

/-- A statement is found by its beginning, if no earlier one is there as well. -/
theorem readNotice?_of_ranges (n : Nat) {start : String} {style : SectionStyle}
    {family : AddressFamily} {begin line rest : List Char} {cidrs : List String}
    (hstart : rangeStarts[n]? = some (start, style, family))
    (hbegin : rangeStartChars[n]? = some begin) (hline : line = begin ++ rest)
    (hhead : line.head?.all (· ≠ '#') = true)
    (hbefore : (rangeStartChars.take n).all (!·.isPrefixOf line) = true)
    (hrest : readOperands? style rest = some (cidrs.map String.toList)) :
    readNotice? line = some (.ranges style family cidrs) := by
  rw [readNotice?, readHeading?, readRanges?, readStart?_of_misses (misses_headingStarts hhead),
    readStart?_of_chars map_rangeStarts n hstart hbegin hline hbefore]
  simp [hrest]

theorem readOperands?_word (style : SectionStyle) {cidr : String} (rest : List Char)
    (hstyle : style ≠ .bulk) (h : IsWord cidr.toList) (hrest : rest.head?.all isBlank = true) :
    readOperands? style (cidr.toList ++ rest) = some ([cidr].map String.toList) := by
  cases style with
  | bulk => exact absurd rfl hstyle
  | sets | rules =>
    show some [firstWord (cidr.toList ++ rest)] = _
    rw [firstWord_word_append h hrest]
    rfl

theorem readOperands?_items (cidrs : List String) (h : ∀ cidr ∈ cidrs, IsItem cidr.toList) :
    readOperands? .bulk ([',', ' '].intercalate (cidrs.map String.toList) ++ [' ', '\x7d']) =
      some (cidrs.map String.toList) := by
  rw [readOperands?, dropSuffix?_append, Option.map_some,
    items_intercalate _ (List.forall_mem_map.2 h)]

theorem readNotice?_heading (style : SectionStyle) (region : String) :
    readNotice? (Line.heading style region).text.toList = some (.heading region) := by
  rw [Line.toList_text]
  cases style with
  | sets => exact readNotice?_of_heading 0 rfl rfl rfl rfl
  | rules => exact readNotice?_of_heading 1 rfl rfl rfl rfl
  | bulk => exact readNotice?_of_heading 2 rfl rfl rfl rfl

theorem readNotice?_addToSet (family : AddressFamily) {cidr : String} (h : IsWord cidr.toList) :
    readNotice? (Line.addToSet family cidr).text.toList = some (.ranges .sets family [cidr]) := by
  have hrest := readOperands?_word .sets [] SectionStyle.noConfusion h rfl
  rw [List.append_nil] at hrest
  rw [Line.toList_text]
  cases family with
  | v4 => exact readNotice?_of_ranges 0 rfl rfl rfl rfl rfl hrest
  | v6 => exact readNotice?_of_ranges 1 rfl rfl rfl rfl rfl hrest

theorem readNotice?_matchRange (family : AddressFamily) {cidr verb : String}
    (h : IsWord cidr.toList) :
    readNotice? (Line.matchRange family cidr verb).text.toList =
      some (.ranges .rules family [cidr]) := by
  have hrest := readOperands?_word .rules ([' ', '-', 'j', ' '] ++ verb.toList)
    SectionStyle.noConfusion h rfl
  rw [Line.toList_text]
  cases family with
  | v4 =>
    refine readNotice?_of_ranges 2 rfl rfl ?_ rfl rfl hrest
    simp [Line.chars, spelled, spelledFor]
  | v6 =>
    refine readNotice?_of_ranges 3 rfl rfl ?_ rfl rfl hrest
    simp [Line.chars, spelled, spelledFor]

theorem readNotice?_addElements (family : AddressFamily) {cidrs : List String}
    (h : ∀ cidr ∈ cidrs, IsItem cidr.toList) :
    readNotice? (Line.addElements family cidrs).text.toList =
      some (.ranges .bulk family cidrs) := by
  have hrest := readOperands?_items cidrs h
  rw [Line.toList_text]
  cases family with
  | v4 =>
    refine readNotice?_of_ranges 4 rfl rfl ?_ rfl rfl hrest
    simp [Line.chars, spelled, spelledFor]
  | v6 =>
    refine readNotice?_of_ranges 5 rfl rfl ?_ rfl rfl hrest
    simp [Line.chars, spelled, spelledFor]

/-- The reader finds in a written line what the line was written for. -/
theorem readNotice?_text (l : Line) (h : l.WellFormed) : readNotice? l.text.toList = l.notice? := by
  cases l with
  | heading style region => exact readNotice?_heading style region
  | addToSet family cidr => exact readNotice?_addToSet family h
  | matchRange family cidr verb => exact readNotice?_matchRange family h.1
  | addElements family cidrs => exact readNotice?_addElements family h
  | comment text =>
    rw [Line.toList_text]
    exact readNotice?_of_misses (misses_headingStarts_comment h.2)
      (misses_of_chars map_rangeStarts rfl)
  | interpreter | blank | requireCommand | warnWithoutIPv6 | requireIpset | addTable | flushTable
  | addInputChain | report =>
    rw [Line.toList_text]
    exact readNotice?_of_misses (misses_of_chars map_headingStarts rfl)
      (misses_of_chars map_rangeStarts rfl)
  | createSet family | flushSet family | createChain family | flushChain family | linkChain family
  | addNftSet family | matchSet family verb | addNftRule family verb =>
    rw [Line.toList_text]
    cases family
    all_goals
      exact readNotice?_of_misses (misses_headingStarts rfl) (misses_of_chars map_rangeStarts rfl)

/-! ## Whole texts -/

theorem filterMap_readNotice?_text (ls : List Line) (h : ∀ l ∈ ls, l.WellFormed) :
    (ls.map (·.text.toList)).filterMap readNotice? = ls.filterMap Line.notice? := by
  rw [List.filterMap_map]
  exact List.filterMap_congr fun l hl => readNotice?_text l (h l hl)

theorem notices_text (ls : List Line) (h : ∀ l ∈ ls, l.WellFormed) :
    notices (text ls) = ls.filterMap Line.notice? := by
  rw [notices, lines_text ls h, filterMap_readNotice?_text ls h]

end Script

end GeoPolicy
