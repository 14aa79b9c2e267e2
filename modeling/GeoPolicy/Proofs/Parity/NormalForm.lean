import GeoPolicy.Parity
import GeoPolicy.Proofs.Text.Words

/-!
# The normal form of a script

A script takes effect through the statements among its lines. Here a line is what stands between
two line feeds, and a statement is a line that, without the blanks around it, is not empty, is no
comment, and does not begin with the name of a printing command. The normal form of a script tells
its statements and nothing else, so scripts are on a par exactly if they have the same statements,
and normal forms can be made piece by piece.

## Main definitions

* `Parity.IsStatement`, `Parity.statement?` — the statements, and the one that a line holds.
* `Parity.statements` — the statements of a script.
* `Parity.Edit` — a script of which some lines are replaced.
-/

namespace GeoPolicy

open Text

namespace Parity

/-! ## Statements -/

/-- The commands that only print something. -/
def printers : List String :=
  ["echo", "printf"]

/-- A line without outer blanks that takes effect. -/
structure IsStatement (line : List Char) : Prop where
  ne_nil : line ≠ []
  not_comment : ¬['#'] <+: line
  not_output : ∀ command ∈ printers, (words line).head? ≠ some command.toList

theorem firstWord_eq_iff {line w : List Char} (hw : w ≠ []) :
    firstWord line = w ↔ (words line).head? = some w := by
  rw [firstWord_eq_headD_words]
  cases words line with
  | nil => simp [hw.symm]
  | cons v more => simp

theorem isSignificant_iff (line : List Char) : isSignificant line = true ↔ IsStatement line := by
  have hcomment : line.head? = some '#' ↔ ['#'] <+: line := by
    cases line with
    | nil => simp
    | cons c line => simp [List.cons_prefix_cons, eq_comm]
  have hecho : firstWord line = "echo".toList ↔ (words line).head? = some "echo".toList :=
    firstWord_eq_iff (by decide)
  have hprintf : firstWord line = "printf".toList ↔ (words line).head? = some "printf".toList :=
    firstWord_eq_iff (by decide)
  simp only [isSignificant, Bool.and_eq_true, bne_iff_ne, Ne, hcomment, hecho, hprintf]
  constructor
  · rintro ⟨⟨⟨hne, hhash⟩, hecho⟩, hprintf⟩
    exact ⟨hne, hhash, List.forall_mem_cons.2 ⟨hecho, List.forall_mem_singleton.2 hprintf⟩⟩
  · rintro ⟨hne, hhash, houtput⟩
    simp only [printers, List.forall_mem_cons] at houtput
    exact ⟨⟨⟨hne, hhash⟩, houtput.1⟩, houtput.2.1⟩

instance : DecidablePred IsStatement := fun line =>
  decidable_of_iff _ (isSignificant_iff line)

/-- The statement that a line holds, if there is one: the line without its outer blanks. -/
def statement? (line : List Char) : Option (List Char) :=
  if IsStatement (trimChars line) then some (trimChars line) else none

/-- The statements of a script, line by line. -/
def statements (script : String) : List (List Char) :=
  (script.toList.splitOn '\n').filterMap statement?

/-- Blanks around a line, and so a carriage return at its end, have no say. -/
theorem statement?_append_append {before after : List Char}
    (hbefore : ∀ c ∈ before, isBlank c = true) (line : List Char)
    (hafter : ∀ c ∈ after, isBlank c = true) :
    statement? (before ++ line ++ after) = statement? line := by
  rw [statement?, statement?, trimChars_append_append hbefore line hafter]

theorem statement?_nil : statement? [] = none :=
  if_neg fun h => h.ne_nil rfl

theorem statement?_eq_some_iff {line s : List Char} :
    statement? line = some s ↔ IsStatement s ∧ trimChars line = s := by
  rw [statement?]
  constructor
  · intro h
    split at h
    · next hstatement => exact ⟨Option.some.inj h ▸ hstatement, Option.some.inj h⟩
    · exact absurd h (by simp)
  · rintro ⟨hstatement, rfl⟩
    exact if_pos hstatement

/-! ## Statements of a script -/

theorem filter_isSignificant_map_trimChars (ls : List (List Char)) :
    (ls.map trimChars).filter isSignificant = ls.filterMap statement? := by
  induction ls with
  | nil => rfl
  | cons line ls ih =>
    rw [List.map_cons, List.filterMap_cons, statement?, ← ih]
    by_cases h : IsStatement (trimChars line)
    · rw [if_pos h, List.filter_cons_of_pos ((isSignificant_iff _).2 h)]
    · rw [if_neg h, List.filter_cons_of_neg (mt (isSignificant_iff _).1 h)]

/-- A carriage return makes no difference between a line and its piece of the text. -/
theorem filterMap_statement?_pieces {ls pieces : List (List Char)}
    (h : List.Forall₂ (fun line piece => piece = line ∨ piece = line ++ ['\r']) ls pieces) :
    pieces.filterMap statement? = ls.filterMap statement? := by
  have hreturn : ∀ c ∈ ['\r'], isBlank c = true := List.forall_mem_singleton.2 rfl
  induction h with
  | nil => rfl
  | @cons line piece ls pieces hpiece _ ih =>
    have hline : statement? piece = statement? line := by
      rcases hpiece with rfl | rfl
      · rfl
      · exact statement?_append_append (List.forall_mem_nil _) line hreturn
    rw [List.filterMap_cons, List.filterMap_cons, hline, ih]

/-- The lines that count are the statements. -/
theorem significantLines_eq_statements (script : String) :
    significantLines script = statements script := by
  obtain ⟨pieces, last, hsplit, hlast, hlines⟩ := exists_splitOn_eq script.toList
  have hnone : last.filterMap statement? = [] := by
    rcases hlast with rfl | rfl
    · rfl
    · simp [statement?_nil]
  rw [significantLines, filter_isSignificant_map_trimChars, statements, hsplit,
    List.filterMap_append, hnone, List.append_nil, filterMap_statement?_pieces hlines]

private theorem toList_feed : "\n".toList = ['\n'] := rfl

theorem statements_append (a b : String) :
    statements (a ++ "\n" ++ b) = statements a ++ statements b := by
  rw [statements, String.toList_append, String.toList_append, toList_feed, List.append_assoc,
    List.singleton_append, List.splitOn_append_cons_self, List.filterMap_append]
  rfl

theorem statements_empty : statements "" = [] := by
  simp [statements, statement?_nil]

/-- Texts in a row have their statements in a row. -/
theorem statements_intercalate (texts : List String) :
    statements ("\n".intercalate texts) = texts.flatMap statements := by
  induction texts with
  | nil => exact statements_empty
  | cons text texts ih =>
    cases texts with
    | nil => simp
    | cons next texts =>
      rw [String.intercalate_cons_cons, statements_append, ih]
      rfl

/-! ## Normal forms -/

theorem isLine_of_mem_significantLines {script : String} {s : List Char}
    (h : s ∈ significantLines script) : IsLine s ∧ s ≠ [] := by
  obtain ⟨hs, hsignificant⟩ := List.mem_filter.1 h
  obtain ⟨line, hline, rfl⟩ := List.mem_map.1 hs
  exact ⟨isLine_trimChars (not_mem_of_mem_lines _ line hline),
    ((isSignificant_iff _).1 hsignificant).ne_nil⟩

/-- The normal form of a script tells its significant lines. -/
theorem lines_normalize (script : String) :
    lines (normalize script).toList = significantLines script := by
  rw [normalize, String.toList_ofList]
  exact lines_intercalate _ fun s => isLine_of_mem_significantLines

theorem normalize_eq_empty_iff (script : String) :
    normalize script = "" ↔ statements script = [] := by
  rw [← significantLines_eq_statements]
  constructor
  · intro h
    rw [← lines_normalize, h]
    rfl
  · intro h
    rw [normalize, h]
    rfl

end Parity

/-- Scripts are on a par exactly if they have the same significant lines. -/
theorem ParityReport.isMatch_compare_iff (a b : String) :
    (compare a b).isMatch = true ↔ Parity.significantLines a = Parity.significantLines b := by
  rw [isMatch, compare, beq_iff_eq]
  dsimp only
  constructor
  · intro h
    rw [← Parity.lines_normalize a, h, Parity.lines_normalize]
  · intro h
    rw [Parity.normalize, Parity.normalize, h]

theorem ParityReport.isMatch_compare_iff_statements {a b : String} :
    (compare a b).isMatch = true ↔ Parity.statements a = Parity.statements b := by
  rw [isMatch_compare_iff, Parity.significantLines_eq_statements,
    Parity.significantLines_eq_statements]

namespace Parity

/-! ## Edits -/

/-- An edit of a script: some lines in a row are replaced by others, or by none. -/
structure Edit (script : String) where
  before : List (List Char)
  removed : List (List Char)
  after : List (List Char)
  splitOn_eq : script.toList.splitOn '\n' = before ++ removed ++ after
  added : List (List Char)
  no_feed : ∀ line ∈ added, '\n' ∉ line

namespace Edit

variable {script : String}

/-- The script after an edit. -/
def result (e : Edit script) : String :=
  String.ofList (['\n'].intercalate (e.before ++ e.added ++ e.after))

/-- Whether the new lines hold the same statements as the old ones. -/
def IsSilent (e : Edit script) : Prop :=
  e.added.filterMap statement? = e.removed.filterMap statement?

instance (e : Edit script) : Decidable e.IsSilent :=
  inferInstanceAs (Decidable (_ = _))

theorem statements_script (e : Edit script) :
    statements script = e.before.filterMap statement? ++ e.removed.filterMap statement? ++
      e.after.filterMap statement? := by
  rw [statements, e.splitOn_eq, List.filterMap_append, List.filterMap_append]

theorem statements_result (e : Edit script) :
    statements e.result = e.before.filterMap statement? ++ e.added.filterMap statement? ++
      e.after.filterMap statement? := by
  have hfeed : ∀ line ∈ e.before ++ e.added ++ e.after, '\n' ∉ line := by
    have hpieces := not_mem_of_mem_splitOn '\n' script.toList
    rw [e.splitOn_eq, List.forall_mem_append, List.forall_mem_append] at hpieces
    rw [List.forall_mem_append, List.forall_mem_append]
    exact ⟨⟨hpieces.1.1, e.no_feed⟩, hpieces.2⟩
  rw [statements, result, String.toList_ofList]
  cases hlines : e.before ++ e.added ++ e.after with
  | nil =>
    -- Nothing is left, which is cut into one empty line.
    rw [List.append_eq_nil_iff, List.append_eq_nil_iff] at hlines
    simp [hlines.1.1, hlines.1.2, hlines.2, statement?_nil]
  | cons line ls =>
    rw [← hlines, List.splitOn_intercalate '\n' hfeed (by simp [hlines]),
      List.filterMap_append, List.filterMap_append]

/-- An edit leaves the statements of a script alone exactly if it is silent. -/
theorem statements_result_eq_iff (e : Edit script) :
    statements e.result = statements script ↔ e.IsSilent := by
  rw [statements_result, statements_script, List.append_cancel_right_eq,
    List.append_cancel_left_eq, IsSilent]

end Edit

/-- Parity compares exactly the statements. Two scripts are on a par if and only if they have the
same statements in the same order, which are the lines of the normal form. So an edit that leaves
the statements alone, such as one that only changes the blanks around lines, never changes an
outcome, and any other edit ends every parity. -/
theorem isMatch_iff_statements_eq :
    (∀ a b : String, (ParityReport.compare a b).isMatch = true ↔ statements a = statements b) ∧
    (∀ a : String, lines (normalize a).toList = statements a) ∧
    (∀ before line after : List Char, (∀ c ∈ before, isBlank c = true) →
      (∀ c ∈ after, isBlank c = true) → statement? (before ++ line ++ after) = statement? line) ∧
    ∀ (a : String) (e : Edit a) (b : String),
      (e.IsSilent →
        (ParityReport.compare e.result b).isMatch = (ParityReport.compare a b).isMatch ∧
        (ParityReport.compare b e.result).isMatch = (ParityReport.compare b a).isMatch) ∧
      (¬e.IsSilent →
        ((ParityReport.compare a b).isMatch = true →
          (ParityReport.compare e.result b).isMatch = false) ∧
        ((ParityReport.compare b a).isMatch = true →
          (ParityReport.compare b e.result).isMatch = false)) := by
  have hmatch : ∀ a b : String,
      (ParityReport.compare a b).isMatch = true ↔ statements a = statements b := by
    intro a b
    rw [ParityReport.isMatch_compare_iff, significantLines_eq_statements,
      significantLines_eq_statements]
  refine ⟨hmatch, fun a => ?_, fun before line after hbefore hafter =>
    statement?_append_append hbefore line hafter, fun a e b => ⟨fun h => ?_, fun h => ?_⟩⟩
  · rw [lines_normalize, significantLines_eq_statements]
  · have hsame : statements e.result = statements a := e.statements_result_eq_iff.2 h
    constructor
    · rw [Bool.eq_iff_iff, hmatch, hmatch, hsame]
    · rw [Bool.eq_iff_iff, hmatch, hmatch, hsame]
  · have hdiffer : statements e.result ≠ statements a := mt e.statements_result_eq_iff.1 h
    simp only [Bool.eq_false_iff, Ne, hmatch]
    exact ⟨fun hab hb => hdiffer (hb.trans hab.symm), fun hba hb => hdiffer (hb.symm.trans hba)⟩

/-- A comment, indentation and carriage returns make no difference; a line that is repeated does. -/
theorem isMatch_iff_statements_eq_repeated :
    (ParityReport.compare "# made by hand\r\n  nft list\r\n" "nft list").isMatch = true ∧
      (ParityReport.compare "nft list\nnft list" "nft list").isMatch = false := by
  obtain ⟨hmatch, -, -, hedit⟩ := isMatch_iff_statements_eq
  let silent : Edit "nft list" :=
    ⟨[], ["nft list".toList], [], rfl,
      ["# made by hand\r".toList, "  nft list\r".toList, []], by decide⟩
  let twice : Edit "nft list" :=
    ⟨[], ["nft list".toList], [], rfl, ["nft list".toList, "nft list".toList], by decide⟩
  have hsame : (ParityReport.compare "nft list" "nft list").isMatch = true := (hmatch _ _).2 rfl
  have hsilent : silent.IsSilent := by decide +kernel
  have htwice : ¬twice.IsSilent := by decide +kernel
  exact ⟨((hedit _ silent _).1 hsilent).1.trans hsame, ((hedit _ twice _).2 htwice).1 hsame⟩

/-! ## Normal forms of parts -/

/-- A normal form consists of its own statements. -/
theorem significantLines_normalize (script : String) :
    significantLines (normalize script) = significantLines script := by
  have hself : ∀ line ∈ significantLines script, statement? line = some line := by
    intro line hline
    obtain ⟨hs, hsignificant⟩ := List.mem_filter.1 hline
    obtain ⟨whole, -, rfl⟩ := List.mem_map.1 hs
    exact statement?_eq_some_iff.2 ⟨(isSignificant_iff _).1 hsignificant, trimChars_trimChars whole⟩
  rw [significantLines, lines_normalize, filter_isSignificant_map_trimChars,
    List.filterMap_congr hself, List.filterMap_some]

/-- Texts in a row are normalized one by one, and those that take no effect leave no trace. -/
theorem normalize_intercalate (texts : List String) :
    normalize ("\n".intercalate texts) =
      "\n".intercalate ((texts.map normalize).filter (· ≠ "")) := by
  have hkept : texts.filter (normalize · ≠ "") = texts.filter (statements · ≠ []) := by
    refine List.filter_congr fun text _ => ?_
    simp [normalize_eq_empty_iff]
  have htoList : ∀ text, (normalize text).toList = ['\n'].intercalate (statements text) := by
    intro text
    rw [normalize, significantLines_eq_statements, String.toList_ofList]
  rw [← String.toList_inj, htoList, statements_intercalate, String.toList_intercalate,
    toList_feed, List.flatMap_def, intercalate_flatten, List.filter_map, List.filter_map]
  simp only [Function.comp_def, hkept, List.map_map, htoList]

/-- Normalizing is idempotent, and goes piece by piece. The normal form of two texts on lines of
their own consists of their two normal forms, with a line feed between them if neither is empty;
so it is for any number of texts. The digest of a script is the digest of its normal form. -/
theorem normalize_piecewise (s a b : String) (texts : List String) :
    normalize (normalize s) = normalize s ∧
    normalize (a ++ "\n" ++ b) =
      (if normalize a = "" then normalize b
        else if normalize b = "" then normalize a
        else normalize a ++ "\n" ++ normalize b) ∧
    (digest s = Digest.hex (normalize s) ∧ digest (normalize s) = digest s) ∧
    normalize ("\n".intercalate texts) =
      "\n".intercalate ((texts.map normalize).filter (· ≠ "")) := by
  have hidem : normalize (normalize s) = normalize s := by
    rw [normalize, significantLines_normalize]
    rfl
  have hpair := normalize_intercalate [a, b]
  rw [String.intercalate_cons_cons, String.intercalate_singleton] at hpair
  refine ⟨hidem, ?_, ⟨rfl, ?_⟩, normalize_intercalate texts⟩
  · rw [hpair]
    by_cases ha : normalize a = "" <;> by_cases hb : normalize b = "" <;> simp [ha, hb]
  · rw [digest, hidem]
    rfl

end Parity

end GeoPolicy
