import GeoPolicy.Compiler
import GeoPolicy.Proofs.Script.Reading
import GeoPolicy.Proofs.Synthesis

/-!
# The lines around the sections

The lines of a script before, between and after the sections of its regions say nothing about
installed ranges. None of them can be taken for a statement that installs one.

## Main definitions

* `Script.Line.IsSilent` — a line that installs nothing.
* `Script.Variant.opening`, `Script.Variant.regionSection`, `Script.Variant.closing` — the parts
  of a body.
-/

namespace GeoPolicy

namespace Script

open Text

/-! ## Parts of a body -/

namespace Variant

/-- The lines of a body before the sections. -/
def opening (variant : Variant) (p : Policy) : List Line :=
  match variant with
  | addressSets =>
    preflight p ++ [.comment "Create and populate optimized ipsets"] ++
      (families p).flatMap freshSet ++ [.blank]
  | singleRules => preflight p ++ (families p).flatMap freshChain
  | nftables => [.blank, .addTable, .flushTable] ++ (families p).map .addNftSet ++ [.blank]

/-- The section of a region. -/
def regionSection (variant : Variant) (p : Policy) : RegionRanges → List Line :=
  match variant with
  | addressSets => setSection
  | singleRules => ruleSection p.action.filterVerb
  | nftables => bulkSection p

/-- The lines of a body after the sections. -/
def closing (variant : Variant) (p : Policy) : List Line :=
  match variant with
  | addressSets =>
    [.comment "Apply iptables rules referencing the sets"] ++
      (families p).flatMap (fun f => freshChain f ++ [.matchSet f p.action.filterVerb]) ++ links p
  | singleRules => links p
  | nftables => [.addInputChain] ++ (families p).map (.addNftRule · p.action.nftVerb)

theorem body_eq (variant : Variant) (p : Policy) (regions : List RegionRanges) :
    variant.body p regions =
      variant.opening p ++ regions.flatMap (variant.regionSection p) ++ variant.closing p := by
  cases variant <;> simp [body, setBody, ruleBody, nftBody, opening, regionSection, closing]

end Variant

/-! ## Silent lines -/

/-- A line that tells nothing about installed ranges. -/
structure Line.IsSilent (l : Line) : Prop where
  wellFormed : l.WellFormed
  notice?_eq_none : l.notice? = none

/-- A comment is none of the announcements if it begins with other letters than they do. -/
theorem Line.isSilent_comment {text : String} (hline : IsLine text.toList)
    (hhead : text.toList.head?.all (· ∉ ['R', 'B']) = true) : (comment text).IsSilent where
  wellFormed := by
    refine ⟨hline, fun style => ?_⟩
    rintro ⟨rest, hrest⟩
    rw [← hrest] at hhead
    cases style
    all_goals exact Bool.noConfusion hhead
  notice?_eq_none := rfl

/-- For a fixed comment both conditions are computed from its characters. -/
theorem Line.isSilent_comment_ofList {text : List Char}
    (h : (text.all (· ∉ ['\n', '\r']) && text.head?.all (· ∉ ['R', 'B'])) = true) :
    (comment (String.ofList text)).IsSilent := by
  rw [Bool.and_eq_true] at h
  have hbreaks : ∀ c ∈ text, c ∉ ['\n', '\r'] := by simpa using h.1
  apply isSilent_comment
  all_goals rw [String.toList_ofList]
  · exact isLine_of_not_mem (fun hmem => hbreaks _ hmem (by decide))
      fun hmem => hbreaks _ hmem (by decide)
  · exact h.2

theorem isWord_filterVerb (action : Action) : IsWord action.filterVerb.toList := by
  cases action
  all_goals exact isWord_of_all rfl

theorem isWord_nftVerb (action : Action) : IsWord action.nftVerb.toList := by
  cases action
  all_goals exact isWord_of_all rfl

theorem isSilent_preflight (p : Policy) : ∀ l ∈ Variant.preflight p, l.IsSilent := by
  rw [Variant.preflight, List.forall_mem_append]
  constructor
  · split
    · exact List.forall_mem_singleton.2 ⟨trivial, rfl⟩
    · exact List.forall_mem_nil _
  · split
    · exact List.forall_mem_cons.2 ⟨⟨trivial, rfl⟩, List.forall_mem_singleton.2 ⟨trivial, rfl⟩⟩
    · exact List.forall_mem_nil _

theorem isSilent_freshChain (family : AddressFamily) :
    ∀ l ∈ Variant.freshChain family, l.IsSilent :=
  List.forall_mem_cons.2 ⟨⟨trivial, rfl⟩, List.forall_mem_singleton.2 ⟨trivial, rfl⟩⟩

theorem isSilent_freshSet (family : AddressFamily) :
    ∀ l ∈ Variant.freshSet family, l.IsSilent :=
  List.forall_mem_cons.2 ⟨⟨trivial, rfl⟩, List.forall_mem_singleton.2 ⟨trivial, rfl⟩⟩

theorem isSilent_links (p : Policy) : ∀ l ∈ Variant.links p, l.IsSilent := by
  have hcomment : (Line.comment "Insert into INPUT chain if not present").IsSilent :=
    Line.isSilent_comment_ofList rfl
  rw [Variant.links, List.forall_mem_append, List.forall_mem_map]
  exact ⟨List.forall_mem_cons.2 ⟨⟨trivial, rfl⟩, List.forall_mem_singleton.2 hcomment⟩,
    fun family _ => ⟨trivial, rfl⟩⟩

theorem isSilent_opening (variant : Variant) (p : Policy) :
    ∀ l ∈ variant.opening p, l.IsSilent := by
  cases variant with
  | addressSets =>
    have hcomment : (Line.comment "Create and populate optimized ipsets").IsSilent :=
      Line.isSilent_comment_ofList rfl
    simp only [Variant.opening, List.forall_mem_append, List.forall_mem_flatMap,
      List.forall_mem_singleton]
    exact ⟨⟨⟨isSilent_preflight p, hcomment⟩, fun family _ => isSilent_freshSet family⟩,
      trivial, rfl⟩
  | singleRules =>
    simp only [Variant.opening, List.forall_mem_append, List.forall_mem_flatMap]
    exact ⟨isSilent_preflight p, fun family _ => isSilent_freshChain family⟩
  | nftables =>
    simp only [Variant.opening, List.forall_mem_append, List.forall_mem_map,
      List.forall_mem_cons]
    exact ⟨⟨⟨⟨trivial, rfl⟩, ⟨trivial, rfl⟩, ⟨trivial, rfl⟩, List.forall_mem_nil _⟩,
      fun family _ => ⟨trivial, rfl⟩⟩, ⟨trivial, rfl⟩, List.forall_mem_nil _⟩

theorem isSilent_closing (variant : Variant) (p : Policy) :
    ∀ l ∈ variant.closing p, l.IsSilent := by
  cases variant with
  | addressSets =>
    have hcomment : (Line.comment "Apply iptables rules referencing the sets").IsSilent :=
      Line.isSilent_comment_ofList rfl
    simp only [Variant.closing, List.forall_mem_append, List.forall_mem_flatMap,
      List.forall_mem_singleton]
    exact ⟨⟨hcomment, fun family _ =>
      ⟨isSilent_freshChain family, isWord_filterVerb p.action, rfl⟩⟩, isSilent_links p⟩
  | singleRules => exact isSilent_links p
  | nftables =>
    simp only [Variant.closing, List.forall_mem_append, List.forall_mem_map,
      List.forall_mem_singleton]
    exact ⟨⟨trivial, rfl⟩, fun family _ => ⟨isWord_nftVerb p.action, rfl⟩⟩

/-! ## Header and footer -/

theorem isWord_text (r : RegionCode) : IsWord r.text.toList := by
  have hblank : ∀ c : Char, c.isUpper = true → isBlank c = false := by
    intro c hc
    have hrange := (Text.isUpper_iff_toNat c).1 hc
    simp only [isBlank, Bool.or_eq_false_iff, Bool.and_eq_false_iff, decide_eq_false_iff_not,
      beq_eq_false_iff_ne]
    omega
  rw [RegionCode.text, String.toList_ofList]
  refine ⟨List.cons_ne_nil _ _, ?_⟩
  simp only [RegionCode.chars, List.forall_mem_cons]
  exact ⟨hblank _ r.first_isUpper, hblank _ r.second_isUpper, List.forall_mem_nil _⟩

/-- Words with commas between them stand on one line. -/
theorem isLine_intercalate (words : List String) (h : ∀ w ∈ words, IsWord w.toList) :
    IsLine (String.intercalate ", " words).toList := by
  rw [String.toList_intercalate, String.toList_ofList]
  refine isLine_of_not_mem (not_mem_intercalate _ (by decide) ?_)
    (not_mem_intercalate _ (by decide) ?_)
  all_goals
    rw [List.forall_mem_map]
    intro w hw hmem
    exact absurd ((h w hw).not_blank _ hmem) (by decide)

theorem isWord_name (backend : Backend) : IsWord backend.name.toList := by
  cases backend
  all_goals exact isWord_of_all rfl

theorem isWord_command (backend : Backend) : IsWord backend.command.toList := by
  cases backend
  all_goals exact isWord_of_all rfl

theorem isWord_yearText (year : Int) : IsWord (Timestamp.yearText year) := by
  have hdigits : ∀ n, IsWord (paddedDigits 10 4 n) := fun n =>
    (isNumeral_paddedDigits 4 n).isWord
  unfold Timestamp.yearText
  split
  · exact hdigits _
  split
  · exact ⟨List.cons_ne_nil _ _, List.forall_mem_cons.2 ⟨by decide, (hdigits _).not_blank⟩⟩
  · exact ⟨List.cons_ne_nil _ _, List.forall_mem_cons.2 ⟨by decide, (hdigits _).not_blank⟩⟩

theorem isWord_timestamp (t : Timestamp) : IsWord t.text.toList := by
  have hdigits : ∀ width n, ∀ c ∈ paddedDigits 10 width n, isBlank c = false := fun width n =>
    (isNumeral_paddedDigits width n).isWord.not_blank
  unfold Timestamp.text
  rw [String.toList_ofList]
  refine ⟨by simp, ?_⟩
  simp only [List.forall_mem_append, List.forall_mem_singleton]
  refine ⟨⟨⟨⟨⟨⟨⟨⟨⟨⟨⟨⟨⟨(isWord_yearText _).not_blank, ?_⟩, hdigits 2 _⟩, ?_⟩, hdigits 2 _⟩, ?_⟩,
    hdigits 2 _⟩, ?_⟩, hdigits 2 _⟩, ?_⟩, hdigits 2 _⟩, ?_⟩, hdigits 3 _⟩, ?_⟩
  all_goals decide

/-! ## The comments of the header -/

theorem toList_targetsComment (targets engine : String) :
    s!"Targets: {targets} | Engine: {engine}".toList =
      spelled "Targets: " ++ targets.toList ++ spelled " | Engine: " ++ engine.toList := by
  simp only [String.toList_append, toString, spelled_eq]

theorem toList_protocolsComment (protocols : String) (regions : Nat) :
    s!"Protocols: {protocols} | Total Regions: {regions}".toList =
      spelled "Protocols: " ++ protocols.toList ++ spelled " | Total Regions: " ++
        Nat.toDigits 10 regions := by
  simp only [String.toList_append, toString, Nat.toList_repr, spelled_eq]

theorem toList_generatedComment (time : String) :
    s!"Generated: {time}".toList = spelled "Generated: " ++ time.toList := by
  simp only [String.toList_append, toString, spelled_eq]

theorem isSilent_header (t : Timestamp) (p : Policy) :
    ∀ l ∈ Compiler.header t p, l.IsSilent := by
  have hregions : IsLine (String.intercalate ", " p.targets).toList := by
    refine isLine_intercalate _ ?_
    rw [Policy.targets, List.forall_mem_map]
    exact fun r _ => isWord_text r
  have hlength : IsWord (Nat.toDigits 10 p.targets.length) :=
    (isNumeral_toDigits _).isWord
  have hprotocols : IsLine (if p.useIPv6 then "IPv4, IPv6" else "IPv4").toList := by
    split
    all_goals exact ⟨by decide, by decide⟩
  simp only [Compiler.header, List.forall_mem_cons]
  refine ⟨⟨trivial, rfl⟩, Line.isSilent_comment_ofList rfl, Line.isSilent_comment ?_ ?_,
    Line.isSilent_comment ?_ ?_, Line.isSilent_comment ?_ ?_, ⟨trivial, rfl⟩,
    ⟨isWord_command p.backend, rfl⟩, List.forall_mem_nil _⟩
  · rw [toList_targetsComment]
    refine .append (.append (.append ?_ hregions) ?_) (isWord_name p.backend).isLine
    all_goals exact ⟨by decide, by decide⟩
  · rw [toList_targetsComment]
    rfl
  · rw [toList_protocolsComment]
    refine .append (.append (.append ?_ hprotocols) ?_) hlength.isLine
    all_goals exact ⟨by decide, by decide⟩
  · rw [toList_protocolsComment]
    rfl
  · rw [toList_generatedComment]
    exact .append ⟨by decide, by decide⟩ (isWord_timestamp t).isLine
  · rw [toList_generatedComment]
    rfl

theorem isSilent_footer (variant : Variant) (p : Policy) :
    ∀ l ∈ Compiler.footer variant p, l.IsSilent := by
  have hlabel : IsLine variant.label.toList := by
    cases variant
    all_goals exact ⟨by decide, by decide⟩
  have hstack : IsLine (if p.useIPv6 then " (Dual-Stack)" else "").toList := by
    split
    all_goals exact ⟨by decide, by decide⟩
  rw [Compiler.footer, List.forall_mem_cons, List.forall_mem_singleton]
  refine ⟨⟨trivial, rfl⟩, ?_, rfl⟩
  show IsLine (variant.label ++ if p.useIPv6 then " (Dual-Stack)" else "").toList
  rw [String.toList_append]
  exact hlabel.append hstack

end Script

end GeoPolicy
