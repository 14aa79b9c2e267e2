import GeoPolicy.Proofs.Script.Frame

/-!
# Sections of generated scripts

A generated script, read back, has the ranges of each region, in order, in the statements of their
own family. The ruleset of a compiled policy holds the same ranges.

## Main definitions

* `Script.RegionRanges.toSection` — the section that holds the ranges of a region.
* `Script.RegionRanges.IsReadable` — ranges that no separator cuts.
* `Script.Variant.rangeNotices` — what the statements of a section tell.
* `Script.setElements` — the elements that a script adds to an interval set.
-/

namespace GeoPolicy

namespace Script

open Text

/-! ## Sections -/

namespace RegionRanges

/-- The section that holds the ranges of a region. -/
def toSection (r : RegionRanges) : Section where
  region := r.region
  v4 := r.v4.map (·.cidr)
  v6 := r.v6.map (·.cidr)

/-- Ranges that no separator cuts, of a region whose name stands on one line. There are IPv6
ranges only if the policy is about them. -/
structure IsReadable (p : Policy) (r : RegionRanges) : Prop where
  isLine_region : IsLine r.region.toList
  isItem_v4 : ∀ x ∈ r.v4, IsItem x.cidr.toList
  isItem_v6 : ∀ x ∈ r.v6, IsItem x.cidr.toList
  v6_eq_nil : p.useIPv6 = false → r.v6 = []

end RegionRanges

namespace Variant

/-- How a variant announces the section of a region. -/
def style : Variant → SectionStyle
  | addressSets => .sets
  | singleRules => .rules
  | nftables => .bulk

/-- What the statements of a section tell. -/
def rangeNotices (variant : Variant) (p : Policy) (r : RegionRanges) : List Notice :=
  match variant with
  | addressSets | singleRules =>
    r.v4.map (fun x => .ranges variant.style .v4 [x.cidr]) ++
      r.v6.map (fun x => .ranges variant.style .v6 [x.cidr])
  | nftables =>
    .ranges .bulk .v4 (r.v4.map (·.cidr)) ::
      if p.useIPv6 then [.ranges .bulk .v6 (r.v6.map (·.cidr))] else []

theorem wellFormed_regionSection (variant : Variant) {p : Policy} {r : RegionRanges}
    (h : r.IsReadable p) : ∀ l ∈ variant.regionSection p r, l.WellFormed := by
  have hverb : IsWord p.action.filterVerb.toList := isWord_filterVerb p.action
  cases variant with
  | addressSets =>
    simp only [regionSection, setSection, List.forall_mem_append, List.forall_mem_map,
      List.forall_mem_singleton]
    exact ⟨⟨⟨h.isLine_region, fun x hx => (h.isItem_v4 x hx).toIsWord⟩,
      fun x hx => (h.isItem_v6 x hx).toIsWord⟩, trivial⟩
  | singleRules =>
    simp only [regionSection, ruleSection, List.forall_mem_append, List.forall_mem_map,
      List.forall_mem_singleton]
    exact ⟨⟨h.isLine_region, fun x hx => ⟨(h.isItem_v4 x hx).toIsWord, hverb⟩⟩,
      fun x hx => ⟨(h.isItem_v6 x hx).toIsWord, hverb⟩⟩
  | nftables =>
    have hv4 : (Line.addElements .v4 (r.v4.map (·.cidr))).WellFormed :=
      List.forall_mem_map.2 h.isItem_v4
    have hv6 : (Line.addElements .v6 (r.v6.map (·.cidr))).WellFormed :=
      List.forall_mem_map.2 h.isItem_v6
    simp only [regionSection, bulkSection, List.forall_mem_append, List.forall_mem_cons]
    refine ⟨⟨⟨h.isLine_region, hv4, List.forall_mem_nil _⟩, ?_⟩, trivial, List.forall_mem_nil _⟩
    split
    · exact List.forall_mem_singleton.2 hv6
    · exact List.forall_mem_nil _

/-- A section tells its region and then its ranges. -/
theorem filterMap_notice?_regionSection (variant : Variant) (p : Policy) (r : RegionRanges) :
    (variant.regionSection p r).filterMap Line.notice? =
      .heading r.region :: variant.rangeNotices p r := by
  cases variant with
  | addressSets =>
    simp [regionSection, setSection, rangeNotices, style, Line.notice?, List.filterMap_map,
      Function.comp_def]
  | singleRules =>
    simp [regionSection, ruleSection, rangeNotices, style, Line.notice?, List.filterMap_map,
      Function.comp_def]
  | nftables =>
    by_cases hv6 : p.useIPv6 <;>
      simp [regionSection, bulkSection, rangeNotices, Line.notice?, hv6]

end Variant

/-! ## Collecting -/

theorem collect_ranges_append (style : SectionStyle) (family : AddressFamily)
    (ranges : List AddressRange) (rest : List Notice) :
    collect (ranges.map (fun x => .ranges style family [x.cidr]) ++ rest) =
      ((collect rest).1.cons (ranges.map (·.cidr)) family, (collect rest).2) := by
  induction ranges with
  | nil => cases family <;> rfl
  | cons x ranges ih =>
    rw [List.map_cons, List.cons_append, collect, ih]
    cases family <;> rfl

theorem collect_rangeNotices_append (variant : Variant) {p : Policy} {r : RegionRanges}
    (hv6 : p.useIPv6 = false → r.v6 = []) {rest : List Notice} {sections : List Section}
    (h : collect rest = ({}, sections)) :
    collect (variant.rangeNotices p r ++ rest) =
      (⟨r.v4.map (·.cidr), r.v6.map (·.cidr)⟩, sections) := by
  cases variant with
  | addressSets | singleRules =>
    rw [Variant.rangeNotices, List.append_assoc, collect_ranges_append, collect_ranges_append, h]
    simp [Ranges.cons]
  | nftables =>
    by_cases hp : p.useIPv6
    · simp [Variant.rangeNotices, hp, collect, h, Ranges.cons]
    · simp [Variant.rangeNotices, hp, collect, h, Ranges.cons, hv6 (by simpa using hp)]

/-- The induction over the regions: each section is closed off by the announcement after it. -/
theorem collect_flatMap (variant : Variant) {p : Policy} (regions : List RegionRanges)
    (h : ∀ r ∈ regions, p.useIPv6 = false → r.v6 = []) :
    collect (regions.flatMap fun r => .heading r.region :: variant.rangeNotices p r) =
      ({}, regions.map RegionRanges.toSection) := by
  induction regions with
  | nil => rfl
  | cons r regions ih =>
    have hrest := ih fun s hs => h s (List.mem_cons_of_mem r hs)
    rw [List.flatMap_cons, List.cons_append, collect,
      collect_rangeNotices_append variant (h r List.mem_cons_self) hrest]
    rfl

/-! ## Whole scripts -/

theorem filterMap_notice?_of_isSilent {ls : List Line} (h : ∀ l ∈ ls, l.IsSilent) :
    ls.filterMap Line.notice? = [] :=
  List.filterMap_eq_nil_iff.2 fun l hl => (h l hl).notice?_eq_none

/-- The lines of a body are well formed. -/
theorem wellFormed_body (variant : Variant) {p : Policy} {regions : List RegionRanges}
    (h : ∀ r ∈ regions, r.IsReadable p) : ∀ l ∈ variant.body p regions, l.WellFormed := by
  rw [Variant.body_eq, List.forall_mem_append, List.forall_mem_append, List.forall_mem_flatMap]
  exact ⟨⟨fun l hl => (isSilent_opening variant p l hl).wellFormed,
    fun r hr => variant.wellFormed_regionSection (h r hr)⟩,
    fun l hl => (isSilent_closing variant p l hl).wellFormed⟩

theorem filterMap_notice?_body (variant : Variant) (p : Policy) (regions : List RegionRanges) :
    (variant.body p regions).filterMap Line.notice? =
      regions.flatMap fun r => .heading r.region :: variant.rangeNotices p r := by
  rw [Variant.body_eq, List.filterMap_append, List.filterMap_append,
    filterMap_notice?_of_isSilent (isSilent_opening variant p),
    filterMap_notice?_of_isSilent (isSilent_closing variant p), List.filterMap_flatMap]
  simp [Variant.filterMap_notice?_regionSection]

section Texts

variable (variant : Variant) {p : Policy} {regions : List RegionRanges} {before after : List Line}
  (h : ∀ r ∈ regions, r.IsReadable p) (hbefore : ∀ l ∈ before, l.IsSilent)
  (hafter : ∀ l ∈ after, l.IsSilent)
include h hbefore hafter

/-- A body between silent lines tells of its regions and of nothing else. -/
theorem notices_text_body :
    notices (text (before ++ variant.body p regions ++ after)) =
      regions.flatMap fun r => .heading r.region :: variant.rangeNotices p r := by
  have hlines : ∀ l ∈ before ++ variant.body p regions ++ after, l.WellFormed := by
    rw [List.forall_mem_append, List.forall_mem_append]
    exact ⟨⟨fun l hl => (hbefore l hl).wellFormed, wellFormed_body variant h⟩,
      fun l hl => (hafter l hl).wellFormed⟩
  rw [notices_text _ hlines, List.filterMap_append, List.filterMap_append,
    filterMap_notice?_of_isSilent hbefore, filterMap_notice?_of_isSilent hafter,
    filterMap_notice?_body, List.nil_append, List.append_nil]

/-- A body between silent lines has the sections of its regions. -/
theorem readSections?_text :
    readSections? (text (before ++ variant.body p regions ++ after)) =
      some (regions.map RegionRanges.toSection) := by
  rw [readSections?, notices_text_body variant h hbefore hafter,
    collect_flatMap variant regions fun r hr => (h r hr).v6_eq_nil]
  rfl

end Texts

/-! ## Compiled policies -/

theorem isReadable_ranges (variant : Variant) (p : Policy) :
    ∀ r ∈ Compiler.ranges variant p, r.IsReadable p := by
  have hitem : ∀ region family count, ∀ x ∈ synthesize region family count,
      IsItem x.cidr.toList := by
    intro region family count x hx
    obtain ⟨i, hi⟩ := exists_cidr_of_mem_synthesize hx
    exact hi ▸ Synthesis.isItem_cidr family (Synthesis.seed region) i
  rw [Compiler.ranges, Policy.targets, List.forall_mem_map, List.forall_mem_map]
  intro code _
  refine ⟨(isWord_text code).isLine, hitem _ _ _, ?_, fun hv6 => if_neg (by simp [hv6])⟩
  by_cases hv6 : p.useIPv6
  · simpa [Compiler.regionRanges, hv6] using hitem _ _ _
  · simp [Compiler.regionRanges, hv6]

theorem wellFormed_script (t : Timestamp) (variant : Variant) (p : Policy) :
    ∀ l ∈ Compiler.script t variant p, l.WellFormed := by
  rw [Compiler.script, List.forall_mem_append, List.forall_mem_append]
  exact ⟨⟨fun l hl => (isSilent_header t p l hl).wellFormed,
    wellFormed_body variant (isReadable_ranges variant p)⟩,
    fun l hl => (isSilent_footer variant p l hl).wellFormed⟩

/-- What compiling makes is the script and the ruleset of the policy's variant. -/
theorem compile_eq_ok_iff {t : Timestamp} {p : Policy} {c : CompiledPolicy} :
    Compiler.compile t p = .ok c ↔ ∃ variant, Variant.ofPolicy p = .ok variant ∧
      c = ⟨text (Compiler.script t variant p),
        Compiler.ruleset p.action (Compiler.ranges variant p)⟩ := by
  unfold Compiler.compile
  cases Variant.ofPolicy p with
  | error e => simp [bind, Except.bind]
  | ok variant => simp [bind, Except.bind, pure, Except.pure, eq_comm]

theorem readSections?_script (t : Timestamp) (variant : Variant) (p : Policy) :
    readSections? (text (Compiler.script t variant p)) =
      some ((Compiler.ranges variant p).map RegionRanges.toSection) :=
  readSections?_text variant (isReadable_ranges variant p) (isSilent_header t p)
    (isSilent_footer variant p)

/-! ## Interval sets -/

/-- The elements that a notice adds to the interval set of a family. -/
def Notice.elements (family : AddressFamily) : Notice → List String
  | ranges .bulk f cidrs => if f = family then cidrs else []
  | _ => []

/-- The elements that a script adds to the interval set of a family, in order. -/
def setElements (script : String) (family : AddressFamily) : List String :=
  (notices script).flatMap (Notice.elements family)

theorem elements_rangeNotices {p : Policy} {r : RegionRanges} (h : r.IsReadable p)
    (family : AddressFamily) :
    (Variant.nftables.rangeNotices p r).flatMap (Notice.elements family) =
      r.toSection.of family := by
  have hv4 : r.toSection.of .v4 = r.v4.map (·.cidr) := rfl
  have hv6 : r.toSection.of .v6 = r.v6.map (·.cidr) := rfl
  by_cases hp : p.useIPv6 = true
  · cases family <;> simp [Variant.rangeNotices, Notice.elements, hp, hv4, hv6]
  · have hnil : r.v6 = [] := h.v6_eq_nil (by simpa using hp)
    cases family <;> simp [Variant.rangeNotices, Notice.elements, hp, hv4, hv6, hnil]

/-- The interval sets of a script hold the ranges of its regions, in order. -/
theorem setElements_script (t : Timestamp) (p : Policy) (family : AddressFamily) :
    setElements (text (Compiler.script t .nftables p)) family =
      (Compiler.ranges .nftables p).flatMap fun r => r.toSection.of family := by
  have hreadable := isReadable_ranges .nftables p
  have hnotices := notices_text_body .nftables hreadable (isSilent_header t p)
    (isSilent_footer .nftables p)
  rw [setElements, Compiler.script, hnotices, List.flatMap_assoc]
  refine List.flatMap_congr fun r hr => ?_
  rw [List.flatMap_cons, elements_rangeNotices (hreadable r hr)]
  rfl

/-! ## Rulesets -/

theorem map_rules_ruleset (action : Action) (regions : List RegionRanges) :
    (Compiler.ruleset action regions).rules.map (fun rule => (rule.region, rule.cidrs)) =
      regions.map fun r => (r.region, r.v4.map (·.cidr) ++ r.v6.map (·.cidr)) := by
  apply List.ext_getElem
  · simp [Compiler.ruleset]
  · intro i _ _
    simp [Compiler.ruleset, Compiler.rule]

/-- Scripts and rulesets agree. The sections read from a body of any variant are the regions it was
made for, in order, with the ranges of each family in order; and the sections of a compiled script
hold the ranges of the rules of its ruleset. -/
theorem sections_agree_with_ruleset :
    (∀ (variant : Variant) (p : Policy) (regions : List RegionRanges),
      (∀ r ∈ regions, r.IsReadable p) →
        readSections? (text (variant.body p regions)) =
          some (regions.map RegionRanges.toSection)) ∧
    ∀ (t : Timestamp) (p : Policy) (c : CompiledPolicy), Compiler.compile t p = .ok c →
      ∃ sections, readSections? c.script = some sections ∧
        sections.map (fun s => (s.region, s.v4 ++ s.v6)) =
          c.ruleset.rules.map fun rule => (rule.region, rule.cidrs) := by
  constructor
  · intro variant p regions h
    have hsilent : ∀ l ∈ ([] : List Line), l.IsSilent := List.forall_mem_nil _
    simpa using readSections?_text variant h hsilent hsilent
  · intro t p c hc
    obtain ⟨variant, -, rfl⟩ := compile_eq_ok_iff.1 hc
    dsimp only
    refine ⟨_, readSections?_script t variant p, ?_⟩
    rw [map_rules_ruleset, List.map_map]
    rfl

/-- A script of single rules for a region with a repeated range, and the default policy. -/
theorem sections_agree_with_ruleset_repeated :
    readSections? (text (Variant.singleRules.body { useIPv6 := true }
      [⟨"a b", [⟨"1.0.0.0/8", "", .v4⟩, ⟨"1.0.0.0/8", "", .v4⟩], [⟨"::/0", "", .v6⟩]⟩])) =
        some [⟨⟨["1.0.0.0/8", "1.0.0.0/8"], ["::/0"]⟩, "a b"⟩] ∧
    ∃ c, Compiler.compile ⟨0, 0⟩ .default = .ok c ∧
      ∃ sections, readSections? c.script = some sections ∧
        sections.map (fun s => (s.region, s.v4 ++ s.v6)) =
          c.ruleset.rules.map fun rule => (rule.region, rule.cidrs) := by
  constructor
  · have hv4 : IsItem "1.0.0.0/8".toList := by
      rw [String.toList_ofList]
      exact ⟨isWord_of_all rfl, by decide⟩
    have hv6 : IsItem "::/0".toList := by
      rw [String.toList_ofList]
      exact ⟨isWord_of_all rfl, by decide⟩
    have hregion : IsLine "a b".toList := by
      rw [String.toList_ofList]
      exact ⟨by decide, by decide⟩
    have hreadable : RegionRanges.IsReadable { useIPv6 := true }
        ⟨"a b", [⟨"1.0.0.0/8", "", .v4⟩, ⟨"1.0.0.0/8", "", .v4⟩], [⟨"::/0", "", .v6⟩]⟩ :=
      ⟨hregion, List.forall_mem_cons.2 ⟨hv4, List.forall_mem_singleton.2 hv4⟩,
        List.forall_mem_singleton.2 hv6, fun h => absurd h (by decide)⟩
    exact sections_agree_with_ruleset.1 .singleRules _ _ (List.forall_mem_singleton.2 hreadable)
  · exact ⟨_, rfl, sections_agree_with_ruleset.2 ⟨0, 0⟩ .default _ rfl⟩

end Script

end GeoPolicy
