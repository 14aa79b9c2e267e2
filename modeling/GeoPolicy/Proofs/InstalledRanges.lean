import GeoPolicy.Proofs.RangeTable.Ruleset
import GeoPolicy.Proofs.Script.Rules

/-!
# Tables and installed ranges

The table of a compiled policy answers for an address exactly if the script of the policy installs
a range that covers it. The answer names the last section with a longest such range, and the action
that the rules of the script carry out.

## Main definitions

* `Script.Section.Installs` — a range stands in a section, in a statement of its own family.
-/

namespace GeoPolicy

namespace Script

/-- A section installs a range if one of its texts for the family of the range denotes it. -/
def Section.Installs (s : Section) (n : Network) : Prop :=
  ∃ cidr ∈ s.of n.family, Network.parse cidr = .ok n

/-! ## Sections and insertions -/

/-- A member of the blocks of a list splits the list at its block. -/
theorem exists_of_flatMap_eq_append_cons {α β : Type} {f : α → List β} {xs : List α}
    {before after : List β} {b : β} (h : xs.flatMap f = before ++ b :: after) :
    ∃ left a right inner outer, xs = left ++ a :: right ∧ f a = inner ++ b :: outer ∧
      before = left.flatMap f ++ inner ∧ after = outer ++ right.flatMap f := by
  induction xs generalizing before with
  | nil => exact absurd h.symm (by simp)
  | cons x xs ih =>
    rw [List.flatMap_cons, List.append_eq_append_iff] at h
    obtain ⟨rest, rfl, hrest⟩ | ⟨rest, hx, hrest⟩ := h
    · obtain ⟨left, a, right, inner, outer, rfl, ha, rfl, rfl⟩ := ih hrest
      exact ⟨x :: left, a, right, inner, outer, rfl, ha, by simp, rfl⟩
    cases rest with
    | nil =>
      -- The member is the first one after the block of `x`.
      have hxs : xs.flatMap f = [] ++ b :: after := hrest.symm
      obtain ⟨left, a, right, inner, outer, rfl, ha, hinner, rfl⟩ := ih hxs
      refine ⟨x :: left, a, right, inner, outer, rfl, ha, ?_, rfl⟩
      rw [List.flatMap_cons, List.append_assoc, ← hinner, hx, List.append_nil, List.append_nil]
    | cons c rest =>
      rw [List.cons_append, List.cons.injEq] at hrest
      obtain ⟨rfl, rfl⟩ := hrest
      exact ⟨[], x, xs, before, rest, rfl, hx, rfl, rfl⟩

/-- The insertions for the ranges of a section. -/
def Section.calls (action : Action) (s : Section) : List (Network × RangeTag) :=
  (Network.parseAll (s.v4 ++ s.v6)).map (·, ⟨s.region, action⟩)

/-- The insertions for a compiled policy come section by section. -/
theorem calls_ruleset (action : Action) (regions : List RegionRanges) :
    (Compiler.ruleset action regions).calls =
      (regions.map RegionRanges.toSection).flatMap (Section.calls action) := by
  have hrules : (Compiler.ruleset action regions).rules.map RegionRule.calls =
      (regions.map RegionRanges.toSection).map (Section.calls action) := by
    apply List.ext_getElem
    · simp [Compiler.ruleset]
    · intro i _ _
      simp [Compiler.ruleset, Compiler.rule, RegionRule.calls, RegionRule.tag, Section.calls,
        RegionRanges.toSection]
  rw [Ruleset.calls, List.flatMap_def, hrules, ← List.flatMap_def]

/-- All texts of a section stand in statements for the family of the range they denote. -/
def Section.KeepsFamilies (s : Section) : Prop :=
  ∀ family, ∀ cidr ∈ s.of family, ∀ n, Network.parse cidr = .ok n → n.family = family

/-- Synthesized texts go where their family belongs. -/
theorem keepsFamilies_toSection (variant : Variant) (p : Policy) :
    ∀ s ∈ (Compiler.ranges variant p).map RegionRanges.toSection, s.KeepsFamilies := by
  rw [List.forall_mem_map, Compiler.ranges, List.forall_mem_map]
  intro region _ family cidr hcidr n hn
  have hsynthesized : ∃ i, cidr = Synthesis.cidr family (Synthesis.seed region) i := by
    cases family with
    | v4 =>
      obtain ⟨x, hx, rfl⟩ := List.mem_map.1 hcidr
      exact exists_cidr_of_mem_synthesize hx
    | v6 =>
      obtain ⟨x, hx, rfl⟩ := List.mem_map.1 hcidr
      unfold Compiler.regionRanges at hx
      dsimp only at hx
      split at hx
      · exact exists_cidr_of_mem_synthesize hx
      · exact absurd hx List.not_mem_nil
  obtain ⟨i, rfl⟩ := hsynthesized
  exact Synthesis.family_of_parse_cidr hn

theorem mem_parseAll_iff_installs {s : Section} (h : s.KeepsFamilies) {n : Network} :
    n ∈ Network.parseAll (s.v4 ++ s.v6) ↔ s.Installs n := by
  rw [Network.mem_parseAll]
  constructor
  · rintro ⟨cidr, hcidr, hn⟩
    obtain hv4 | hv6 := List.mem_append.1 hcidr
    · have hfamily : n.family = .v4 := h .v4 cidr hv4 n hn
      exact ⟨cidr, by rwa [hfamily], hn⟩
    · have hfamily : n.family = .v6 := h .v6 cidr hv6 n hn
      exact ⟨cidr, by rwa [hfamily], hn⟩
  · rintro ⟨cidr, hcidr, hn⟩
    refine ⟨cidr, List.mem_append.2 ?_, hn⟩
    cases hfamily : n.family with
    | v4 => exact .inl (by rwa [hfamily] at hcidr)
    | v6 => exact .inr (by rwa [hfamily] at hcidr)

theorem mem_calls_iff {s : Section} (h : s.KeepsFamilies) {action : Action}
    {call : Network × RangeTag} :
    call ∈ s.calls action ↔ s.Installs call.1 ∧ call.2 = ⟨s.region, action⟩ := by
  rw [Section.calls, List.mem_map, ← mem_parseAll_iff_installs h]
  constructor
  · rintro ⟨n, hn, rfl⟩
    exact ⟨hn, rfl⟩
  · rintro ⟨hn, htag⟩
    exact ⟨call.1, hn, by rw [← htag]⟩

/-! ## Answers -/

section Answers

variable {sections : List Section} (hfamilies : ∀ s ∈ sections, s.KeepsFamilies) {action : Action}
  {a : Address}
include hfamilies

/-- There is an answer exactly if a section installs a range that covers the address. -/
theorem isSome_longestMatch_iff :
    ((RangeTable.empty.insertAll (sections.flatMap (Section.calls action))).longestMatch
        a).isSome = true ↔
      ∃ s ∈ sections, ∃ n, s.Installs n ∧ n.Covers a := by
  rw [Option.isSome_iff_ne_none, Ne, RangeTable.longestMatch_eq_none_iff]
  push Not
  constructor
  · rintro ⟨call, hcall, hcov⟩
    obtain ⟨s, hs, hcall⟩ := List.mem_flatMap.1 hcall
    exact ⟨s, hs, call.1, ((mem_calls_iff (hfamilies s hs)).1 hcall).1, hcov⟩
  · rintro ⟨s, hs, n, hn, hcov⟩
    refine ⟨(n, ⟨s.region, action⟩), List.mem_flatMap.2 ⟨s, hs, ?_⟩, hcov⟩
    exact (mem_calls_iff (hfamilies s hs)).2 ⟨hn, rfl⟩

/-- The answer names the last section with a longest range that covers the address. -/
theorem exists_last_section_of_longestMatch {tag : RangeTag}
    (h : (RangeTable.empty.insertAll (sections.flatMap (Section.calls action))).longestMatch a =
      some tag) :
    tag.action = action ∧ ∃ before s after n, sections = before ++ s :: after ∧
      s.region = tag.region ∧ s.Installs n ∧ n.Covers a ∧
      (∀ r ∈ before ++ [s], ∀ m, r.Installs m → m.Covers a → m.length ≤ n.length) ∧
      ∀ r ∈ after, ∀ m, r.Installs m → m.Covers a → m.length < n.length := by
  obtain ⟨earlier, n, later, hsplit, hcov, hearlier, hlater⟩ :=
    (RangeTable.longestMatch_eq_some_iff_split _ a tag).1 h
  obtain ⟨before, s, after, inner, outer, rfl, hs, rfl, rfl⟩ :=
    exists_of_flatMap_eq_append_cons hsplit
  have hcall : ∀ r ∈ before ++ s :: after, ∀ m, r.Installs m →
      (m, ⟨r.region, action⟩) ∈ r.calls action := fun r hr m hm =>
    (mem_calls_iff (hfamilies r hr)).2 ⟨hm, rfl⟩
  have hmem : (n, tag) ∈ s.calls action := by simp [hs]
  obtain ⟨hn, htag⟩ := (mem_calls_iff (hfamilies s (by simp))).1 hmem
  dsimp only at hn htag
  refine ⟨by rw [htag], before, s, after, n, rfl, by rw [htag], hn, hcov, ?_, ?_⟩
  · intro r hr m hm hmcov
    obtain hr | hr := List.mem_append.1 hr
    · have hbefore := List.mem_flatMap.2 ⟨r, hr, hcall r (by simp [hr]) m hm⟩
      exact hearlier _ (List.mem_append_left _ hbefore) hmcov
    -- In the section itself the range may stand before or after the answer.
    obtain rfl := List.mem_singleton.1 hr
    have hown := hcall r (by simp) m hm
    rw [hs, List.mem_append, List.mem_cons] at hown
    obtain hown | hown | hown := hown
    · exact hearlier _ (List.mem_append_right _ hown) hmcov
    · exact (congrArg (·.1.length) hown).le
    · exact (hlater _ (List.mem_append_left _ hown) hmcov).le
  · intro r hr m hm hmcov
    have hafter := List.mem_flatMap.2 ⟨r, hr, hcall r (by simp [hr]) m hm⟩
    exact hlater _ (List.mem_append_right _ hafter) hmcov

end Answers

/-- Matching an address tells what the script installs. The table of a compiled policy has an
answer exactly if the text of the script installs a range that covers the address. The answer names
the last section with a longest such range, and the one action whose verb the rules have. -/
theorem longestMatch_compile {t : Timestamp} {p : Policy} {c : CompiledPolicy}
    (h : Compiler.compile t p = .ok c) :
    ∃ sections, readSections? c.script = some sections ∧ ∀ a : Address,
      (((RangeTable.ofRuleset c.ruleset).1.longestMatch a).isSome = true ↔
        ∃ s ∈ sections, ∃ n, s.Installs n ∧ n.Covers a) ∧
      ∀ tag, (RangeTable.ofRuleset c.ruleset).1.longestMatch a = some tag →
        (∃ before s after n, sections = before ++ s :: after ∧ s.region = tag.region ∧
          s.Installs n ∧ n.Covers a ∧
          (∀ r ∈ before ++ [s], ∀ m, r.Installs m → m.Covers a → m.length ≤ n.length) ∧
          ∀ r ∈ after, ∀ m, r.Installs m → m.Covers a → m.length < n.length) ∧
        readVerbs c.script ≠ [] ∧ ∀ rule ∈ readVerbs c.script, ∀ action : Action,
          rule.2 = action.verb rule.1 ↔ action = tag.action := by
  obtain ⟨variant, -, rfl⟩ := compile_eq_ok_iff.1 h
  dsimp only
  refine ⟨_, readSections?_script t variant p, fun a => ?_⟩
  have hfamilies := keepsFamilies_toSection variant p
  rw [RangeTable.ofRuleset_fst, calls_ruleset]
  refine ⟨isSome_longestMatch_iff hfamilies, fun tag htag => ?_⟩
  obtain ⟨haction, hsection⟩ := exists_last_section_of_longestMatch hfamilies htag
  obtain ⟨hne, hverbs⟩ := readVerbs_script t variant p
  refine ⟨hsection, hne, fun rule hrule action => ?_⟩
  rw [hverbs rule hrule, haction]
  exact ⟨fun hverb => (Action.verb_injective hverb).symm, fun heq => by rw [heq]⟩

/-- An address in the first range of the default region. -/
theorem longestMatch_compile_default :
    ∃ c, Compiler.compile ⟨0, 0⟩ .default = .ok c ∧
      ((RangeTable.ofRuleset c.ruleset).1.longestMatch (.ofOctets [149, 107, 1, 1])).isSome =
        true := by
  have hvariant : Variant.ofPolicy .default = .ok .addressSets := rfl
  have hcompile := (compile_eq_ok_iff (t := ⟨0, 0⟩)).2 ⟨.addressSets, hvariant, rfl⟩
  obtain ⟨sections, hsections, h⟩ := longestMatch_compile hcompile
  dsimp only at hsections
  rw [readSections?_script ⟨0, 0⟩ .addressSets .default, Option.some_inj] at hsections
  have hseed : Synthesis.seed RegionCode.default.text = 2155 := Synthesis.seed_text _
  obtain ⟨more, hmore⟩ :=
    exists_regionRanges_v4_eq_cons .addressSets .default RegionCode.default.text
  rw [hseed] at hmore
  have hfirst : Synthesis.v4Cidr 2155 0 ∈
      (Compiler.regionRanges .addressSets .default RegionCode.default.text).toSection.v4 := by
    rw [RegionRanges.toSection, hmore]
    exact List.mem_cons_self
  have hsection : (Compiler.regionRanges .addressSets .default
      RegionCode.default.text).toSection ∈ sections := by
    rw [← hsections]
    exact List.mem_cons_self
  have hinstalls := Synthesis.parse_v4Cidr 2155 0
  exact ⟨_, hcompile, (h _).1.2 ⟨_, hsection, _, ⟨_, hfirst, hinstalls⟩, by decide⟩⟩

end Script

end GeoPolicy
