import GeoPolicy.Proofs.Policy
import GeoPolicy.Proofs.Script.Printable
import GeoPolicy.Proofs.Synthesis.Repetition
import Mathlib.Data.List.Forall2

/-!
# The shape of scripts

A script is settled, line by line, by its variant, its action, its families and the number of its
regions. All that is left open is the region codes in comments, the ranges in the statements that
install them, and the time in the header. So nothing that a person wrote can end a line or become a
statement.

## Main definitions

* `Script.Shape` — what a line may look like.
* `Script.Shape.Admits` — the lines of a shape.
* `Script.Variant.shapes` — the shapes of the lines of a script.
* `Script.Variant.lineCount` — the number of lines of a script.
-/

namespace GeoPolicy

namespace Script

open Text

/-! ## Shapes -/

/-- What a line may look like. Regions are told by their position. -/
inductive Shape where
  /-- Exactly this line. -/
  | fixed (line : Line)
  /-- The comment that tells the time. -/
  | generated
  /-- The comment that tells the regions. -/
  | targets (engine : String)
  /-- The announcement of the section of a region. -/
  | heading (style : SectionStyle) (index : Nat)
  /-- A statement that adds some range to a set. -/
  | addToSet (family : AddressFamily)
  /-- A statement that appends the rule for some range. -/
  | matchRange (family : AddressFamily) (verb : String)
  /-- A statement that adds some ranges to an `nft` set. -/
  | addElements (family : AddressFamily) (count : Nat)
  deriving DecidableEq, Repr

/-- A text that can stand for a range: one or more of the characters of ranges. -/
def IsOperand (s : String) : Prop :=
  s.toList ≠ [] ∧ ∀ c ∈ s.toList, c ∈ "0123456789abcdef.:/".toList

/-- The lines of a shape, in a script about the given regions. -/
def Shape.Admits (codes : List RegionCode) (shape : Shape) (line : List Char) : Prop :=
  match shape with
  | fixed l => line = l.text.toList
  | generated => ∃ time, line = "# Generated: ".toList ++ time
  | targets engine =>
    line = "# Targets: ".toList ++ List.intercalate ", ".toList (codes.map RegionCode.chars) ++
      " | Engine: ".toList ++ engine.toList
  | heading style index => ∃ code, codes[index]? = some code ∧
    line = "# ".toList ++ style.announcement.toList ++ code.chars
  | addToSet family => ∃ cidr, IsOperand cidr ∧ line = (Line.addToSet family cidr).text.toList
  | matchRange family verb => ∃ cidr, IsOperand cidr ∧
    line = (Line.matchRange family cidr verb).text.toList
  | addElements family count => ∃ cidrs, cidrs.length = count ∧ (∀ cidr ∈ cidrs, IsOperand cidr) ∧
    line = (Line.addElements family cidrs).text.toList

namespace Variant

/-- A policy with given settings and without regions. -/
def settings (variant : Variant) (action : Action) (useIPv6 : Bool) : Policy where
  backend := variant.backend
  action := action
  useAddressSet := variant = addressSets
  useIPv6 := useIPv6
  regions_nodup := List.nodup_nil

/-- The shapes of the lines that a script starts with. -/
def headerShapes (variant : Variant) (useIPv6 : Bool) (n : Nat) : List Shape :=
  let protocols := if useIPv6 then "IPv4, IPv6" else "IPv4"
  [.fixed .interpreter,
    .fixed (.comment "GeoGuard Automated Security Policy"),
    .targets variant.backend.name,
    .fixed (.comment s!"Protocols: {protocols} | Total Regions: {n}"),
    .generated,
    .fixed .blank,
    .fixed (.requireCommand variant.backend.command)]

/-- The shapes of the lines in the section of a region. -/
def sectionShapes (variant : Variant) (action : Action) (useIPv6 : Bool) (index : Nat) :
    List Shape :=
  match variant with
  | addressSets =>
    [.heading .sets index] ++ List.replicate variant.counts.v4 (.addToSet .v4) ++
      (if useIPv6 then List.replicate variant.counts.v6 (.addToSet .v6) else []) ++ [.fixed .blank]
  | singleRules =>
    [.heading .rules index] ++
      List.replicate variant.counts.v4 (.matchRange .v4 action.filterVerb) ++
      (if useIPv6 then List.replicate variant.counts.v6 (.matchRange .v6 action.filterVerb) else [])
  | nftables =>
    [.heading .bulk index, .addElements .v4 variant.counts.v4] ++
      (if useIPv6 then [.addElements .v6 variant.counts.v6] else []) ++ [.fixed .blank]

/-- The shapes of the lines of a script about `n` regions. -/
def shapes (variant : Variant) (action : Action) (useIPv6 : Bool) (n : Nat) : List Shape :=
  variant.headerShapes useIPv6 n ++
    (variant.opening (variant.settings action useIPv6)).map .fixed ++
    (List.range n).flatMap (variant.sectionShapes action useIPv6) ++
    (variant.closing (variant.settings action useIPv6)).map .fixed ++
    [.fixed .blank, .fixed (.report n (variant.label ++ if useIPv6 then " (Dual-Stack)" else ""))]

/-- The number of lines of a script about `n` regions. -/
def lineCount (variant : Variant) (useIPv6 : Bool) (n : Nat) : Nat :=
  match variant with
  | addressSets => 22 + 47 * n + if useIPv6 then 7 + 30 * n else 0
  | singleRules => 14 + 21 * n + if useIPv6 then 4 + 15 * n else 0
  | nftables => 16 + 3 * n + if useIPv6 then 2 + n else 0

theorem length_shapes (variant : Variant) (action : Action) (useIPv6 : Bool) (n : Nat) :
    (variant.shapes action useIPv6 n).length = variant.lineCount useIPv6 n := by
  have hsections : ((List.range n).flatMap (variant.sectionShapes action useIPv6)).length =
      n * (variant.sectionShapes action useIPv6 0).length := by
    rw [List.length_flatMap]
    have hconst : ∀ index, (variant.sectionShapes action useIPv6 index).length =
        (variant.sectionShapes action useIPv6 0).length := by
      intro index
      cases variant <;> rfl
    simp [hconst]
  cases variant <;> cases useIPv6 <;>
    simp [shapes, hsections, headerShapes, opening, closing, sectionShapes, settings, preflight,
      families, freshSet, freshChain, links, lineCount, counts] <;> omega

end Variant

/-! ## Lines and their shapes -/

theorem isOperand_cidr {region : String} {family : AddressFamily} {count : Nat} {x : AddressRange}
    (h : x ∈ synthesize region family count) : IsOperand x.cidr := by
  obtain ⟨i, hi⟩ := exists_cidr_of_mem_synthesize h
  rw [IsOperand, hi, String.toList_ofList]
  exact ⟨Synthesis.cidr_ne_nil family _ i, Synthesis.mem_rangeChars_of_mem_cidr family _ i⟩

theorem admits_fixed (codes : List RegionCode) (ls : List Line) :
    List.Forall₂ (Shape.Admits codes) (ls.map .fixed) (ls.map (·.text.toList)) := by
  rw [List.forall₂_map_left_iff, List.forall₂_map_right_iff, List.forall₂_same]
  exact fun l _ => rfl

theorem admits_header (t : Timestamp) {variant : Variant} {p : Policy}
    (h : p.backend = variant.backend) :
    List.Forall₂ (Shape.Admits p.effectiveRegions)
      (variant.headerShapes p.useIPv6 p.effectiveRegions.length)
      ((Compiler.header t p).map (·.text.toList)) := by
  have hlength : p.targets.length = p.effectiveRegions.length := List.length_map _
  have htargets : p.targets.map String.toList = p.effectiveRegions.map RegionCode.chars := by
    rw [Policy.targets, List.map_map]
    exact List.map_congr_left fun r _ => String.toList_ofList
  rw [Variant.headerShapes, Compiler.header, hlength, h]
  refine .cons rfl (.cons rfl (.cons ?_ (.cons rfl (.cons ?_ (.cons rfl (.cons rfl .nil))))))
  · dsimp only [Shape.Admits]
    rw [Line.toList_text, Line.chars, toList_targetsComment, String.toList_intercalate, htargets]
    simp [spelled]
  · refine ⟨t.text.toList, ?_⟩
    dsimp only
    rw [Line.toList_text, Line.chars, toList_generatedComment]
    rfl

/-- Each range of a region is the operand of a statement of its own. -/
theorem admits_synthesize {codes : List RegionCode} {shape : Shape} {f : String → Line}
    (h : ∀ cidr, IsOperand cidr → shape.Admits codes (f cidr).text.toList) (region : String)
    (family : AddressFamily) {count : Nat} (hcount : count ≤ 2007) :
    List.Forall₂ (Shape.Admits codes) (List.replicate count shape)
      (((synthesize region family count).map (f ·.cidr)).map (·.text.toList)) := by
  have hlength := length_synthesize region family hcount
  rw [List.forall₂_iff_get]
  refine ⟨by simp [hlength], fun i hi hi' => ?_⟩
  simp only [List.get_eq_getElem, List.getElem_replicate, List.getElem_map]
  exact h _ (isOperand_cidr (List.getElem_mem _))

/-- All ranges of a region are operands of one statement. -/
theorem admits_addElements (codes : List RegionCode) (region : String) (family : AddressFamily)
    {count : Nat} (hcount : count ≤ 2007) :
    (Shape.addElements family count).Admits codes
      (Line.addElements family ((synthesize region family count).map (·.cidr))).text.toList := by
  refine ⟨_, ?_, ?_, rfl⟩
  · rw [List.length_map, length_synthesize region family hcount]
  · rw [List.forall_mem_map]
    exact fun x hx => isOperand_cidr hx

theorem admits_heading {codes : List RegionCode} {index : Nat} {code : RegionCode}
    (h : codes[index]? = some code) (style : SectionStyle) :
    (Shape.heading style index).Admits codes (Line.heading style code.text).text.toList := by
  refine ⟨code, h, ?_⟩
  rw [Line.toList_text, Line.chars, SectionStyle.chars_eq, RegionCode.text, String.toList_ofList,
    spelled_eq]

theorem admits_regionSection {codes : List RegionCode} {index : Nat} {code : RegionCode}
    (h : codes[index]? = some code) (variant : Variant) (p : Policy) :
    List.Forall₂ (Shape.Admits codes) (variant.sectionShapes p.action p.useIPv6 index)
      ((variant.regionSection p (Compiler.regionRanges variant p code.text)).map
        (·.text.toList)) := by
  obtain ⟨hcount4, hcount6⟩ := variant.counts_le
  cases variant with
  | addressSets =>
    have hset : ∀ family cidr, IsOperand cidr → (Shape.addToSet family).Admits codes
        (Line.addToSet family cidr).text.toList := fun _ cidr hcidr => ⟨cidr, hcidr, rfl⟩
    rw [Variant.regionSection, Variant.setSection, List.map_append, List.map_append,
      List.map_append]
    refine List.rel_append (List.rel_append (List.rel_append ?_ ?_) ?_) ?_
    · exact .cons (admits_heading h .sets) .nil
    · exact admits_synthesize (hset .v4) code.text .v4 hcount4
    · cases hv6 : p.useIPv6 with
      | false => simp [Compiler.regionRanges, hv6]
      | true =>
        simp only [Compiler.regionRanges, hv6, if_true]
        exact admits_synthesize (hset .v6) code.text .v6 hcount6
    · exact .cons rfl .nil
  | singleRules =>
    have hrule : ∀ family cidr, IsOperand cidr →
        (Shape.matchRange family p.action.filterVerb).Admits codes
          (Line.matchRange family cidr p.action.filterVerb).text.toList :=
      fun _ cidr hcidr => ⟨cidr, hcidr, rfl⟩
    rw [Variant.regionSection, Variant.ruleSection, List.map_append, List.map_append]
    refine List.rel_append (List.rel_append ?_ ?_) ?_
    · exact .cons (admits_heading h .rules) .nil
    · exact admits_synthesize (hrule .v4) code.text .v4 hcount4
    · cases hv6 : p.useIPv6 with
      | false => simp [Compiler.regionRanges, hv6]
      | true =>
        simp only [Compiler.regionRanges, hv6, if_true]
        exact admits_synthesize (hrule .v6) code.text .v6 hcount6
  | nftables =>
    rw [Variant.regionSection, Variant.bulkSection, List.map_append, List.map_append]
    refine List.rel_append (List.rel_append ?_ ?_) ?_
    · exact .cons (admits_heading h .bulk)
        (.cons (admits_addElements codes code.text .v4 hcount4) .nil)
    · cases hv6 : p.useIPv6 with
      | false => simp
      | true =>
        simp only [Compiler.regionRanges, hv6, if_true]
        exact .cons (admits_addElements codes code.text .v6 hcount6) .nil
    · exact .cons rfl .nil

/-! ## Whole scripts -/

theorem Variant.opening_settings {variant : Variant} {p : Policy}
    (h : ofPolicy p = .ok variant) :
    variant.opening (variant.settings p.action p.useIPv6) = variant.opening p := by
  obtain ⟨hbackend, hset⟩ := ofPolicy_eq_ok_iff.1 h
  cases variant with
  | addressSets =>
    have hset := (hset hbackend).2 rfl
    simp [opening, settings, preflight, families, hset]
  | singleRules =>
    have hset : p.useAddressSet = false := by simpa using hset hbackend
    simp [opening, settings, preflight, families, hset]
  | nftables => rfl

theorem Variant.closing_settings (variant : Variant) (p : Policy) :
    variant.closing (variant.settings p.action p.useIPv6) = variant.closing p := by
  cases variant <;> rfl

/-- The lines of a script have the shapes that its settings call for. -/
theorem admits_script (t : Timestamp) {variant : Variant} {p : Policy}
    (h : Variant.ofPolicy p = .ok variant) :
    List.Forall₂ (Shape.Admits p.effectiveRegions)
      (variant.shapes p.action p.useIPv6 p.effectiveRegions.length)
      ((Compiler.script t variant p).map (·.text.toList)) := by
  have hlength : p.targets.length = p.effectiveRegions.length := List.length_map _
  have hcodes : List.Forall₂ (fun index code => p.effectiveRegions[index]? = some code)
      (List.range p.effectiveRegions.length) p.effectiveRegions := by
    rw [List.forall₂_iff_get]
    exact ⟨List.length_range, fun i hi hi' => by simp⟩
  have hsections : List.Forall₂ (Shape.Admits p.effectiveRegions)
      ((List.range p.effectiveRegions.length).flatMap
        (variant.sectionShapes p.action p.useIPv6))
      (p.effectiveRegions.flatMap fun code =>
        (variant.regionSection p (Compiler.regionRanges variant p code.text)).map
          (·.text.toList)) :=
    List.rel_flatMap hcodes fun _ _ hcode => admits_regionSection hcode variant p
  rw [Variant.shapes, Variant.opening_settings h, Variant.closing_settings, Compiler.script,
    Variant.body_eq, Compiler.ranges, Policy.targets]
  simp only [List.map_append, List.map_flatMap, List.flatMap_map, List.append_assoc]
  refine List.rel_append ?_ (List.rel_append ?_ (List.rel_append hsections
    (List.rel_append ?_ ?_)))
  · exact admits_header t (Variant.ofPolicy_eq_ok_iff.1 h).1
  · exact admits_fixed _ _
  · exact admits_fixed _ _
  · rw [Compiler.footer, hlength]
    exact .cons rfl (.cons rfl .nil)

theorem isPrintable_or_feed (t : Timestamp) (variant : Variant) (p : Policy) :
    ∀ c ∈ (text (Compiler.script t variant p)).toList, c = '\n' ∨ ' ' ≤ c ∧ c ≤ '~' := by
  intro c hc
  rw [text, textOf, String.toList_join] at hc
  simp only [List.map_map, List.mem_flatMap, List.mem_map, Function.comp_apply] at hc
  obtain ⟨_, ⟨l, hl, rfl⟩, hc⟩ := hc
  rw [String.toList_append, String.toList_ofList, List.mem_append, List.mem_singleton] at hc
  obtain hc | hc := hc
  · exact .inr (isPrintable_script t variant p l hl c hc)
  · exact .inl hc

/-- A compiled script is printable, line by line of the shapes that its policy calls for. -/
theorem shapes_of_compile {t : Timestamp} {p : Policy} {c : CompiledPolicy}
    (h : Compiler.compile t p = .ok c) :
    (∀ ch ∈ c.script.toList, ch = '\n' ∨ ' ' ≤ ch ∧ ch ≤ '~') ∧
      ∃ variant, Variant.ofPolicy p = .ok variant ∧
        List.Forall₂ (Shape.Admits p.effectiveRegions)
          (variant.shapes p.action p.useIPv6 p.effectiveRegions.length)
          (lines c.script.toList) ∧
        (lines c.script.toList).length =
          variant.lineCount p.useIPv6 p.effectiveRegions.length := by
  obtain ⟨variant, hvariant, rfl⟩ := compile_eq_ok_iff.1 h
  dsimp only
  have hshapes := admits_script t hvariant
  rw [← lines_text _ (wellFormed_script t variant p)] at hshapes
  have hlength := hshapes.length_eq
  rw [Variant.length_shapes] at hlength
  exact ⟨isPrintable_or_feed t variant p, variant, hvariant, hshapes, hlength.symm⟩

/-- What a person wrote as regions cannot inject anything into a script. Either the draft is
refused, or its policy is about the codes of the texts, each once, and all its scripts are
printable, line by line of the shapes that settings and number of regions call for. -/
theorem build_error_or_shapes (d : PolicyDraft) :
    (∃ e, d.build = .error e) ∨ ∃ p codes, d.build = .ok p ∧
      d.regions.mapM RegionCode.parse = .ok codes ∧ p.regions = distinct codes ∧
      p.effectiveRegions.Nodup ∧
      ∀ t c, Compiler.compile t p = .ok c →
        (∀ ch ∈ c.script.toList, ch = '\n' ∨ ' ' ≤ ch ∧ ch ≤ '~') ∧
        ∃ variant, Variant.ofPolicy p = .ok variant ∧
          List.Forall₂ (Shape.Admits p.effectiveRegions)
            (variant.shapes p.action p.useIPv6 p.effectiveRegions.length)
            (lines c.script.toList) ∧
          (lines c.script.toList).length =
            variant.lineCount p.useIPv6 p.effectiveRegions.length := by
  cases hcodes : d.regions.mapM RegionCode.parse with
  | error e => exact .inl ⟨e, PolicyDraft.build_of_error hcodes⟩
  | ok codes =>
    exact .inr ⟨_, codes, PolicyDraft.build_of_codes hcodes, rfl, rfl,
      Policy.effectiveRegions_nodup _, fun t c hc => shapes_of_compile hc⟩

/-- Two texts for one code, one of them between blanks. -/
theorem build_error_or_shapes_blanks :
    ∃ p, PolicyDraft.build { regions := ["\tcn\n", "Cn"] } = .ok p ∧
      ∃ c, Compiler.compile ⟨0, 0⟩ p = .ok c ∧ (lines c.script.toList).length = 69 := by
  have hcodes : ["\tcn\n", "Cn"].mapM RegionCode.parse = .ok [.default, .default] := rfl
  have hbuild : PolicyDraft.build { regions := ["\tcn\n", "Cn"] } =
      .ok { regions := [.default] } :=
    PolicyDraft.build_of_codes (d := { regions := ["\tcn\n", "Cn"] }) hcodes
  have hcompile := (compile_eq_ok_iff (t := ⟨0, 0⟩) (p := { regions := [.default] })).2
    ⟨.addressSets, rfl, rfl⟩
  obtain ⟨e, he⟩ | ⟨p, codes, hp, -, -, -, h⟩ :=
    build_error_or_shapes { regions := ["\tcn\n", "Cn"] }
  · rw [hbuild] at he
    cases he
  obtain rfl : _ = p := Except.ok.inj (hbuild.symm.trans hp)
  obtain ⟨-, variant, hvariant, -, hlength⟩ := h _ _ hcompile
  obtain rfl : .addressSets = variant := Except.ok.inj hvariant
  exact ⟨_, hbuild, _, hcompile, hlength⟩

end Script

end GeoPolicy
