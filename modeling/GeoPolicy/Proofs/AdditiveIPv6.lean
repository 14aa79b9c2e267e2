import GeoPolicy.Proofs.RulesetLayout
import GeoPolicy.Proofs.Script.NamesIPv6

/-!
# IPv6 is additive

A policy about both families does all that the policy about IPv4 alone does, in the same order. What
it does besides can be told from the text: every statement about IPv6 has the name of an IPv6
object, and every IPv6 range has a colon. So the script and the ruleset of the one policy are those
of the other one with some lines and some texts taken out.

## Main definitions

* `Policy.onlyIPv4` — a policy with IPv6 switched off.
* `Script.NamesIPv6`, `Script.withoutIPv6` — the lines with the name of an IPv6 object, and a text
  without them.
* `Ruleset.withoutIPv6` — a ruleset without the IPv6 part of each rule.
-/

namespace GeoPolicy

open Text

/-- The policy about IPv4 alone with all other settings of a policy. -/
def Policy.onlyIPv4 (p : Policy) : Policy :=
  { p with useIPv6 := false }

/-- A rule with its texts in the notation of IPv4 alone. -/
def RegionRule.withoutIPv6 (rule : RegionRule) : RegionRule :=
  { rule with cidrs := rule.part .v4 }

/-- A ruleset without the IPv6 part of each rule. -/
def Ruleset.withoutIPv6 (r : Ruleset) : Ruleset :=
  ⟨r.rules.map RegionRule.withoutIPv6⟩

namespace Script

/-- Whether a line has the name of an IPv6 object somewhere in it. -/
def NamesIPv6 (line : List Char) : Prop :=
  ∃ name ∈ namesIPv6, name.toList <:+: line

instance : DecidablePred NamesIPv6 :=
  fun line => inferInstanceAs (Decidable (∃ name ∈ namesIPv6, name.toList <:+: line))

/-- A text without the lines that have the name of an IPv6 object in them. -/
def withoutIPv6 (s : String) : String :=
  String.ofList (List.intercalate ['\n'] ((lines s.toList).filter (¬NamesIPv6 ·)))

theorem withoutIPv6_normalize (script : String) :
    withoutIPv6 (Parity.normalize script) = String.ofList
      (List.intercalate ['\n'] ((Parity.significantLines script).filter (¬NamesIPv6 ·))) := by
  rw [withoutIPv6, Parity.lines_normalize]

/-! ## Lines -/

namespace Variant

theorem filter_not_isIPv6_opening (variant : Variant) (p : Policy) :
    (variant.opening p).filter (!·.isIPv6) = variant.opening p.onlyIPv4 := by
  cases hv6 : p.useIPv6 <;> cases hset : p.useAddressSet <;> cases variant <;>
    simp [opening, preflight, families, freshSet, freshChain, Line.isIPv6, Policy.onlyIPv4, hv6,
      hset]

theorem filter_not_isIPv6_closing (variant : Variant) (p : Policy) :
    (variant.closing p).filter (!·.isIPv6) = variant.closing p.onlyIPv4 := by
  cases hv6 : p.useIPv6 <;> cases variant <;>
    simp [closing, links, families, freshChain, Line.isIPv6, Policy.onlyIPv4, hv6]

/-- The lines for the ranges of one family stay or go together. -/
theorem filter_not_isIPv6_map {ranges : List AddressRange} {line : AddressRange → Line} {b : Bool}
    (h : ∀ r, (line r).isIPv6 = b) :
    (ranges.map line).filter (!·.isIPv6) = if b then [] else ranges.map line := by
  cases b with
  | true => simp [List.filter_eq_nil_iff, h]
  | false => simp [List.filter_eq_self, h]

theorem filter_not_isIPv6_regionSection (variant : Variant) (p : Policy) (region : String) :
    (variant.regionSection p (Compiler.regionRanges variant p region)).filter (!·.isIPv6) =
      variant.regionSection p.onlyIPv4 (Compiler.regionRanges variant p.onlyIPv4 region) := by
  cases variant with
  | addressSets =>
    simp only [regionSection, setSection, List.filter_append]
    rw [filter_not_isIPv6_map (b := false) fun _ => rfl,
      filter_not_isIPv6_map (b := true) fun _ => rfl]
    rfl
  | singleRules =>
    simp only [regionSection, ruleSection, List.filter_append]
    rw [filter_not_isIPv6_map (b := false) fun _ => rfl,
      filter_not_isIPv6_map (b := true) fun _ => rfl]
    rfl
  | nftables =>
    cases hv6 : p.useIPv6 <;>
      simp [regionSection, bulkSection, Compiler.regionRanges, Line.isIPv6, Policy.onlyIPv4, hv6]

end Variant

end Script

namespace Compiler

open Script

/-- Without the lines about IPv6 a body is that of the policy about IPv4 alone. -/
theorem filter_not_isIPv6_body (variant : Variant) (p : Policy) :
    (variant.body p (ranges variant p)).filter (!·.isIPv6) =
      variant.body p.onlyIPv4 (ranges variant p.onlyIPv4) := by
  have hsections : ((ranges variant p).flatMap (variant.regionSection p)).filter (!·.isIPv6) =
      (ranges variant p.onlyIPv4).flatMap (variant.regionSection p.onlyIPv4) := by
    rw [ranges, ranges, List.flatMap_map, List.flatMap_map, List.filter_flatMap]
    simp only [Variant.filter_not_isIPv6_regionSection]
    rfl
  rw [Variant.body_eq, Variant.body_eq, List.filter_append, List.filter_append,
    Variant.filter_not_isIPv6_opening, hsections, Variant.filter_not_isIPv6_closing]

theorem filter_not_isIPv6_statements (variant : Variant) (p : Policy) :
    (statements variant p).filter (!·.isIPv6) = statements variant p.onlyIPv4 := by
  rw [statements, statements, List.filter_append, List.filter_filter, ← filter_not_isIPv6_body,
    List.filter_filter]
  congr 2
  funext l
  exact Bool.and_comm _ _

/-- The statements of a script, as written, without those that name an IPv6 object. -/
theorem filter_not_namesIPv6_significantLines (t u : Timestamp) (variant : Variant) (p : Policy) :
    (Parity.significantLines (text (script t variant p))).filter (¬NamesIPv6 ·) =
      Parity.significantLines (text (script u variant p.onlyIPv4)) := by
  have hnames : ∀ l ∈ statements variant p,
      decide (¬NamesIPv6 l.text.toList) = !l.isIPv6 := by
    intro l hl
    have hiff : NamesIPv6 l.text.toList ↔ l.isIPv6 = true :=
      l.exists_name_isInfix_iff (isUnmarked_statements variant p l hl)
    simp [hiff]
  rw [significantLines_script, significantLines_script, List.filter_map,
    ← filter_not_isIPv6_statements]
  exact congrArg (List.map _) (List.filter_congr hnames)

/-! ## Rules -/

theorem withoutIPv6_rule (action : Action) (variant : Variant) (p : Policy) (region : String)
    (index : Nat) :
    (rule action (regionRanges variant p region) index).withoutIPv6 =
      rule action (regionRanges variant p.onlyIPv4 region) index := by
  have hv6 : cidrs variant p.onlyIPv4 region .v6 = [] := rfl
  have hcidrs : (rule action (regionRanges variant p region) index).part .v4 =
      (rule action (regionRanges variant p.onlyIPv4 region) index).cidrs := by
    rw [cidrs_rule, part_rule, hv6, List.append_nil]
    rfl
  rw [RegionRule.withoutIPv6, hcidrs]
  rfl

/-- Without the IPv6 part of each rule a ruleset is that of the policy about IPv4 alone. -/
theorem withoutIPv6_ruleset (variant : Variant) (p : Policy) :
    (ruleset p.action (ranges variant p)).withoutIPv6 =
      ruleset p.onlyIPv4.action (ranges variant p.onlyIPv4) := by
  have hrules := rules_ruleset variant p.onlyIPv4
  refine congrArg Ruleset.mk (Eq.trans ?_ hrules.symm)
  rw [rules_ruleset]
  apply List.ext_getElem
  · simp
    rfl
  · intro i _ _
    simp only [List.getElem_map, List.getElem_mapIdx, withoutIPv6_rule]
    rfl

/-! ## Compiled policies -/

/-- IPv6 is additive. What a policy compiles to, without the statements that name an IPv6 object and
without the IPv6 part of each rule, is what the policy about IPv4 alone compiles to, at any time.
The IPv6 part of a rule comes after all its IPv4 texts. -/
theorem withoutIPv6_of_compile {t : Timestamp} {p : Policy} {c : CompiledPolicy}
    (h : compile t p = .ok c) (u : Timestamp) :
    ∃ d, compile u p.onlyIPv4 = .ok d ∧
      withoutIPv6 (Parity.normalize c.script) = Parity.normalize d.script ∧
      c.ruleset.withoutIPv6 = d.ruleset ∧
      ∀ rule ∈ c.ruleset.rules, rule.cidrs = rule.part .v4 ++ rule.part .v6 := by
  obtain ⟨variant, hvariant, rfl⟩ := compile_eq_ok_iff.1 h
  have hvariant' : Variant.ofPolicy p.onlyIPv4 = .ok variant := hvariant
  refine ⟨_, compile_eq_ok_iff.2 ⟨variant, hvariant', rfl⟩, ?_, withoutIPv6_ruleset variant p, ?_⟩
  · dsimp only
    rw [withoutIPv6_normalize, filter_not_namesIPv6_significantLines t u, Parity.normalize]
  · intro r hr
    obtain ⟨code, index, rfl⟩ := exists_rule_of_mem_rules hr
    exact (followsLayout_rule hvariant code.text index).cidrs_eq

/-- Two regions in sets of `nft`, with and without IPv6. -/
theorem withoutIPv6_of_compile_nftables :
    ∃ c d,
      compile ⟨0, 0⟩
        { regions := [⟨'U', 'S', rfl, rfl⟩, .default], backend := .nftables, useIPv6 := true } =
          .ok c ∧
      compile ⟨1, 0⟩
        { regions := [⟨'U', 'S', rfl, rfl⟩, .default], backend := .nftables } = .ok d ∧
      withoutIPv6 (Parity.normalize c.script) = Parity.normalize d.script ∧
      c.ruleset.withoutIPv6 = d.ruleset := by
  have hcompile := (compile_eq_ok_iff (t := ⟨0, 0⟩) (p :=
    { regions := [⟨'U', 'S', rfl, rfl⟩, .default], backend := .nftables, useIPv6 := true })).2
    ⟨.nftables, rfl, rfl⟩
  obtain ⟨d, hd, hscript, hruleset, -⟩ := withoutIPv6_of_compile hcompile ⟨1, 0⟩
  exact ⟨_, d, hcompile, hd, hscript, hruleset⟩

end Compiler

end GeoPolicy
