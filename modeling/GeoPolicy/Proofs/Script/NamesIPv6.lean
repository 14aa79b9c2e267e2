import GeoPolicy.Proofs.Parity
import GeoPolicy.Proofs.Script.OpenTexts
import Mathlib.Data.List.Chain

/-!
# Names of IPv6 objects

The tool and the sets for IPv6 have names of their own. A line has one of them somewhere in its text
exactly if it is a line about IPv6, and a script has such statements exactly if its policy is about
IPv6.

## Main definitions

* `Text.IsUnmarked` — a text in which none of the names can stand.
* `Script.namesIPv6` — the names of the tool and of the sets.
* `Script.Line.isIPv6` — the lines about IPv6.
* `Script.Line.nameIPv6` — the name that such a line has.
-/

namespace GeoPolicy

/-! ## Marks -/

namespace Text

/-- A text without a six after one of the letters that stand before it in names. -/
def IsUnmarked (s : List Char) : Prop :=
  s.IsChain fun a b => a ∉ ['p', 'v'] ∨ b ≠ '6'

instance (s : List Char) : Decidable (IsUnmarked s) :=
  inferInstanceAs (Decidable (s.IsChain _))

theorem IsUnmarked.append_of_last {s t : List Char} (hs : IsUnmarked s) (ht : IsUnmarked t)
    (h : s.getLast?.all (· ∉ ['p', 'v']) = true) : IsUnmarked (s ++ t) := by
  refine List.isChain_append.2 ⟨hs, ht, fun a ha b _ => .inl ?_⟩
  rw [Option.mem_def.1 ha] at h
  exact of_decide_eq_true h

theorem IsUnmarked.append_of_head {s t : List Char} (hs : IsUnmarked s) (ht : IsUnmarked t)
    (h : t.head?.all (· ≠ '6') = true) : IsUnmarked (s ++ t) := by
  refine List.isChain_append.2 ⟨hs, ht, fun a _ b hb => .inr ?_⟩
  rw [Option.mem_def.1 hb] at h
  exact of_decide_eq_true h

/-- What joins two texts keeps their ends apart. -/
theorem IsUnmarked.join {s t u : List Char} (hs : IsUnmarked s) (ht : IsUnmarked t)
    (hu : IsUnmarked u) (hfirst : t.head?.any (· ≠ '6') = true)
    (hlast : t.getLast?.all (· ∉ ['p', 'v']) = true) : IsUnmarked (s ++ t ++ u) := by
  rw [List.append_assoc]
  refine hs.append_of_head (ht.append_of_last hu hlast) ?_
  cases t with
  | nil => exact Bool.noConfusion hfirst
  | cons c t => exact hfirst

theorem isUnmarked_of_not_mem {s : List Char} (hp : 'p' ∉ s) (hv : 'v' ∉ s) : IsUnmarked s := by
  induction s with
  | nil => exact .nil
  | cons c s ih =>
    rw [List.mem_cons, not_or] at hp hv
    have hc : c ∉ ['p', 'v'] := by simp [Ne.symm hp.1, Ne.symm hv.1]
    exact IsUnmarked.append_of_last (s := [c]) (.singleton c) (ih hp.2 hv.2) (decide_eq_true hc)

theorem isUnmarked_intercalate {ls : List (List Char)} (h : ∀ s ∈ ls, IsUnmarked s) :
    IsUnmarked (List.intercalate [',', ' '] ls) := by
  induction ls with
  | nil => exact .nil
  | cons s ls ih =>
    obtain ⟨hs, hls⟩ := List.forall_mem_cons.1 h
    cases ls with
    | nil => simpa using hs
    | cons t ls =>
      rw [List.intercalate_cons_cons, List.append_assoc]
      exact hs.append_of_head (.append_of_last (by decide) (ih hls) rfl) rfl

end Text

namespace Script

open Text

/-! ## Lines -/

/-- The names of the tool and of the sets for IPv6. -/
def namesIPv6 : List String :=
  ["ip6tables", "geoguard_v6", "blocklist_v6"]

/-- The lines about IPv6. -/
def Line.isIPv6 : Line → Bool
  | warnWithoutIPv6 => true
  | createSet family | flushSet family | addToSet family _ | createChain family
  | flushChain family | matchSet family _ | matchRange family _ _ | linkChain family
  | addNftSet family | addElements family _ | addNftRule family _ => family = .v6
  | _ => false

theorem not_isInfix_of_isUnmarked {name : String} {line : List Char} (hname : name ∈ namesIPv6)
    (h : IsUnmarked line) : ¬name.toList <:+: line := by
  have hmarked : ∀ name ∈ namesIPv6, ¬IsUnmarked name.toList := by decide
  intro hinfix
  have hunmarked : IsUnmarked name.toList := List.IsChain.infix h hinfix
  exact hmarked name hname hunmarked

/-- No other line has a mark, unless it stands in an open place. -/
theorem Line.isUnmarked_text (l : Line) (hl : l.isIPv6 = false)
    (h : ∀ s ∈ l.openTexts, IsUnmarked s.toList) : IsUnmarked l.text.toList := by
  rw [toList_text]
  cases l with
  | warnWithoutIPv6 => exact Bool.noConfusion hl
  | interpreter | blank | requireIpset | addTable | flushTable | addInputChain => decide +kernel
  | comment text =>
    have htext := h text List.mem_cons_self
    exact .append_of_last (by decide) htext rfl
  | heading style region =>
    have hregion := h region List.mem_cons_self
    cases style
    all_goals exact .append_of_last (by decide) hregion rfl
  | requireCommand command =>
    have hcommand := h command List.mem_cons_self
    have hmessage : IsUnmarked (spelled "Error: " ++ command.toList ++ spelled " not found.") :=
      .append_of_head (.append_of_last (by decide) hcommand rfl) (by decide) rfl
    have hstart : IsUnmarked (spelled "if ! command -v " ++ command.toList) :=
      .append_of_last (by decide) hcommand rfl
    refine .append_of_head (.append_of_head (.append_of_head
      (hstart.join ?_ hmessage rfl rfl) ?_ rfl) ?_ rfl) ?_ rfl
    all_goals decide
  | report regions engine =>
    have hengine := h engine List.mem_cons_self
    have hregions : IsUnmarked (Nat.toDigits 10 regions) := by
      have hdigits : ∀ c ∈ Nat.toDigits 10 regions, c ∈ digitChars :=
        mem_digitChars_of_mem_toDigits
      exact isUnmarked_of_not_mem (fun hp => absurd (hdigits _ hp) (by decide))
        fun hv => absurd (hdigits _ hv) (by decide)
    have hcount : IsUnmarked (spelled "echo \"[GeoGuard] Policy for " ++
        Nat.toDigits 10 regions) :=
      .append_of_last (by decide) hregions rfl
    refine .append_of_head (hcount.join ?_ hengine rfl rfl) ?_ rfl
    all_goals decide
  | createSet family | flushSet family | createChain family | flushChain family | linkChain family
  | addNftSet family =>
    cases family with
    | v6 => exact Bool.noConfusion hl
    | v4 => decide +kernel
  | addToSet family word | matchSet family word | addNftRule family word =>
    have hword := h word List.mem_cons_self
    cases family with
    | v6 => exact Bool.noConfusion hl
    | v4 => exact .append_of_last (by decide +kernel) hword rfl
  | matchRange family cidr verb =>
    have hcidr := h cidr List.mem_cons_self
    have hverb := h verb (List.mem_cons_of_mem _ List.mem_cons_self)
    cases family with
    | v6 => exact Bool.noConfusion hl
    | v4 =>
      exact .join (.append_of_last (by decide) hcidr rfl) (by decide) hverb rfl rfl
  | addElements family cidrs =>
    have hcidrs := isUnmarked_intercalate (List.forall_mem_map.2 h)
    cases family with
    | v6 => exact Bool.noConfusion hl
    | v4 => exact .append_of_head (.append_of_last (by decide) hcidrs rfl) (by decide) rfl

/-- The name that a line about IPv6 has in it. -/
def Line.nameIPv6 : Line → String
  | createSet _ | flushSet _ | addToSet _ _ => "geoguard_v6"
  | addNftSet _ | addElements _ _ | addNftRule _ _ => "blocklist_v6"
  | _ => "ip6tables"

theorem Line.nameIPv6_mem (l : Line) : l.nameIPv6 ∈ namesIPv6 := by
  cases l <;> simp [nameIPv6, namesIPv6]

theorem isInfix_append_of_left {s t u : List Char} (h : s <:+: t) : s <:+: t ++ u :=
  h.trans (List.prefix_append t u).isInfix

/-- A line about IPv6 has its name before its first open place. -/
theorem Line.nameIPv6_isInfix_text (l : Line) (hl : l.isIPv6 = true) :
    l.nameIPv6.toList <:+: l.text.toList := by
  rw [toList_text]
  cases l with
  | interpreter | blank | comment | heading | requireCommand | requireIpset | addTable
  | flushTable | addInputChain | report => exact Bool.noConfusion hl
  | warnWithoutIPv6 => decide
  | createSet family | flushSet family | createChain family | flushChain family | linkChain family
  | addNftSet family =>
    obtain rfl : family = .v6 := of_decide_eq_true hl
    decide
  | addToSet family | matchSet family | addNftRule family =>
    obtain rfl : family = .v6 := of_decide_eq_true hl
    dsimp only [nameIPv6]
    exact isInfix_append_of_left (by decide)
  | matchRange family =>
    obtain rfl : family = .v6 := of_decide_eq_true hl
    dsimp only [nameIPv6]
    exact isInfix_append_of_left (isInfix_append_of_left (isInfix_append_of_left
      (by decide)))
  | addElements family =>
    obtain rfl : family = .v6 := of_decide_eq_true hl
    dsimp only [nameIPv6]
    exact isInfix_append_of_left (isInfix_append_of_left (by decide))

/-- Whether a line has one of the names, told from the line itself. -/
theorem Line.exists_name_isInfix_iff (l : Line) (h : ∀ s ∈ l.openTexts, IsUnmarked s.toList) :
    (∃ name ∈ namesIPv6, name.toList <:+: l.text.toList) ↔ l.isIPv6 = true := by
  constructor
  · rintro ⟨name, hname, hinfix⟩
    by_contra hl
    rw [Bool.not_eq_true] at hl
    exact not_isInfix_of_isUnmarked hname (l.isUnmarked_text hl h) hinfix
  · exact fun hl => ⟨l.nameIPv6, l.nameIPv6_mem, l.nameIPv6_isInfix_text hl⟩

/-! ## Statements of a policy -/

theorem isUnmarked_of_isBodyText {action : Action} {s : String} (h : IsBodyText action s) :
    IsUnmarked s.toList := by
  cases h with
  | comment h =>
    have hcomments : ∀ s ∈ bodyComments, IsUnmarked s.toList := by decide
    exact hcomments s h
  | region code =>
    have hupper : ∀ c ∈ code.chars, c.isUpper = true := List.forall_mem_cons.2
      ⟨code.first_isUpper, List.forall_mem_singleton.2 code.second_isUpper⟩
    rw [RegionCode.text, String.toList_ofList]
    exact isUnmarked_of_not_mem (fun hp => absurd (hupper _ hp) (by decide))
      fun hv => absurd (hupper _ hv) (by decide)
  | range family seed i =>
    have hchars := Synthesis.mem_rangeChars_of_mem_cidr family seed i
    exact isUnmarked_of_not_mem (fun hp => absurd (hchars _ hp) (by decide))
      fun hv => absurd (hchars _ hv) (by decide)
  | verb backend =>
    cases action <;> cases backend
    all_goals decide

theorem isUnmarked_statements (variant : Variant) (p : Policy) :
    ∀ l ∈ Compiler.statements variant p, ∀ s ∈ l.openTexts, IsUnmarked s.toList := by
  have hcommand : IsUnmarked p.backend.command.toList := by
    cases p.backend
    all_goals decide
  rw [Compiler.statements, List.forall_mem_append, List.forall_mem_singleton]
  refine ⟨List.forall_mem_singleton.2 hcommand, fun l hl s hs => ?_⟩
  exact isUnmarked_of_isBodyText (isBodyText_body variant p l (List.mem_of_mem_filter hl) s hs)

/-- The first line about IPv6 stands before the sections. -/
theorem exists_isIPv6_opening (variant : Variant) {p : Policy} (h : p.useIPv6 = true) :
    ∃ l ∈ variant.opening p, l.isStatement = true ∧ l.isIPv6 = true := by
  cases variant with
  | addressSets => exact ⟨.createSet .v6, by simp [Variant.opening, Variant.families,
      Variant.freshSet, h], rfl, rfl⟩
  | singleRules => exact ⟨.createChain .v6, by simp [Variant.opening, Variant.families,
      Variant.freshChain, h], rfl, rfl⟩
  | nftables => exact ⟨.addNftSet .v6, by simp [Variant.opening, Variant.families, h], rfl, rfl⟩

theorem isIPv6_body_eq_false {variant : Variant} {p : Policy} (h : p.useIPv6 = false) :
    ∀ l ∈ variant.body p (Compiler.ranges variant p), l.isIPv6 = false := by
  have hsection : ∀ code : RegionCode,
      ∀ l ∈ variant.regionSection p (Compiler.regionRanges variant p code.text),
        l.isIPv6 = false := by
    intro code
    cases variant <;> simp [Variant.regionSection, Variant.setSection, Variant.ruleSection,
      Variant.bulkSection, Compiler.regionRanges, Line.isIPv6, h, or_imp, forall_and]
  have hopening : ∀ l ∈ variant.opening p, l.isIPv6 = false := by
    cases hset : p.useAddressSet <;> cases variant <;>
      simp [Variant.opening, Variant.preflight, Variant.families, Variant.freshSet,
        Variant.freshChain, Line.isIPv6, h, hset]
  have hclosing : ∀ l ∈ variant.closing p, l.isIPv6 = false := by
    cases variant <;>
      simp [Variant.closing, Variant.links, Variant.families, Variant.freshChain, Line.isIPv6, h]
  rw [Variant.body_eq]
  simp only [List.forall_mem_append, List.forall_mem_flatMap, Compiler.ranges, Policy.targets,
    List.forall_mem_map]
  exact ⟨⟨hopening, fun code _ => hsection code⟩, hclosing⟩

theorem exists_isIPv6_statements_iff (variant : Variant) (p : Policy) :
    (∃ l ∈ Compiler.statements variant p, l.isIPv6 = true) ↔ p.useIPv6 = true := by
  constructor
  · rintro ⟨l, hl, hv6⟩
    by_contra h
    rw [Bool.not_eq_true] at h
    rw [Compiler.statements, List.mem_append, List.mem_singleton] at hl
    obtain rfl | hl := hl
    · exact absurd hv6 Bool.false_ne_true
    · have hbody := isIPv6_body_eq_false h l (List.mem_of_mem_filter hl)
      exact absurd (hbody.symm.trans hv6) Bool.false_ne_true
  · intro h
    obtain ⟨l, hl, hstatement, hv6⟩ := exists_isIPv6_opening variant h
    refine ⟨l, List.mem_append_right _ (List.mem_filter.2 ⟨?_, hstatement⟩), hv6⟩
    rw [Variant.body_eq]
    exact List.mem_append_left _ (List.mem_append_left _ hl)

/-- A script has statements with the names of IPv6 objects exactly if its policy is about IPv6. -/
theorem exists_name_isInfix_significantLines_iff (t : Timestamp) (variant : Variant)
    (p : Policy) :
    (∃ line ∈ Parity.significantLines (text (Compiler.script t variant p)),
      ∃ name ∈ namesIPv6, name.toList <:+: line) ↔ p.useIPv6 = true := by
  rw [Compiler.significantLines_script, ← exists_isIPv6_statements_iff variant p]
  simp only [List.mem_map, exists_exists_and_eq_and]
  refine exists_congr fun l => and_congr_right fun hl => ?_
  exact l.exists_name_isInfix_iff (isUnmarked_statements variant p l hl)

end Script

end GeoPolicy
