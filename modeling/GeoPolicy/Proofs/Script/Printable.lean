import GeoPolicy.Proofs.Script.OpenTexts

/-!
# Printable scripts

Every character of a generated script is printable ASCII or a line feed. The fixed parts of lines
are, and so is all that can stand in their open places.

## Main definitions

* `Text.IsPrintable` — a text of printable ASCII characters.
-/

namespace GeoPolicy

namespace Text

/-- A text of printable ASCII characters. -/
def IsPrintable (s : List Char) : Prop :=
  ∀ c ∈ s, ' ' ≤ c ∧ c ≤ '~'

instance (s : List Char) : Decidable (IsPrintable s) :=
  List.decidableBAll (fun c => ' ' ≤ c ∧ c ≤ '~') s

theorem IsPrintable.append {s t : List Char} (hs : IsPrintable s) (ht : IsPrintable t) :
    IsPrintable (s ++ t) :=
  List.forall_mem_append.2 ⟨hs, ht⟩

theorem IsPrintable.intercalate {sep : List Char} (hsep : IsPrintable sep) {ls : List (List Char)}
    (h : ∀ s ∈ ls, IsPrintable s) : IsPrintable (List.intercalate sep ls) := by
  intro c hc
  by_contra hprintable
  refine not_mem_intercalate ls (fun hmem => hprintable (hsep c hmem)) ?_ hc
  exact fun s hs hmem => hprintable (h s hs c hmem)

theorem isPrintable_of_mem_digitChars {s : List Char} (h : ∀ c ∈ s, c ∈ digitChars) :
    IsPrintable s := by
  have hdigits : IsPrintable digitChars := by decide
  exact fun c hc => hdigits c (h c hc)

theorem isPrintable_toDigits (n : Nat) : IsPrintable (Nat.toDigits 10 n) :=
  isPrintable_of_mem_digitChars mem_digitChars_of_mem_toDigits

theorem isPrintable_paddedDigits (width n : Nat) : IsPrintable (paddedDigits 10 width n) :=
  isPrintable_of_mem_digitChars mem_digitChars_of_mem_paddedDigits

end Text

namespace Script

open Text

/-! ## Lines -/

/-- A line is printable if the texts in its open places are. -/
theorem Line.isPrintable_text (l : Line) (h : ∀ s ∈ l.openTexts, IsPrintable s.toList) :
    IsPrintable l.text.toList := by
  rw [toList_text]
  cases l with
  | interpreter | blank => decide
  | comment text =>
    have htext := h text List.mem_cons_self
    exact .append (by decide) htext
  | heading style region =>
    have hregion := h region List.mem_cons_self
    cases style
    all_goals exact .append (by decide) hregion
  | requireCommand command =>
    have hcommand := h command List.mem_cons_self
    refine .append (.append (.append (.append (.append (.append ?_ hcommand) ?_)
      (.append (.append ?_ hcommand) ?_)) ?_) ?_) ?_
    all_goals decide
  | warnWithoutIPv6 | requireIpset | addTable | flushTable | addInputChain => decide +kernel
  | createSet family | flushSet family | createChain family | flushChain family | linkChain family
  | addNftSet family =>
    cases family
    all_goals decide
  | addToSet family word | matchSet family word | addNftRule family word =>
    have hword := h word List.mem_cons_self
    cases family
    all_goals exact .append (by decide) hword
  | matchRange family cidr verb =>
    have hcidr := h cidr List.mem_cons_self
    have hverb := h verb (List.mem_cons_of_mem _ List.mem_cons_self)
    cases family
    all_goals exact .append (.append (.append (by decide) hcidr) (by decide)) hverb
  | addElements family cidrs =>
    have hcidrs : IsPrintable (List.intercalate [',', ' '] (cidrs.map String.toList)) :=
      .intercalate (by decide) (List.forall_mem_map.2 h)
    cases family
    all_goals exact .append (.append (by decide) hcidrs) (by decide)
  | report regions engine =>
    have hengine := h engine List.mem_cons_self
    refine .append (.append (.append (.append ?_ (isPrintable_toDigits regions)) ?_) hengine) ?_
    all_goals decide

/-! ## Open places -/

theorem isPrintable_region (r : RegionCode) : IsPrintable r.text.toList := by
  have hchar : ∀ c : Char, c.isUpper = true → ' ' ≤ c ∧ c ≤ '~' := by
    intro c hc
    have hrange := (Text.isUpper_iff_toNat c).1 hc
    exact ⟨show 32 ≤ c.toNat by omega, show c.toNat ≤ 126 by omega⟩
  rw [RegionCode.text, String.toList_ofList]
  exact List.forall_mem_cons.2
    ⟨hchar _ r.first_isUpper, List.forall_mem_singleton.2 (hchar _ r.second_isUpper)⟩

theorem isPrintable_cidr (family : AddressFamily) (seed i : Nat) :
    IsPrintable (Synthesis.cidr family seed i).toList := by
  have hchars : IsPrintable Synthesis.rangeChars := by decide
  exact fun c hc => hchars c (Synthesis.mem_rangeChars_of_mem_cidr family seed i c hc)

theorem isPrintable_verb (action : Action) (backend : Backend) :
    IsPrintable (action.verb backend).toList := by
  cases action <;> cases backend
  all_goals decide

theorem isPrintable_timestamp (t : Timestamp) : IsPrintable t.text.toList := by
  have hyear : ∀ year : Int, IsPrintable (Timestamp.yearText year) := by
    intro year
    unfold Timestamp.yearText
    split
    · exact isPrintable_paddedDigits _ _
    split
    · exact List.forall_mem_cons.2 ⟨by decide, isPrintable_paddedDigits _ _⟩
    · exact List.forall_mem_cons.2 ⟨by decide, isPrintable_paddedDigits _ _⟩
  unfold Timestamp.text
  rw [String.toList_ofList]
  refine .append (.append (.append (.append (.append (.append (.append (.append (.append (.append
    (.append (.append (.append (hyear _) ?_) ?_) ?_) ?_) ?_) ?_) ?_) ?_) ?_) ?_) ?_) ?_) ?_
  all_goals first | exact isPrintable_paddedDigits _ _ | decide

theorem isPrintable_header (t : Timestamp) (p : Policy) :
    ∀ l ∈ Compiler.header t p, ∀ s ∈ l.openTexts, IsPrintable s.toList := by
  have hregions : IsPrintable (String.intercalate ", " p.targets).toList := by
    rw [String.toList_intercalate, String.toList_ofList]
    refine .intercalate (by decide) ?_
    rw [List.forall_mem_map, Policy.targets, List.forall_mem_map]
    exact fun r _ => isPrintable_region r
  have hname : IsPrintable p.backend.name.toList := by
    cases p.backend
    all_goals decide
  have hcommand : IsPrintable p.backend.command.toList := by
    cases p.backend
    all_goals decide
  have hprotocols : IsPrintable (if p.useIPv6 then "IPv4, IPv6" else "IPv4").toList := by
    split
    all_goals decide
  simp only [Compiler.header, List.forall_mem_cons, Line.openTexts]
  refine ⟨List.forall_mem_nil _, ⟨?_, List.forall_mem_nil _⟩, ⟨?_, List.forall_mem_nil _⟩,
    ⟨?_, List.forall_mem_nil _⟩, ⟨?_, List.forall_mem_nil _⟩, List.forall_mem_nil _,
    ⟨hcommand, List.forall_mem_nil _⟩, List.forall_mem_nil _⟩
  · decide
  · rw [toList_targetsComment]
    exact .append (.append (.append (by decide) hregions) (by decide)) hname
  · rw [toList_protocolsComment]
    exact .append (.append (.append (by decide) hprotocols) (by decide)) (isPrintable_toDigits _)
  · rw [toList_generatedComment]
    exact .append (by decide) (isPrintable_timestamp t)

theorem isPrintable_of_isBodyText {action : Action} {s : String} (h : IsBodyText action s) :
    IsPrintable s.toList := by
  cases h with
  | comment h =>
    have hcomments : ∀ s ∈ bodyComments, IsPrintable s.toList := by decide
    exact hcomments s h
  | region code => exact isPrintable_region code
  | range family seed i => exact isPrintable_cidr family seed i
  | verb backend => exact isPrintable_verb action backend

theorem isPrintable_footer (variant : Variant) (p : Policy) :
    ∀ l ∈ Compiler.footer variant p, ∀ s ∈ l.openTexts, IsPrintable s.toList := by
  have hlabel : IsPrintable variant.label.toList := by
    cases variant
    all_goals decide
  have hstack : IsPrintable (if p.useIPv6 then " (Dual-Stack)" else "").toList := by
    split
    all_goals decide
  have hengine := hlabel.append hstack
  rw [← String.toList_append] at hengine
  simp only [Compiler.footer, List.forall_mem_cons, Line.openTexts]
  exact ⟨List.forall_mem_nil _, ⟨hengine, List.forall_mem_nil _⟩, List.forall_mem_nil _⟩

/-- Generated scripts are printable, line by line. -/
theorem isPrintable_script (t : Timestamp) (variant : Variant) (p : Policy) :
    ∀ l ∈ Compiler.script t variant p, IsPrintable l.text.toList := by
  have hbody : ∀ l ∈ variant.body p (Compiler.ranges variant p), ∀ s ∈ l.openTexts,
      IsPrintable s.toList := fun l hl s hs =>
    isPrintable_of_isBodyText (isBodyText_body variant p l hl s hs)
  have hlines : ∀ l ∈ Compiler.script t variant p, ∀ s ∈ l.openTexts, IsPrintable s.toList := by
    rw [Compiler.script, List.forall_mem_append, List.forall_mem_append]
    exact ⟨⟨isPrintable_header t p, hbody⟩, isPrintable_footer variant p⟩
  exact fun l hl => l.isPrintable_text (hlines l hl)

end Script

end GeoPolicy
