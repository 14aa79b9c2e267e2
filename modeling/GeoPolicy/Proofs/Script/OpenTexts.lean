import GeoPolicy.Proofs.Script.Rules

/-!
# Open places of lines

Lines are fixed but for a few open places. In a generated body these hold one of three comments, a
region code, synthesized ranges or the verb of the action, and nothing else.

## Main definitions

* `Script.Line.openTexts` — the texts in the open places of a line.
* `Script.IsBodyText` — the texts that stand in the open places of a body.
-/

namespace GeoPolicy

namespace Script

/-- The texts in the open places of a line. -/
def Line.openTexts : Line → List String
  | comment text => [text]
  | heading _ region => [region]
  | requireCommand command => [command]
  | addToSet _ cidr => [cidr]
  | matchSet _ verb => [verb]
  | matchRange _ cidr verb => [cidr, verb]
  | addElements _ cidrs => cidrs
  | addNftRule _ verb => [verb]
  | report _ engine => [engine]
  | _ => []

/-- The comments in bodies. -/
def bodyComments : List String :=
  ["Create and populate optimized ipsets", "Apply iptables rules referencing the sets",
    "Insert into INPUT chain if not present"]

/-- The texts that stand in the open places of a body. -/
inductive IsBodyText (action : Action) : String → Prop where
  | comment {s : String} (h : s ∈ bodyComments) : IsBodyText action s
  | region (code : RegionCode) : IsBodyText action code.text
  | range (family : AddressFamily) (seed i : Nat) : IsBodyText action (Synthesis.cidr family seed i)
  | verb (backend : Backend) : IsBodyText action (action.verb backend)

theorem isBodyText_opening (variant : Variant) (p : Policy) :
    ∀ l ∈ variant.opening p, ∀ s ∈ l.openTexts, IsBodyText p.action s := by
  have hcreate : IsBodyText p.action "Create and populate optimized ipsets" :=
    .comment List.mem_cons_self
  cases hv6 : p.useIPv6 <;> cases hset : p.useAddressSet <;> cases variant <;>
    simp [Variant.opening, Variant.preflight, Variant.families, Variant.freshSet,
      Variant.freshChain, Line.openTexts, hv6, hset, hcreate]

theorem isBodyText_of_mem_synthesize {action : Action} {region : String} {family : AddressFamily}
    {count : Nat} {x : AddressRange} (h : x ∈ synthesize region family count) :
    IsBodyText action x.cidr := by
  obtain ⟨i, hi⟩ := exists_cidr_of_mem_synthesize h
  exact hi ▸ .range _ _ i

theorem isBodyText_regionSection (variant : Variant) (p : Policy) (code : RegionCode) :
    ∀ l ∈ variant.regionSection p (Compiler.regionRanges variant p code.text),
      ∀ s ∈ l.openTexts, IsBodyText p.action s := by
  have hcode : IsBodyText p.action code.text := .region code
  have hverb : IsBodyText p.action p.action.filterVerb := .verb .iptables
  have hv4 : ∀ x ∈ (Compiler.regionRanges variant p code.text).v4, IsBodyText p.action x.cidr :=
    fun x hx => isBodyText_of_mem_synthesize hx
  have hv6 : ∀ x ∈ (Compiler.regionRanges variant p code.text).v6, IsBodyText p.action x.cidr := by
    unfold Compiler.regionRanges
    split
    · exact fun x hx => isBodyText_of_mem_synthesize hx
    · exact List.forall_mem_nil _
  cases variant with
  | addressSets =>
    simp only [Variant.regionSection, Variant.setSection, List.forall_mem_append,
      List.forall_mem_map, List.forall_mem_singleton, Line.openTexts]
    exact ⟨⟨⟨hcode, hv4⟩, hv6⟩, List.forall_mem_nil _⟩
  | singleRules =>
    simp only [Variant.regionSection, Variant.ruleSection, List.forall_mem_append,
      List.forall_mem_map, List.forall_mem_singleton, List.forall_mem_cons, Line.openTexts]
    exact ⟨⟨hcode, fun x hx => ⟨hv4 x hx, hverb⟩⟩, fun x hx => ⟨hv6 x hx, hverb⟩⟩
  | nftables =>
    simp only [Variant.regionSection, Variant.bulkSection, List.forall_mem_append,
      List.forall_mem_cons, Line.openTexts, List.forall_mem_map]
    refine ⟨⟨⟨⟨hcode, List.forall_mem_nil _⟩, hv4, List.forall_mem_nil _⟩, ?_⟩,
      List.forall_mem_nil _, List.forall_mem_nil _⟩
    split
    · exact List.forall_mem_singleton.2 (List.forall_mem_map.2 hv6)
    · exact List.forall_mem_nil _

theorem isBodyText_closing (variant : Variant) (p : Policy) :
    ∀ l ∈ variant.closing p, ∀ s ∈ l.openTexts, IsBodyText p.action s := by
  have happly : IsBodyText p.action "Apply iptables rules referencing the sets" :=
    .comment (by simp [bodyComments])
  have hinsert : IsBodyText p.action "Insert into INPUT chain if not present" :=
    .comment (by simp [bodyComments])
  have hfilter : IsBodyText p.action p.action.filterVerb := .verb .iptables
  have hnft : IsBodyText p.action p.action.nftVerb := .verb .nftables
  cases hv6 : p.useIPv6 <;> cases variant <;>
    simp [Variant.closing, Variant.links, Variant.families, Variant.freshChain, Line.openTexts,
      hv6, happly, hinsert, hfilter, hnft]

/-- What stands in the open places of a generated body. -/
theorem isBodyText_body (variant : Variant) (p : Policy) :
    ∀ l ∈ variant.body p (Compiler.ranges variant p), ∀ s ∈ l.openTexts,
      IsBodyText p.action s := by
  rw [Variant.body_eq]
  simp only [List.forall_mem_append, List.forall_mem_flatMap, Compiler.ranges, Policy.targets,
    List.forall_mem_map]
  exact ⟨⟨isBodyText_opening variant p, fun code _ => isBodyText_regionSection variant p code⟩,
    isBodyText_closing variant p⟩

end Script

end GeoPolicy
