import GeoPolicy.Proofs.Script.Operations
import GeoPolicy.Proofs.Script.NamesIPv6

/-!
# Order of statements

A script makes each object before it uses it: a set or a chain is created, emptied, filled and then
used, and nothing empties it later. These are the stages of the object. A script runs through
them in order, with as many additions in the middle as there are ranges or regions.

## Main definitions

* `Script.Precedes` — one operation always comes before another.
* `Script.RunsInOrder` — operations that run through stages in order.
* `Script.setStages`, `Script.chainStages`, `Script.nftStages` — the stages of objects.
* `Script.Variant.creations` — the operations that make the objects of a family.
-/

namespace GeoPolicy

namespace Script

open Text

/-! ## Precedence -/

/-- Before every `e` there is a `d`, and after it there is none. -/
def Precedes (ops : List Operation) (d e : Operation) : Prop :=
  ∀ before after, ops = before ++ e :: after → d ∈ before ∧ d ∉ after

theorem precedes_of_not_mem {ops : List Operation} {d e : Operation} (h : e ∉ ops) :
    Precedes ops d e := by
  rintro before after rfl
  exact absurd (by simp) h

/-- A cut between all `d` and all `e`. -/
theorem precedes_append {ops es : List Operation} {d e : Operation} (hd : d ∈ ops) (he : e ∉ ops)
    (hd' : d ∉ es) : Precedes (ops ++ es) d e := by
  intro before after h
  obtain ⟨rest, rfl, rfl⟩ | ⟨rest, rfl, hrest⟩ := List.append_eq_append_iff.1 h
  · exact ⟨List.mem_append_left rest hd, fun hmem => hd' (by simp [hmem])⟩
  cases rest with
  | nil =>
    rw [List.append_nil] at hd
    have hes : es = e :: after := hrest.symm
    exact ⟨hd, fun hmem => hd' (by simp [hes, hmem])⟩
  | cons f rest =>
    rw [List.cons_append, List.cons.injEq] at hrest
    exact absurd (by simp [hrest.1]) he

/-- Other operations do not matter. -/
theorem Precedes.of_filter {ops : List Operation} {d e : Operation} {q : Operation → Bool}
    (hd : q d = true) (he : q e = true) (h : Precedes (ops.filter q) d e) : Precedes ops d e := by
  rintro before after rfl
  rw [List.filter_append, List.filter_cons_of_pos he] at h
  obtain ⟨hbefore, hafter⟩ := h _ _ rfl
  exact ⟨List.mem_of_mem_filter hbefore, fun hmem => hafter (List.mem_filter.2 ⟨hmem, hd⟩)⟩

/-- Stages are in order if they come one after another, each a number of times. -/
theorem pairwise_precedes_of_filter {stages ops : List Operation} (hnodup : stages.Nodup)
    {count : Operation → Nat} (hpos : ∀ d ∈ stages, 0 < count d)
    (h : ops.filter (· ∈ stages) = stages.flatMap fun d => List.replicate (count d) d) :
    stages.Pairwise (Precedes ops) := by
  -- The induction is on the stages that are still to come.
  have hsuffix : ∀ done rest, stages = done ++ rest → rest.Pairwise (Precedes ops) := by
    intro done rest hstages
    induction rest generalizing done with
    | nil => exact .nil
    | cons d rest ih =>
      refine List.pairwise_cons.2 ⟨fun e he => ?_, ih (done ++ [d]) (by simp [hstages])⟩
      have hd : d ∈ stages := by simp [hstages]
      have he' : e ∈ stages := by simp [hstages, he]
      refine .of_filter (q := (· ∈ stages)) (decide_eq_true hd) (decide_eq_true he') ?_
      rw [hstages, List.nodup_append, List.nodup_cons] at hnodup
      obtain ⟨-, ⟨hrest, -⟩, hdone⟩ := hnodup
      have hcount := hpos d hd
      rw [h, hstages, List.append_cons, List.flatMap_append]
      refine precedes_append ?_ ?_ ?_
      · simp [hcount.ne']
      · simp only [List.mem_flatMap, List.mem_append, List.mem_singleton, List.mem_replicate]
        rintro ⟨f, hf | rfl, -, rfl⟩
        · exact hdone _ hf _ (List.mem_cons_of_mem d he) rfl
        · exact hrest he
      · simp only [List.mem_flatMap, List.mem_replicate]
        rintro ⟨f, hf, -, rfl⟩
        exact hrest hf
  exact hsuffix [] stages rfl

/-! ## Stages -/

/-- Stages come in their order, and none or all of them come. -/
structure RunsInOrder (ops stages : List Operation) : Prop where
  ordered : stages.Pairwise (Precedes ops)
  complete : ∀ d ∈ stages, d ∈ ops → ∀ e ∈ stages, e ∈ ops

/-- Stages run in order if they come once each, one after another, but for one that is repeated. -/
theorem RunsInOrder.of_filter (earlier later : List Operation) {ops : List Operation}
    {d : Operation} {k : Nat} (hnodup : (earlier ++ d :: later).Nodup)
    (h : ops.filter (· ∈ earlier ++ d :: later) =
      earlier ++ List.replicate (k + 1) d ++ later) : RunsInOrder ops (earlier ++ d :: later) where
  ordered := by
    obtain ⟨-, hlater, hearlier⟩ := List.nodup_append.1 hnodup
    have honce : ∀ es : List Operation, (∀ e ∈ es, e ≠ d) →
        (es.flatMap fun e => List.replicate (if e = d then k + 1 else 1) e) = es := by
      intro es hes
      refine (List.flatMap_congr fun e he => ?_).trans (List.flatMap_singleton' es)
      rw [if_neg (hes e he), List.replicate_one]
    have hpos : ∀ e ∈ earlier ++ d :: later, 0 < if e = d then k + 1 else 1 := by
      intro e _
      split <;> omega
    refine pairwise_precedes_of_filter hnodup hpos ?_
    rw [h, List.flatMap_append, List.flatMap_cons, if_pos rfl, List.append_assoc,
      honce earlier fun e he => hearlier e he d List.mem_cons_self,
      honce later fun e he hd => (List.nodup_cons.1 hlater).1 (hd ▸ he)]
  complete := by
    intro _ _ _ e he
    have hmem : e ∈ ops.filter (· ∈ earlier ++ d :: later) := by
      rw [h]
      obtain he | rfl | he := by simpa only [List.mem_append, List.mem_cons] using he
      all_goals simp [*]
    exact List.mem_of_mem_filter hmem

/-- Stages of which none comes are in order, so one of them may be assumed to come. -/
theorem RunsInOrder.of_forall_mem {stages ops : List Operation}
    (h : ∀ d ∈ stages, d ∈ ops → RunsInOrder ops stages) : RunsInOrder ops stages := by
  by_cases hsome : ∃ d ∈ stages, d ∈ ops
  · obtain ⟨d, hd, hmem⟩ := hsome
    exact h d hd hmem
  · have hnone : ∀ d ∈ stages, d ∉ ops := fun d hd hmem => hsome ⟨d, hd, hmem⟩
    exact ⟨List.pairwise_of_forall_mem_list fun d _ e he => precedes_of_not_mem (hnone e he),
      fun d hd hmem => absurd hmem (hnone d hd)⟩

/-- The stages of an `ipset` set. -/
def setStages (set : String) : List Operation :=
  [.createSet set, .flushSet set, .addToSet set, .matchSet set]

/-- The stages of the chain of a tool. -/
def chainStages (tool : String) : List Operation :=
  [.createChain tool, .flushChain tool, .append tool, .link tool]

/-- The stages of an `nft` set, with those of the table and the chain around it. -/
def nftStages (set : String) : List Operation :=
  [.addTable, .flushTable, .addNftSet set, .addElements set, .addNftChain, .addNftRule ("@" ++ set)]

/-! ## Operations of generated scripts -/

namespace Variant

/-- What a statement for ranges of a family does. -/
def rangeOperation (variant : Variant) (family : AddressFamily) : Operation :=
  match variant with
  | addressSets => .addToSet (setName family)
  | singleRules => .append (tool family)
  | nftables => .addElements (nftSet family)

/-- The operations of the sections of a policy's script. -/
def sectionOperations (variant : Variant) (p : Policy) : List Operation :=
  (Compiler.ranges variant p).flatMap fun r => (variant.regionSection p r).flatMap Line.operations

/-- Each section does something for each family. -/
theorem mem_operations_regionSection_iff (variant : Variant) (p : Policy) (region : String)
    (d : Operation) :
    d ∈ (variant.regionSection p (Compiler.regionRanges variant p region)).flatMap
        Line.operations ↔
      ∃ f ∈ families p, d = variant.rangeOperation f := by
  have hranges : ∀ family count, 0 < count → ∃ x, x ∈ synthesize region family count := by
    intro family count hcount
    obtain ⟨more, hmore⟩ := exists_synthesize_eq_cons region family hcount
    exact ⟨_, hmore ▸ List.mem_cons_self⟩
  have hv4 := hranges .v4 _ variant.counts_v4_pos
  have hv6 := hranges .v6 _ variant.counts_v6_pos
  cases hp : p.useIPv6 <;> cases variant <;>
    simp [regionSection, setSection, ruleSection, bulkSection, Compiler.regionRanges, hv4, hv6,
      hp, families, rangeOperation, Line.operations, eq_comm]

theorem mem_sectionOperations_iff (variant : Variant) (p : Policy) (d : Operation) :
    d ∈ variant.sectionOperations p ↔ ∃ f ∈ families p, d = variant.rangeOperation f := by
  obtain ⟨code, hcode⟩ := List.exists_mem_of_ne_nil _ (effectiveRegions_ne_nil p)
  rw [sectionOperations, Compiler.ranges, Policy.targets, List.mem_flatMap, List.map_map]
  constructor
  · rintro ⟨r, hr, hd⟩
    obtain ⟨code, -, rfl⟩ := List.mem_map.1 hr
    exact (mem_operations_regionSection_iff variant p code.text d).1 hd
  · intro hd
    refine ⟨_, List.mem_map.2 ⟨code, hcode, rfl⟩, ?_⟩
    exact (mem_operations_regionSection_iff variant p code.text d).2 hd

/-- Of the operations of sections, the stages of an object have those for one family, and at least
one. -/
theorem exists_filter_sectionOperations {variant : Variant} {p : Policy} {family : AddressFamily}
    {stages : List Operation} (hfamily : family ∈ families p)
    (hstages : ∀ f, variant.rangeOperation f ∈ stages ↔ f = family) :
    ∃ k, (variant.sectionOperations p).filter (· ∈ stages) =
      List.replicate (k + 1) (variant.rangeOperation family) := by
  have hall : ∀ d ∈ (variant.sectionOperations p).filter (· ∈ stages),
      d = variant.rangeOperation family := by
    intro d hd
    obtain ⟨hd, hmem⟩ := List.mem_filter.1 hd
    obtain ⟨f, -, rfl⟩ := (mem_sectionOperations_iff variant p d).1 hd
    rw [(hstages f).1 (of_decide_eq_true hmem)]
  have hsome : variant.rangeOperation family ∈
      (variant.sectionOperations p).filter (· ∈ stages) := by
    refine List.mem_filter.2 ⟨?_, decide_eq_true ((hstages family).2 rfl)⟩
    exact (mem_sectionOperations_iff variant p _).2 ⟨family, hfamily, rfl⟩
  obtain ⟨k, hk⟩ := Nat.exists_eq_succ_of_ne_zero (List.length_pos_of_mem hsome).ne'
  exact ⟨k, List.eq_replicate_iff.2 ⟨hk, hall⟩⟩

theorem filter_sectionOperations_eq_nil {variant : Variant} {p : Policy} {stages : List Operation}
    (h : ∀ f ∈ families p, variant.rangeOperation f ∉ stages) :
    (variant.sectionOperations p).filter (· ∈ stages) = [] := by
  rw [List.filter_eq_nil_iff]
  intro d hd
  obtain ⟨f, hf, rfl⟩ := (mem_sectionOperations_iff variant p d).1 hd
  simpa using h f hf

/-- The operations of a policy's script before the sections. -/
def openingOperations (variant : Variant) (p : Policy) : List Operation :=
  match variant with
  | addressSets =>
    (families p).flatMap fun f => [.createSet (setName f), .flushSet (setName f)]
  | singleRules =>
    (families p).flatMap fun f => [.createChain (tool f), .flushChain (tool f)]
  | nftables => [.addTable, .flushTable] ++ (families p).map fun f => .addNftSet (nftSet f)

/-- The operations of a policy's script after the sections. -/
def closingOperations (variant : Variant) (p : Policy) : List Operation :=
  match variant with
  | addressSets =>
    ((families p).flatMap fun f => [.createChain (tool f), .flushChain (tool f),
        .append (tool f), .matchSet (setName f)]) ++
      (families p).map fun f => .link (tool f)
  | singleRules => (families p).map fun f => .link (tool f)
  | nftables => [.addNftChain] ++ (families p).map fun f => .addNftRule ("@" ++ nftSet f)

theorem readOperations_script (t : Timestamp) (variant : Variant) (p : Policy) :
    readOperations (text (Compiler.script t variant p)) =
      variant.openingOperations p ++ variant.sectionOperations p ++
        variant.closingOperations p := by
  have hopening : (variant.opening p).flatMap Line.operations = variant.openingOperations p := by
    cases hv6 : p.useIPv6 <;> cases hset : p.useAddressSet <;> cases variant <;>
      simp [opening, openingOperations, preflight, families, freshSet, freshChain,
        Line.operations, hv6, hset]
  have hclosing : (variant.closing p).flatMap Line.operations = variant.closingOperations p := by
    cases hv6 : p.useIPv6 <;> cases variant <;>
      simp [closing, closingOperations, links, families, freshChain, Line.operations, hv6]
  have hheader : (Compiler.header t p).flatMap Line.operations = [] := rfl
  have hfooter : (Compiler.footer variant p).flatMap Line.operations = [] := rfl
  rw [readOperations_text _ (wellFormed_script t variant p), Compiler.script, body_eq]
  simp only [List.flatMap_append, hopening, hclosing, hheader, hfooter, List.flatMap_assoc,
    List.nil_append, List.append_nil]
  rfl

end Variant

/-! ## Stages in generated scripts -/

/-- Stages run in order if the sections do the one in their middle, for one family only. -/
theorem runsInOrder_of_mem_families (t : Timestamp) (variant : Variant) {p : Policy}
    {family : AddressFamily} (hfamily : family ∈ Variant.families p)
    (earlier later : List Operation)
    (hnodup : (earlier ++ variant.rangeOperation family :: later).Nodup)
    (hstages : ∀ f,
      variant.rangeOperation f ∈ earlier ++ variant.rangeOperation family :: later ↔ f = family)
    (hopening : (variant.openingOperations p).filter
      (· ∈ earlier ++ variant.rangeOperation family :: later) = earlier)
    (hclosing : (variant.closingOperations p).filter
      (· ∈ earlier ++ variant.rangeOperation family :: later) = later) :
    RunsInOrder (readOperations (text (Compiler.script t variant p)))
      (earlier ++ variant.rangeOperation family :: later) := by
  obtain ⟨k, hk⟩ := Variant.exists_filter_sectionOperations hfamily hstages
  refine .of_filter earlier later hnodup (k := k) ?_
  rw [Variant.readOperations_script, List.filter_append, List.filter_append, hopening, hk, hclosing]

theorem mem_readOperations_iff (t : Timestamp) (variant : Variant) (p : Policy) (d : Operation) :
    d ∈ readOperations (text (Compiler.script t variant p)) ↔
      d ∈ variant.openingOperations p ∨ (∃ f ∈ Variant.families p, d = variant.rangeOperation f) ∨
        d ∈ variant.closingOperations p := by
  rw [Variant.readOperations_script, List.mem_append, List.mem_append,
    Variant.mem_sectionOperations_iff, or_assoc]

/-! ### Sets -/

theorem exists_family_of_mem_setStages {t : Timestamp} {variant : Variant} {p : Policy}
    {set : String} {d : Operation} (hd : d ∈ setStages set)
    (h : d ∈ readOperations (text (Compiler.script t variant p))) :
    variant = .addressSets ∧ ∃ f ∈ Variant.families p, setName f = set := by
  rw [mem_readOperations_iff] at h
  simp only [setStages, List.mem_cons, List.not_mem_nil, or_false] at hd
  cases variant with
  | addressSets =>
    obtain rfl | rfl | rfl | rfl := hd <;>
      simpa [Variant.openingOperations, Variant.closingOperations, Variant.rangeOperation,
        eq_comm] using h
  | singleRules | nftables =>
    obtain rfl | rfl | rfl | rfl := hd <;>
      simp [Variant.openingOperations, Variant.closingOperations, Variant.rangeOperation] at h

theorem runsInOrder_setStages (t : Timestamp) (variant : Variant) (p : Policy) (set : String) :
    RunsInOrder (readOperations (text (Compiler.script t variant p))) (setStages set) := by
  refine .of_forall_mem fun d hd hmem => ?_
  obtain ⟨rfl, f, hf, rfl⟩ := exists_family_of_mem_setStages hd hmem
  refine runsInOrder_of_mem_families t .addressSets hf [.createSet _, .flushSet _]
    [.matchSet _] (by simp [Variant.rangeOperation]) ?_ ?_ ?_
  · intro g
    cases f <;> cases g <;> decide
  all_goals
    cases hv6 : p.useIPv6 <;> cases f <;>
      simp_all [Variant.openingOperations, Variant.closingOperations, Variant.families,
        Variant.rangeOperation, setName]

/-! ### Chains -/

theorem exists_family_of_mem_chainStages {t : Timestamp} {variant : Variant} {p : Policy}
    {command : String} {d : Operation} (hd : d ∈ chainStages command)
    (h : d ∈ readOperations (text (Compiler.script t variant p))) :
    variant ≠ .nftables ∧ ∃ f ∈ Variant.families p, tool f = command := by
  rw [mem_readOperations_iff] at h
  simp only [chainStages, List.mem_cons, List.not_mem_nil, or_false] at hd
  cases variant with
  | addressSets | singleRules =>
    obtain rfl | rfl | rfl | rfl := hd <;>
      simpa [Variant.openingOperations, Variant.closingOperations, Variant.rangeOperation,
        eq_comm] using h
  | nftables =>
    obtain rfl | rfl | rfl | rfl := hd <;>
      simp [Variant.openingOperations, Variant.closingOperations, Variant.rangeOperation] at h

theorem runsInOrder_chainStages (t : Timestamp) (variant : Variant) (p : Policy)
    (command : String) :
    RunsInOrder (readOperations (text (Compiler.script t variant p))) (chainStages command) := by
  refine .of_forall_mem fun d hd hmem => ?_
  obtain ⟨hvariant, f, hf, rfl⟩ := exists_family_of_mem_chainStages hd hmem
  cases variant with
  | addressSets =>
    -- The chain has one rule, for the whole set.
    have hsection :
        (Variant.addressSets.sectionOperations p).filter (· ∈ chainStages (tool f)) = [] :=
      Variant.filter_sectionOperations_eq_nil fun g _ => by
        simp [Variant.rangeOperation, chainStages]
    refine .of_filter [.createChain _, .flushChain _] [.link _] (k := 0) (by simp) ?_
    rw [Variant.readOperations_script, List.filter_append, List.filter_append]
    refine (congrArg (_ ++ · ++ _) hsection).trans ?_
    cases hv6 : p.useIPv6 <;> cases f <;>
      simp_all [Variant.openingOperations, Variant.closingOperations, Variant.families, tool]
  | singleRules =>
    refine runsInOrder_of_mem_families t .singleRules hf [.createChain _, .flushChain _]
      [.link _] (by simp [Variant.rangeOperation]) ?_ ?_ ?_
    · intro g
      cases f <;> cases g <;> decide
    all_goals
      cases hv6 : p.useIPv6 <;> cases f <;>
        simp_all [Variant.openingOperations, Variant.closingOperations, Variant.families,
          Variant.rangeOperation, tool]
  | nftables => exact absurd rfl hvariant

/-! ### Tables -/

/-- The operations that name an `nft` set. -/
def nftOperations (set : String) : List Operation :=
  [.addNftSet set, .addElements set, .addNftRule ("@" ++ set)]

theorem exists_family_of_mem_nftOperations {t : Timestamp} {variant : Variant} {p : Policy}
    {set : String} {d : Operation} (hd : d ∈ nftOperations set)
    (h : d ∈ readOperations (text (Compiler.script t variant p))) :
    variant = .nftables ∧ ∃ f ∈ Variant.families p, nftSet f = set := by
  rw [mem_readOperations_iff] at h
  simp only [nftOperations, List.mem_cons, List.not_mem_nil, or_false] at hd
  cases variant with
  | nftables =>
    obtain rfl | rfl | rfl := hd <;>
      simpa [Variant.openingOperations, Variant.closingOperations, Variant.rangeOperation,
        eq_comm] using h
  | addressSets | singleRules =>
    obtain rfl | rfl | rfl := hd <;>
      simp [Variant.openingOperations, Variant.closingOperations, Variant.rangeOperation] at h

theorem runsInOrder_nftStages (t : Timestamp) (variant : Variant) (p : Policy) {set : String}
    {d : Operation} (hd : d ∈ nftOperations set)
    (h : d ∈ readOperations (text (Compiler.script t variant p))) :
    RunsInOrder (readOperations (text (Compiler.script t variant p))) (nftStages set) := by
  obtain ⟨rfl, f, hf, rfl⟩ := exists_family_of_mem_nftOperations hd h
  refine runsInOrder_of_mem_families t .nftables hf [.addTable, .flushTable, .addNftSet _]
    [.addNftChain, .addNftRule _] (by simp [Variant.rangeOperation]) ?_ ?_ ?_
  · intro g
    cases f <;> cases g <;> decide
  all_goals
    cases hv6 : p.useIPv6 <;> cases f <;>
      simp_all [Variant.openingOperations, Variant.closingOperations, Variant.families,
        Variant.rangeOperation, nftSet]

/-! ### Objects of a family -/

/-- The operations that make the objects of a family. -/
def Variant.creations (variant : Variant) (family : AddressFamily) : List Operation :=
  match variant with
  | addressSets => [.createSet (setName family), .createChain (tool family)]
  | singleRules => [.createChain (tool family)]
  | nftables => [.addNftSet (nftSet family)]

theorem mem_readOperations_iff_mem_families (t : Timestamp) {variant : Variant} (p : Policy)
    {family : AddressFamily} {d : Operation} (hd : d ∈ variant.creations family) :
    d ∈ readOperations (text (Compiler.script t variant p)) ↔ family ∈ Variant.families p := by
  rw [mem_readOperations_iff]
  cases variant with
  | addressSets =>
    rw [Variant.creations, List.mem_cons, List.mem_singleton] at hd
    obtain rfl | rfl := hd
    all_goals
      cases hv6 : p.useIPv6 <;> cases family <;>
        simp [Variant.openingOperations, Variant.closingOperations, Variant.rangeOperation,
          Variant.families, setName, tool, hv6]
  | singleRules | nftables =>
    rw [Variant.creations, List.mem_singleton] at hd
    subst hd
    cases hv6 : p.useIPv6 <;> cases family <;>
      simp [Variant.openingOperations, Variant.closingOperations, Variant.rangeOperation,
        Variant.families, tool, nftSet, hv6]

/-- A compiled script makes the objects of its families and runs through their stages in order: what
it adds to or uses, it has made and emptied before, and it uses all that it makes. All rules have
the verb of the action, and there are statements with the names of IPv6 objects exactly if the
policy asks for IPv6. -/
theorem runsInOrder_stages_of_compile {t : Timestamp} {p : Policy} {c : CompiledPolicy}
    (h : Compiler.compile t p = .ok c) :
    (∃ variant, Variant.ofPolicy p = .ok variant ∧ ∀ family, ∀ d ∈ variant.creations family,
      d ∈ readOperations c.script ↔ family ∈ Variant.families p) ∧
    (∀ set, RunsInOrder (readOperations c.script) (setStages set)) ∧
    (∀ command, RunsInOrder (readOperations c.script) (chainStages command)) ∧
    (∀ set, ∀ d ∈ nftOperations set, d ∈ readOperations c.script →
      RunsInOrder (readOperations c.script) (nftStages set)) ∧
    (readVerbs c.script ≠ [] ∧ ∀ rule ∈ readVerbs c.script, rule.2 = p.action.verb rule.1) ∧
    ((∃ line ∈ Parity.significantLines c.script, ∃ name ∈ namesIPv6, name.toList <:+: line) ↔
      p.useIPv6 = true) := by
  obtain ⟨variant, hvariant, rfl⟩ := compile_eq_ok_iff.1 h
  dsimp only
  obtain ⟨hne, hverbs⟩ := readVerbs_script t variant p
  refine ⟨⟨variant, hvariant, fun family d hd => mem_readOperations_iff_mem_families t p hd⟩,
    runsInOrder_setStages t variant p, runsInOrder_chainStages t variant p,
    fun set d hd hmem => runsInOrder_nftStages t variant p hd hmem, ⟨hne, fun rule hrule => ?_⟩,
    exists_name_isInfix_significantLines_iff t variant p⟩
  rw [hverbs rule hrule]

/-- The IPv6 set of a script with sets is filled before it is used, and it is used. -/
theorem runsInOrder_stages_of_compile_ipv6 :
    ∃ c, Compiler.compile ⟨0, 0⟩ { useIPv6 := true } = .ok c ∧
      .matchSet "geoguard_v6" ∈ readOperations c.script ∧
      Precedes (readOperations c.script) (.addToSet "geoguard_v6") (.matchSet "geoguard_v6") := by
  have hvariant : Variant.ofPolicy { useIPv6 := true } = .ok .addressSets := rfl
  have hcompile := (compile_eq_ok_iff (t := ⟨0, 0⟩)).2 ⟨.addressSets, hvariant, rfl⟩
  obtain ⟨⟨variant, hvariant', hcreations⟩, hsets, -⟩ := runsInOrder_stages_of_compile hcompile
  obtain rfl : .addressSets = variant := Except.ok.inj (hvariant.symm.trans hvariant')
  have hcreate := (hcreations .v6 _ List.mem_cons_self).2 (by decide)
  have hstages := hsets "geoguard_v6"
  have hused := hstages.complete _ List.mem_cons_self hcreate (.matchSet "geoguard_v6")
    (by simp [setStages])
  have hordered := hstages.ordered
  rw [setStages, List.pairwise_cons, List.pairwise_cons, List.pairwise_cons] at hordered
  obtain ⟨-, -, hfilled, -⟩ := hordered
  exact ⟨_, hcompile, hused, hfilled _ List.mem_cons_self⟩

end Script

end GeoPolicy
