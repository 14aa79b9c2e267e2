import GeoPolicy.Proofs.RangeTable.LongestMatch

/-!
# Tables of rulesets

Loading a ruleset inserts the texts that are ranges, rule by rule and in order, each with the tag
of its rule. The other texts leave the table alone, and an event tells of each of them. So the table
answers like a scan of the texts, in which the longest range wins and, among ranges of one length,
the last.

## Main definitions

* `Network.parseAll` — the ranges among texts.
* `RegionRule.calls`, `Ruleset.calls` — the insertions that loading makes.
* `RegionRule.skips` — the events that loading a rule tells of texts that are no ranges.
* `Ruleset.entries` — the texts of a ruleset, each with the rule it stands in.
* `Ruleset.keeping` — a ruleset without some of its texts.
-/

namespace GeoPolicy

/-- The ranges among texts, in order. -/
def Network.parseAll (cidrs : List String) : List Network :=
  cidrs.filterMap fun cidr => (parse cidr).toOption

theorem Network.toOption_parse_eq_some_iff {s : String} {n : Network} :
    (parse s).toOption = some n ↔ parse s = .ok n := by
  cases parse s <;> simp [Except.toOption]

theorem Network.mem_parseAll {n : Network} {cidrs : List String} :
    n ∈ parseAll cidrs ↔ ∃ cidr ∈ cidrs, parse cidr = .ok n := by
  simp only [parseAll, List.mem_filterMap, toOption_parse_eq_some_iff]

/-- The tag of a rule's ranges. -/
def RegionRule.tag (rule : RegionRule) : RangeTag where
  region := rule.region
  action := rule.action

/-- The insertions that loading a rule makes. -/
def RegionRule.calls (rule : RegionRule) : List (Network × RangeTag) :=
  (Network.parseAll rule.cidrs).map (·, rule.tag)

/-- The insertions that loading a ruleset makes. -/
def Ruleset.calls (r : Ruleset) : List (Network × RangeTag) :=
  r.rules.flatMap RegionRule.calls

/-- The event that loading a text of a rule tells if it is no range. -/
def RegionRule.skip? (rule : RegionRule) (cidr : String) : Option LoadEvent :=
  match Network.parse cidr with
  | .ok _ => none
  | .error e => some (.skipped rule.region e)

/-- The events that loading a rule tells of texts that are no ranges. -/
def RegionRule.skips (rule : RegionRule) : List LoadEvent :=
  rule.cidrs.filterMap rule.skip?

/-- A text of a ruleset and the rule it stands in. -/
structure Ruleset.Entry where
  rule : RegionRule
  cidr : String

/-- The texts of a ruleset, rule by rule and in the order of each rule. -/
def Ruleset.entries (r : Ruleset) : List Ruleset.Entry :=
  r.rules.flatMap fun rule => rule.cidrs.map (⟨rule, ·⟩)

/-- The insertion that loading an entry makes, if its text is a range. -/
def Ruleset.Entry.call? (e : Ruleset.Entry) : Option (Network × RangeTag) :=
  (Network.parse e.cidr).toOption.map (·, e.rule.tag)

/-- A ruleset without the texts that are not to be kept. -/
def Ruleset.keeping (keep : RegionRule → String → Bool) (r : Ruleset) : Ruleset :=
  ⟨r.rules.map fun rule => { rule with cidrs := rule.cidrs.filter (keep rule) }⟩

namespace RangeTable

section InsertText

variable {α : Type} {s : String}

theorem insertText_of_ok {n : Network} (h : Network.parse s = .ok n) (t : RangeTable α)
    (value : α) :
    t.insertText s value = .ok (t.get? n, t.insert n value) := by
  rw [insertText, h]
  rfl

theorem insertText_of_error {e : Error} (h : Network.parse s = .error e) (t : RangeTable α)
    (value : α) : t.insertText s value = .error e := by
  rw [insertText, h]
  rfl

end InsertText

/-! ## Ranges that are loaded -/

/-- Loading one text inserts its range, if it is one. -/
theorem loadRange_fst (rule : RegionRule) (state : RangeTable RangeTag × List LoadEvent)
    (cidr : String) :
    (loadRange rule state cidr).1 =
      state.1.insertAll ((Network.parseAll [cidr]).map (·, rule.tag)) := by
  cases h : Network.parse cidr with
  | error e =>
    rw [loadRange, insertText_of_error h]
    simp [Network.parseAll, h, Except.toOption]
  | ok n =>
    rw [loadRange, insertText_of_ok h]
    cases state.1.get? n <;> simp [Network.parseAll, h, Except.toOption, RegionRule.tag]

theorem foldl_loadRange_fst (rule : RegionRule) (cidrs : List String)
    (state : RangeTable RangeTag × List LoadEvent) :
    (cidrs.foldl (loadRange rule) state).1 =
      state.1.insertAll ((Network.parseAll cidrs).map (·, rule.tag)) := by
  induction cidrs generalizing state with
  | nil => rfl
  | cons cidr cidrs ih =>
    rw [List.foldl_cons, ih, loadRange_fst, ← insertAll_append, ← List.map_append]
    congr 2
    exact (List.filterMap_append (l := [cidr])).symm

theorem foldl_rules_fst (rules : List RegionRule) (state : RangeTable RangeTag × List LoadEvent) :
    (rules.foldl (fun state rule => rule.cidrs.foldl (loadRange rule) state) state).1 =
      state.1.insertAll (rules.flatMap RegionRule.calls) := by
  induction rules generalizing state with
  | nil => rfl
  | cons rule rules ih =>
    rw [List.foldl_cons, ih, foldl_loadRange_fst, ← insertAll_append]
    rfl

/-- The table of a ruleset is made by the insertions of its rules. -/
theorem ofRuleset_fst (r : Ruleset) : (ofRuleset r).1 = empty.insertAll r.calls :=
  foldl_rules_fst r.rules (empty, [])

/-! ## Texts that are left out -/

/-- Loading one text tells of it if it is no range, and else at most of a range that passes from
one region to another. -/
theorem filter_isSkip_loadRange (rule : RegionRule) (state : RangeTable RangeTag × List LoadEvent)
    (cidr : String) :
    (loadRange rule state cidr).2.filter LoadEvent.isSkip =
      state.2.filter LoadEvent.isSkip ++ (rule.skip? cidr).toList := by
  cases h : Network.parse cidr with
  | error e =>
    rw [loadRange, insertText_of_error h]
    simp [RegionRule.skip?, h, LoadEvent.isSkip]
  | ok n =>
    rw [loadRange, insertText_of_ok h]
    cases state.1.get? n <;> simp [RegionRule.skip?, h, LoadEvent.isSkip]

theorem filter_isSkip_foldl_loadRange (rule : RegionRule) (cidrs : List String)
    (state : RangeTable RangeTag × List LoadEvent) :
    (cidrs.foldl (loadRange rule) state).2.filter LoadEvent.isSkip =
      state.2.filter LoadEvent.isSkip ++ cidrs.filterMap rule.skip? := by
  induction cidrs generalizing state with
  | nil => simp
  | cons cidr cidrs ih =>
    rw [List.foldl_cons, ih, filter_isSkip_loadRange, List.append_assoc]
    cases h : rule.skip? cidr <;> simp [h]

theorem filter_isSkip_foldl_rules (rules : List RegionRule)
    (state : RangeTable RangeTag × List LoadEvent) :
    (rules.foldl (fun state rule => rule.cidrs.foldl (loadRange rule) state) state).2.filter
        LoadEvent.isSkip =
      state.2.filter LoadEvent.isSkip ++ rules.flatMap RegionRule.skips := by
  induction rules generalizing state with
  | nil => simp
  | cons rule rules ih =>
    rw [List.foldl_cons, ih, filter_isSkip_foldl_loadRange, List.append_assoc]
    rfl

/-- Loading a ruleset tells of the texts that are no ranges, rule by rule and in order. -/
theorem filter_isSkip_ofRuleset (r : Ruleset) :
    (ofRuleset r).2.filter LoadEvent.isSkip = r.rules.flatMap RegionRule.skips := by
  have hevents := filter_isSkip_foldl_rules r.rules (empty, [])
  unfold ofRuleset
  dsimp only
  split
  · exact hevents
  · rw [List.filter_append, hevents]
    simp [LoadEvent.isSkip]

/-! ## Answers -/

theorem call?_eq_some_iff {e : Ruleset.Entry} {call : Network × RangeTag} :
    e.call? = some call ↔ Network.parse e.cidr = .ok call.1 ∧ call.2 = e.rule.tag := by
  rw [Ruleset.Entry.call?, Option.map_eq_some_iff]
  simp only [Network.toOption_parse_eq_some_iff]
  constructor
  · rintro ⟨n, hn, rfl⟩
    exact ⟨hn, rfl⟩
  · rintro ⟨hn, htag⟩
    exact ⟨call.1, hn, Prod.ext rfl htag.symm⟩

/-- The insertions of a ruleset are those of its entries. -/
theorem calls_eq_filterMap (r : Ruleset) : r.calls = r.entries.filterMap Ruleset.Entry.call? := by
  rw [Ruleset.calls, Ruleset.entries, List.filterMap_flatMap]
  refine List.flatMap_congr fun rule _ => ?_
  rw [RegionRule.calls, Network.parseAll, List.filterMap_map, List.map_filterMap]
  rfl

/-- What all insertions of a list of entries satisfy, told from the entries. -/
theorem forall_mem_filterMap_call? {entries : List Ruleset.Entry} {motive : Network → Prop} :
    (∀ call ∈ entries.filterMap Ruleset.Entry.call?, motive call.1) ↔
      ∀ e ∈ entries, ∀ n, Network.parse e.cidr = .ok n → motive n := by
  simp only [List.mem_filterMap, call?_eq_some_iff]
  constructor
  · intro h e he n hn
    exact h (n, e.rule.tag) ⟨e, he, hn, rfl⟩
  · rintro h call ⟨e, he, hn, -⟩
    exact h e he call.1 hn

/-- Insertions split where the entries do that make them. -/
theorem filterMap_call?_eq_append_cons_iff {entries : List Ruleset.Entry}
    {before after : List (Network × RangeTag)} {call : Network × RangeTag} :
    entries.filterMap Ruleset.Entry.call? = before ++ call :: after ↔
      ∃ left e right, entries = left ++ e :: right ∧ e.call? = some call ∧
        left.filterMap Ruleset.Entry.call? = before ∧
        right.filterMap Ruleset.Entry.call? = after := by
  constructor
  · intro h
    obtain ⟨left, rest, hentries, hleft, hrest⟩ := List.filterMap_eq_append_iff.1 h
    obtain ⟨skipped, e, right, rfl, hskipped, he, hright⟩ := List.filterMap_eq_cons_iff.1 hrest
    refine ⟨left ++ skipped, e, right, by simpa using hentries, he, ?_, hright⟩
    rw [List.filterMap_append, List.filterMap_eq_nil_iff.2 hskipped, List.append_nil, hleft]
  · rintro ⟨left, e, right, rfl, he, rfl, rfl⟩
    rw [List.filterMap_append, List.filterMap_cons_some he]

/-- The insertions of a ruleset split where its entries do. -/
theorem calls_eq_append_cons_iff {r : Ruleset} {before after : List (Network × RangeTag)}
    {call : Network × RangeTag} :
    r.calls = before ++ call :: after ↔
      ∃ left e right, r.entries = left ++ e :: right ∧ e.call? = some call ∧
        left.filterMap Ruleset.Entry.call? = before ∧
        right.filterMap Ruleset.Entry.call? = after := by
  rw [calls_eq_filterMap]
  exact filterMap_call?_eq_append_cons_iff

/-- Loading passes over texts that are no ranges. -/
theorem calls_keeping {keep : RegionRule → String → Bool}
    (h : ∀ rule cidr, keep rule cidr = false → ∃ e, Network.parse cidr = .error e) (r : Ruleset) :
    (r.keeping keep).calls = r.calls := by
  have hrule : ∀ rule : RegionRule,
      Network.parseAll (rule.cidrs.filter (keep rule)) = Network.parseAll rule.cidrs := by
    intro rule
    rw [Network.parseAll, Network.parseAll, List.filterMap_filter]
    refine List.filterMap_congr fun cidr _ => ?_
    by_cases hkeep : keep rule cidr = true
    · rw [if_pos hkeep]
    · obtain ⟨e, he⟩ := h rule cidr (Bool.eq_false_iff.2 hkeep)
      rw [if_neg hkeep, he]
      rfl
  rw [Ruleset.calls, Ruleset.calls, Ruleset.keeping, List.flatMap_map]
  refine List.flatMap_congr fun rule _ => ?_
  rw [RegionRule.calls, RegionRule.calls, hrule]
  rfl

/-- The table of a ruleset answers like a scan of the ruleset. The answer for an address is the tag
of the rule with the last text, rule by rule and in the order of each rule, among those that denote
the longest ranges that cover the address; there is no answer exactly if no text denotes a range
that covers it. Texts that denote no range have no effect: without some of them or all of them a
ruleset has the same table. -/
theorem longestMatch_ofRuleset (r : Ruleset) :
    (∀ a : Address, ((ofRuleset r).1.longestMatch a = none ↔
        ∀ e ∈ r.entries, ∀ n, Network.parse e.cidr = .ok n → ¬n.Covers a) ∧
      ∀ tag, (ofRuleset r).1.longestMatch a = some tag ↔
        ∃ before e after n, r.entries = before ++ e :: after ∧
          tag = ⟨e.rule.region, e.rule.action⟩ ∧ Network.parse e.cidr = .ok n ∧ n.Covers a ∧
          (∀ d ∈ before, ∀ m, Network.parse d.cidr = .ok m → m.Covers a → m.length ≤ n.length) ∧
          ∀ d ∈ after, ∀ m, Network.parse d.cidr = .ok m → m.Covers a → m.length < n.length) ∧
    ∀ keep : RegionRule → String → Bool,
      (∀ rule cidr, keep rule cidr = false → ∃ e, Network.parse cidr = .error e) →
        (ofRuleset (r.keeping keep)).1 = (ofRuleset r).1 := by
  refine ⟨fun a => ⟨?_, fun tag => ?_⟩, fun keep hkeep => ?_⟩
  · rw [ofRuleset_fst, longestMatch_eq_none_iff, calls_eq_filterMap]
    exact forall_mem_filterMap_call? (motive := fun n => ¬n.Covers a)
  · rw [ofRuleset_fst, longestMatch_eq_some_iff_split]
    constructor
    · rintro ⟨before, n, after, hsplit, hcov, hbefore, hafter⟩
      obtain ⟨left, e, right, hentries, he, rfl, rfl⟩ := calls_eq_append_cons_iff.1 hsplit
      obtain ⟨hn, htag⟩ := call?_eq_some_iff.1 he
      exact ⟨left, e, right, n, hentries, htag, hn, hcov,
        forall_mem_filterMap_call?.1 hbefore, forall_mem_filterMap_call?.1 hafter⟩
    · rintro ⟨left, e, right, n, hentries, htag, hn, hcov, hleft, hright⟩
      have he : e.call? = some (n, tag) := call?_eq_some_iff.2 ⟨hn, htag⟩
      exact ⟨_, n, _, calls_eq_append_cons_iff.2 ⟨left, e, right, hentries, he, rfl, rfl⟩, hcov,
        forall_mem_filterMap_call?.2 hleft, forall_mem_filterMap_call?.2 hright⟩
  · rw [ofRuleset_fst, ofRuleset_fst, calls_keeping hkeep]

/-- A later rule takes over a range, and a text that is no range is left out. -/
theorem longestMatch_ofRuleset_shared :
    (ofRuleset ⟨[⟨"US", ["10.0.0.0/8", "10.0.0.0/33"], .block, 1, .compiled⟩,
        ⟨"XX", ["10.0.0.0/8"], .allow, 2, .remote⟩]⟩).1.longestMatch (.ofOctets [10, 1, 2, 3]) =
      some ⟨"XX", .allow⟩ ∧
    (ofRuleset ⟨[⟨"US", ["10.0.0.0/8"], .block, 1, .compiled⟩,
        ⟨"XX", ["10.0.0.0/8"], .allow, 2, .remote⟩]⟩).1 =
      (ofRuleset ⟨[⟨"US", ["10.0.0.0/8", "10.0.0.0/33"], .block, 1, .compiled⟩,
        ⟨"XX", ["10.0.0.0/8"], .allow, 2, .remote⟩]⟩).1 := by
  obtain ⟨hanswers, hkeeping⟩ := longestMatch_ofRuleset
    ⟨[⟨"US", ["10.0.0.0/8", "10.0.0.0/33"], .block, 1, .compiled⟩,
      ⟨"XX", ["10.0.0.0/8"], .allow, 2, .remote⟩]⟩
  have hrange : Network.parse "10.0.0.0/8" = .ok ⟨.ofOctets [10, 0, 0, 0], 8, by decide⟩ := rfl
  obtain ⟨e, hnone⟩ : ∃ e, Network.parse "10.0.0.0/33" = .error e := ⟨_, rfl⟩
  constructor
  · refine ((hanswers _).2 _).2 ⟨[⟨_, "10.0.0.0/8"⟩, ⟨_, "10.0.0.0/33"⟩], ⟨_, "10.0.0.0/8"⟩, [], _,
      rfl, rfl, hrange, by decide, ?_, List.forall_mem_nil _⟩
    simp [hrange, hnone]
  · refine hkeeping (fun _ cidr => cidr ≠ "10.0.0.0/33") fun _ cidr hcidr => ?_
    obtain rfl : cidr = "10.0.0.0/33" := by simpa using hcidr
    exact ⟨e, hnone⟩

end RangeTable

end GeoPolicy
