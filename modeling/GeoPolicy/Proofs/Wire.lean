import GeoPolicy.Proofs.Address.RoundTrip
import GeoPolicy.Proofs.Json.RoundTrip
import GeoPolicy.Wire
import Mathlib.Data.List.Nodup

/-!
# Reading JSON forms

What is written in JSON is read back from the text: ranges, tags, rules with any 32-bit priority,
compiled policies, policy files, requests with any settings left out, and locations.

## Main definitions

* `Json.given` — the members of a record for the fields that are not left out.
-/

namespace GeoPolicy

namespace Json

/-! ## Fields -/

/-- The members of a record for the fields that are not left out. -/
def given (fields : List (String × Option Json)) : List (String × Json) :=
  fields.filterMap fun (name, v) => v.map (name, ·)

theorem occurrences_given_le (name : String) (fields : List (String × Option Json)) :
    occurrences name ((given fields).map fun m => (some m.1, m.2)) ≤
      (fields.map (·.1)).count name := by
  rw [occurrences, given, List.countP_map, List.countP_filterMap, List.count_eq_countP,
    List.countP_map]
  refine List.countP_mono_left fun field _ hfield => ?_
  obtain ⟨name', v⟩ := field
  cases v with
  | none => exact absurd hfield Bool.false_ne_true
  | some v => simpa using hfield

theorem member?_given {fields : List (String × Option Json)} (hnodup : (fields.map (·.1)).Nodup)
    {field : String × Option Json} (h : field ∈ fields) :
    member? field.1 ((given fields).map fun m => (some m.1, m.2)) = field.2 := by
  induction fields with
  | nil => exact absurd h List.not_mem_nil
  | cons first fields ih =>
    obtain ⟨name, v⟩ := first
    rw [List.map_cons, List.nodup_cons] at hnodup
    obtain rfl | hmem := List.mem_cons.1 h
    · cases v with
      | some v => simp [given, member?]
      | none =>
        have hnone := occurrences_given_le name fields
        rw [List.count_eq_zero_of_not_mem hnodup.1, Nat.le_zero, occurrences,
          List.countP_eq_zero] at hnone
        refine List.findSome?_eq_none_iff.2 fun m hm => if_neg ?_
        simpa using hnone m hm
    · have hne : ¬name = field.1 := by
        rintro rfl
        exact hnodup.1 (List.mem_map.2 ⟨field, hmem, rfl⟩)
      have hrest := ih hnodup.2 hmem
      cases v with
      | none => exact hrest
      | some v => simpa [given, member?, hne] using hrest

/-- The fields of a written record are read back, and those that are left out are missed. -/
theorem fields?_given (fields : List (String × Option Json))
    (h : (fields.map (·.1)).Nodup) :
    fields? (fields.map (·.1)) (ofMembers (given fields)) = some (fields.map (·.2)) := by
  have honce : ∀ name, occurrences name ((given fields).map fun m => (some m.1, m.2)) ≤ 1 :=
    fun name => (occurrences_given_le name fields).trans (List.nodup_iff_count_le_one.1 h name)
  rw [ofMembers, fields?, if_pos ⟨by simp, by simp [honce]⟩, List.map_map]
  refine congrArg some (List.map_congr_left fun field hfield => ?_)
  exact member?_given h hfield

theorem fields?_ofMembers (members : List (String × Json)) (h : (members.map (·.1)).Nodup) :
    fields? (members.map (·.1)) (ofMembers members) = some (members.map (some ·.2)) := by
  have hgiven : given (members.map fun m => (m.1, some m.2)) = members := by
    rw [given, List.filterMap_map]
    exact List.filterMap_some
  have hnames : (members.map fun m => (m.1, some m.2)).map (·.1) = members.map (·.1) := by
    rw [List.map_map]
    rfl
  have hfields := fields?_given (members.map fun m => (m.1, some m.2)) (hnames ▸ h)
  rw [hgiven, hnames, List.map_map] at hfields
  exact hfields

theorem isPlain_given {fields : List (String × Option Json)}
    (h : ∀ field ∈ fields, ∀ v ∈ field.2, v.IsPlain) : (ofMembers (given fields)).IsPlain := by
  refine .ofMembers fun m hm => ?_
  obtain ⟨⟨name, v⟩, hfield, hm⟩ := List.mem_filterMap.1 hm
  obtain ⟨w, hw, rfl⟩ := Option.map_eq_some_iff.1 hm
  exact h _ hfield w hw

/-! ## Simple values -/

theorem string?_ofString (s : String) : string? (ofString s) = some s := rfl

theorem list?_map {α : Type} {toJson : α → Json} {ofJson? : Json → Option α} {l : List α}
    (h : ∀ a ∈ l, ofJson? (toJson a) = some a) : list? ofJson? (array (l.map toJson)) = some l := by
  rw [list?]
  induction l with
  | nil => rfl
  | cons a l ih =>
    have hl := ih fun b hb => h b (List.mem_cons_of_mem a hb)
    rw [List.map_cons, List.mapM_cons, h a List.mem_cons_self, hl]
    rfl

theorem list?_ofStrings (l : List String) : list? string? (ofStrings l) = some l :=
  list?_map fun s _ => string?_ofString s

theorem nat?_ofNat (n : Nat) : nat? (ofNat n) = some n := by
  have htext : (toString n).toList = Nat.toDigits 10 n := Nat.toList_repr
  show Text.readDecimal? (toString n).toList = some n
  rw [htext, Text.readDecimal?_toDigits]

/-- What is written for a field that is given is not `null`. -/
theorem withDefault?_map {α : Type} {toJson : α → Json} {ofJson? : Json → Option α}
    (h : ∀ a, ofJson? (toJson a) = some a) (hnull : ∀ a, toJson a ≠ .null) (field : Option α) :
    withDefault? none (optional? ofJson?) (field.map toJson) = some field := by
  cases field with
  | none => rfl
  | some a =>
    rw [Option.map_some, withDefault?, optional?.eq_2 _ _ (hnull a), h, Option.map_some]

end Json

open Json

/-- A whole document is read back, if its value is. -/
theorem decode_compact {α : Type} {ofJson? : Json → Option α} {v : Json} {a : α} (hv : v.IsPlain)
    (h : ofJson? v = some a) : decode ofJson? v.compact = .ok a := by
  rw [decode, parse?_compact hv, Option.bind_some, h]

theorem decode_pretty {α : Type} {ofJson? : Json → Option α} {v : Json} {a : α} (hv : v.IsPlain)
    (h : ofJson? v = some a) : decode ofJson? v.pretty = .ok a := by
  rw [decode, parse?_pretty hv, Option.bind_some, h]

/-! ## Names -/

theorem Action.ofJson?_toJson (a : Action) : ofJson? a.toJson = some a := by
  cases a <;> rfl

theorem Backend.parse?_name (b : Backend) : parse? b.name = some b := by
  cases b <;> decide

theorem Backend.ofJson?_toJson (b : Backend) : ofJson? b.toJson = some b := by
  rw [toJson, ofJson?, string?_ofString, Option.bind_some, parse?_name]

theorem AddressFamily.ofJson?_toJson (f : AddressFamily) : ofJson? f.toJson = some f := by
  cases f <;> rfl

theorem RuleSource.ofJson?_toJson (s : RuleSource) : ofJson? s.toJson = some s := by
  cases s <;> rfl

/-! ## Ranges and tags -/

namespace AddressRange

theorem isPlain_toJson (r : AddressRange) : r.toJson.IsPlain := by
  refine .ofMembers ?_
  simp only [List.forall_mem_cons]
  exact ⟨.ofString _, .ofString _, .ofString _, List.forall_mem_nil _⟩

theorem ofJson?_toJson (r : AddressRange) : ofJson? r.toJson = some r := by
  have hfields : fields? ["cidr", "region", "family"] r.toJson =
      some [some (ofString r.cidr), some (ofString r.region), some r.family.toJson] :=
    fields?_ofMembers [_, _, _] (by simp)
  rw [ofJson?, hfields]
  simp [required?, string?_ofString, AddressFamily.ofJson?_toJson]

end AddressRange

namespace RangeTag

theorem isPlain_toJson (t : RangeTag) : t.toJson.IsPlain := by
  refine .ofMembers ?_
  simp only [List.forall_mem_cons]
  exact ⟨.ofString _, .ofString _, List.forall_mem_nil _⟩

theorem ofJson?_toJson (t : RangeTag) : ofJson? t.toJson = some t := by
  have hfields : fields? ["region", "action"] t.toJson =
      some [some (ofString t.region), some t.action.toJson] :=
    fields?_ofMembers [_, _] (by simp)
  rw [ofJson?, hfields]
  simp [required?, string?_ofString, Action.ofJson?_toJson]

end RangeTag

/-! ## Rules and compiled policies -/

namespace RegionRule

theorem isPlain_toJson (r : RegionRule) : r.toJson.IsPlain := by
  refine .ofMembers ?_
  simp only [List.forall_mem_cons]
  exact ⟨.ofString _, isPlain_ofStrings _, .ofString _, .ofNat _, .ofString _,
    List.forall_mem_nil _⟩

theorem ofJson?_toJson {r : RegionRule} (h : r.priority < 0x100000000) :
    ofJson? r.toJson = some r := by
  have hfields : fields? ["region", "cidrs", "action", "priority", "sourceType"] r.toJson =
      some [some (ofString r.region), some (ofStrings r.cidrs), some r.action.toJson,
        some (ofNat r.priority), some r.source.toJson] :=
    fields?_ofMembers [_, _, _, _, _] (by simp)
  have hpriority : priority? (ofNat r.priority) = some r.priority := by
    simp [priority?, nat?_ofNat, Option.filter, h]
  rw [ofJson?, hfields]
  simp [required?, withDefault?, string?_ofString, list?_ofStrings, hpriority,
    Action.ofJson?_toJson, RuleSource.ofJson?_toJson]

end RegionRule

theorem Ruleset.isPlain_toJson (r : Ruleset) : r.toJson.IsPlain :=
  .array (List.forall_mem_map.2 fun rule _ => rule.isPlain_toJson)

theorem Ruleset.ofJson?_toJson {r : Ruleset} (h : ∀ rule ∈ r.rules, rule.priority < 0x100000000) :
    ofJson? r.toJson = some r := by
  rw [ofJson?, toJson, list?_map fun rule hrule => RegionRule.ofJson?_toJson (h rule hrule)]
  rfl

namespace CompiledPolicy

theorem isPlain_toJson (c : CompiledPolicy) : c.toJson.IsPlain := by
  refine .ofMembers ?_
  simp only [List.forall_mem_cons]
  exact ⟨.ofString _, c.ruleset.isPlain_toJson, List.forall_mem_nil _⟩

theorem ofJson?_toJson {c : CompiledPolicy}
    (h : ∀ rule ∈ c.ruleset.rules, rule.priority < 0x100000000) : ofJson? c.toJson = some c := by
  have hfields : fields? ["script", "ruleset"] c.toJson =
      some [some (ofString c.script), some c.ruleset.toJson] :=
    fields?_ofMembers [_, _] (by simp)
  rw [ofJson?, hfields]
  simp [required?, string?_ofString, Ruleset.ofJson?_toJson h]

end CompiledPolicy

/-! ## Policy files -/

namespace PolicyDraft

theorem isPlain_toJson (d : PolicyDraft) : d.toJson.IsPlain := by
  refine .ofMembers ?_
  simp only [List.forall_mem_cons]
  exact ⟨isPlain_ofStrings _, .ofString _, .ofString _, .bool _, .bool _, List.forall_mem_nil _⟩

theorem ofJson?_toJson (d : PolicyDraft) : ofJson? d.toJson = some d := by
  have hfields : fields? ["regions", "backend", "action", "use_address_set", "use_ipv6"] d.toJson =
      some [some (ofStrings d.regions), some d.backend.toJson, some d.action.toJson,
        some (.bool d.useAddressSet), some (.bool d.useIPv6)] :=
    fields?_ofMembers [_, _, _, _, _] (by simp)
  rw [ofJson?, hfields]
  simp [withDefault?, list?_ofStrings, Backend.ofJson?_toJson, Action.ofJson?_toJson, bool?]

end PolicyDraft

/-! ## Requests -/

theorem RegionField.isPlain_toJson (f : RegionField) : f.toJson.IsPlain := by
  cases f with
  | one code => exact .ofString code
  | many codes => exact isPlain_ofStrings codes

theorem RegionField.ofJson?_toJson (f : RegionField) : ofJson? f.toJson = some f := by
  cases f with
  | one code => rfl
  | many codes =>
    show (list? string? (ofStrings codes)).map many = some (many codes)
    rw [list?_ofStrings, Option.map_some]

namespace GenerateRequest

/-- The fields of a request with the values of those that are given. -/
def fields (r : GenerateRequest) : List (String × Option Json) :=
  [("country", r.country.map RegionField.toJson), ("type", r.backend.map ofString),
    ("action", r.action.map ofString), ("use_ipset", r.useIpset.map .bool),
    ("use_ipv6", r.useIPv6.map .bool)]

theorem isPlain_toJson (r : GenerateRequest) : r.toJson.IsPlain := by
  have hmap : ∀ {α : Type} {toJson : α → Json} (_ : ∀ a, (toJson a).IsPlain) (field : Option α),
      ∀ v ∈ field.map toJson, v.IsPlain := by
    intro α toJson h field v hv
    obtain ⟨a, -, rfl⟩ := Option.map_eq_some_iff.1 hv
    exact h a
  have hvalues : ∀ field ∈ r.fields, ∀ v ∈ field.2, v.IsPlain := by
    simp only [fields, List.forall_mem_cons]
    exact ⟨hmap RegionField.isPlain_toJson _, hmap .ofString _, hmap .ofString _, hmap .bool _,
      hmap .bool _, List.forall_mem_nil _⟩
  exact isPlain_given hvalues

/-- A request is read back, whichever settings it leaves out. -/
theorem ofJson?_toJson (r : GenerateRequest) : ofJson? r.toJson = some r := by
  have hfields : fields? ["country", "type", "action", "use_ipset", "use_ipv6"] r.toJson =
      some (r.fields.map (·.2)) :=
    fields?_given r.fields (by simp [fields])
  have hcountry := withDefault?_map RegionField.ofJson?_toJson
    (by intro f; cases f <;> exact Json.noConfusion) r.country
  have htext : ∀ field : Option String,
      withDefault? none (optional? string?) (field.map ofString) = some field :=
    withDefault?_map string?_ofString fun _ => Json.noConfusion
  have hbool : ∀ field : Option Bool,
      withDefault? none (optional? bool?) (field.map .bool) = some field :=
    withDefault?_map (fun _ => rfl) fun _ => Json.noConfusion
  rw [ofJson?, hfields]
  simp [fields, hcountry, htext, hbool]

end GenerateRequest

/-! ## Locations -/

namespace Location

theorem isPlain_toJson (l : Location) : l.toJson.IsPlain := by
  refine .ofMembers ?_
  simp only [List.forall_mem_cons]
  exact ⟨.ofString _, .ofString _, .ofString _, .ofString _, .ofString _, .ofString _,
    List.forall_mem_nil _⟩

/-- The address is read back from its canonical text. -/
theorem ofJson?_toJson (l : Location) : ofJson? l.toJson = some l := by
  have hfields : fields? ["ip", "country", "code", "region", "city", "isp"] l.toJson =
      some [some (ofString l.address.text), some (ofString l.country), some (ofString l.code),
        some (ofString l.region), some (ofString l.city), some (ofString l.isp)] :=
    fields?_ofMembers [_, _, _, _, _, _] (by simp)
  rw [ofJson?, hfields]
  simp [required?, string?_ofString, Address.parse?_text]

end Location

/-! ## Documents -/

/-- Decoding undoes encoding for all documents of the wire format. -/
theorem decode_compact_toJson_forms :
    (∀ r : AddressRange, decode AddressRange.ofJson? r.toJson.compact = .ok r) ∧
    (∀ t : RangeTag, decode RangeTag.ofJson? t.toJson.compact = .ok t) ∧
    (∀ r : RegionRule, r.priority < 2 ^ 32 →
      decode RegionRule.ofJson? r.toJson.compact = .ok r) ∧
    (∀ r : Ruleset, (∀ rule ∈ r.rules, rule.priority < 2 ^ 32) →
      decode Ruleset.ofJson? r.toJson.compact = .ok r) ∧
    (∀ c : CompiledPolicy, (∀ rule ∈ c.ruleset.rules, rule.priority < 2 ^ 32) →
      decode CompiledPolicy.ofJson? c.toJson.compact = .ok c) ∧
    (∀ d : PolicyDraft, decode PolicyDraft.ofJson? d.toJson.compact = .ok d) ∧
    (∀ r : GenerateRequest, decode GenerateRequest.ofJson? r.toJson.compact = .ok r) ∧
    ∀ l : Location, decode Location.ofJson? l.toJson.compact = .ok l := by
  refine ⟨fun r => ?_, fun t => ?_, fun r hr => ?_, fun r hr => ?_, fun c hc => ?_, fun d => ?_,
    fun r => ?_, fun l => ?_⟩
  · exact decode_compact r.isPlain_toJson r.ofJson?_toJson
  · exact decode_compact t.isPlain_toJson t.ofJson?_toJson
  · exact decode_compact r.isPlain_toJson (RegionRule.ofJson?_toJson hr)
  · exact decode_compact r.isPlain_toJson (Ruleset.ofJson?_toJson hr)
  · exact decode_compact c.isPlain_toJson (CompiledPolicy.ofJson?_toJson hc)
  · exact decode_compact d.isPlain_toJson d.ofJson?_toJson
  · exact decode_compact r.isPlain_toJson r.ofJson?_toJson
  · exact decode_compact l.isPlain_toJson l.ofJson?_toJson

/-- A rule with characters that are escaped and with the greatest priority. -/
theorem decode_compact_toJson_forms_greatest :
    let rule : RegionRule := ⟨"\"\\\n\x00", ["é", "😀"], .allow, 4294967295, .remote⟩
    decode RegionRule.ofJson? rule.toJson.compact = .ok rule ∧
    decode Ruleset.ofJson? (Ruleset.mk [rule]).toJson.compact = .ok ⟨[rule]⟩ ∧
    decode CompiledPolicy.ofJson? (CompiledPolicy.mk "\t" ⟨[rule]⟩).toJson.compact =
      .ok ⟨"\t", ⟨[rule]⟩⟩ := by
  intro rule
  have hrules : ∀ r ∈ [rule], r.priority < 2 ^ 32 := by simp [rule]
  obtain ⟨-, -, hrule, hruleset, hpolicy, -⟩ := decode_compact_toJson_forms
  exact ⟨hrule rule (hrules rule List.mem_cons_self), hruleset ⟨[rule]⟩ hrules,
    hpolicy ⟨"\t", ⟨[rule]⟩⟩ hrules⟩

end GeoPolicy
