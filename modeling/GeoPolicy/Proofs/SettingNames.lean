import GeoPolicy.PolicyFile
import GeoPolicy.Proofs.Text.LowerCase
import GeoPolicy.Wire

/-!
# Names of settings

A person writes an action or a backend in any case, between blanks. A document is read like that
where it tells a backend, but not where it tells an action: there only the words wholly in one case
count, and no blanks may be around them. So an action in a document means what it means elsewhere,
and some that are understood elsewhere are refused in documents.

## Main definitions

* `Action.words` — the words for an action in upper case.
* `Backend.words` — the words for a backend in lower case.
* `Text.IsInOneCase` — a text without blanks around it, its letters in one case.
-/

namespace GeoPolicy

open Text

/-- A text without blanks around it, its letters of ASCII all in upper case or all in lower case. -/
def Text.IsInOneCase (s : String) : Prop :=
  s = asciiUpper (trim s) ∨ s = asciiLower (trim s)

theorem Text.ofList_mem_iff {words : List String} {s : List Char} :
    String.ofList s ∈ words ↔ ∃ w ∈ words, s = w.toList := by
  constructor
  · exact fun h => ⟨_, h, String.toList_ofList.symm⟩
  · rintro ⟨w, hw, rfl⟩
    rwa [String.ofList_toList]

namespace Action

/-- The words for an action in upper case: its name and its verdict. -/
def words : Action → List String
  | allow => ["ALLOW", "ACCEPT"]
  | block => ["BLOCK", "DROP"]

/-! ## Words of a person -/

theorem ofUpper?_eq_some_iff {s : String} {a : Action} : ofUpper? s = some a ↔ s ∈ a.words := by
  constructor
  · intro h
    unfold ofUpper? at h
    split at h
    all_goals cases h <;> simp [words]
  · intro h
    cases a
    all_goals
      simp only [words, List.mem_cons, List.not_mem_nil, or_false] at h
      obtain rfl | rfl := h <;> rfl

/-- No word for an action has a letter that is a capital of a letter outside ASCII. -/
theorem upper_eq_toList_iff {a : Action} {w : String} (hw : w ∈ a.words) (s : List Char) :
    upper s = w.toList ↔ s.map Char.toUpper = w.toList := by
  have hascii : ∀ w ∈ a.words, ∀ u ∈ w.toList, u.toNat < 128 := by cases a <;> simp [words]
  have hletters : ∀ w ∈ a.words, ∀ u ∈ ['F', 'I', 'S'], u ∉ w.toList := by
    cases a <;> simp [words]
  exact upper_eq_iff (hascii w hw) (hletters w hw) s

/-- Full upper case finds the same words as upper case in ASCII. -/
theorem parse?_eq_some_iff {s : String} {a : Action} :
    parse? s = some a ↔ String.ofList (upper (trimChars s.toList)) ∈ a.words := by
  rw [parse?, ofUpper?_eq_some_iff, asciiUpper, trim, String.toList_ofList, ofList_mem_iff,
    ofList_mem_iff]
  exact exists_congr fun w => and_congr_right fun hw => (upper_eq_toList_iff hw _).symm

theorem parse_eq_ok_iff {s : String} {a : Action} : parse s = .ok a ↔ parse? s = some a := by
  rw [parse]
  cases parse? s <;> simp

/-! ## Words in documents -/

theorem ofDocument?_eq_some_iff {s : String} {a : Action} :
    ofDocument? s = some a ↔ s ∈ a.words ∨ s ∈ a.words.map asciiLower := by
  constructor
  · intro h
    unfold ofDocument? at h
    split at h
    all_goals cases h <;> decide
  · intro h
    cases a
    all_goals
      obtain h | h := h
      all_goals
        simp only [words, List.map_cons, List.map_nil, List.mem_cons, List.not_mem_nil, or_false]
          at h
        obtain rfl | rfl := h <;> rfl

theorem parse?_and_isInOneCase_of_ofDocument? {s : String} {a : Action}
    (h : ofDocument? s = some a) : parse? s = some a ∧ IsInOneCase s := by
  have hupper : ∀ w ∈ a.words, parse? w = some a ∧ w = asciiUpper (trim w) := by
    cases a <;> decide +kernel
  have hlower : ∀ w ∈ a.words.map asciiLower, parse? w = some a ∧ w = asciiLower (trim w) := by
    cases a <;> decide +kernel
  obtain hs | hs := ofDocument?_eq_some_iff.1 h
  · exact ⟨(hupper s hs).1, .inl (hupper s hs).2⟩
  · exact ⟨(hlower s hs).1, .inr (hlower s hs).2⟩

/-- A document understands the same words as a person, as far as they are in one case and without
blanks around them. -/
theorem ofDocument?_eq_some_iff_parse? {s : String} {a : Action} :
    ofDocument? s = some a ↔ parse? s = some a ∧ IsInOneCase s := by
  refine ⟨parse?_and_isInOneCase_of_ofDocument?, ?_⟩
  rintro ⟨hparse, hcase⟩
  rw [parse?, ofUpper?_eq_some_iff] at hparse
  rw [ofDocument?_eq_some_iff]
  obtain hupper | hlower := hcase
  · exact .inl (hupper ▸ hparse)
  · refine .inr (List.mem_map.2 ⟨_, hparse, ?_⟩)
    rw [asciiLower_asciiUpper, ← hlower]

end Action

/-! ## Names of backends -/

namespace Backend

/-- The words for a backend in lower case: its name, and a short one for `nftables`. -/
def words : Backend → List String
  | nftables => ["nftables", "nft"]
  | backend => [backend.name]

theorem ofLower?_eq_some_iff {s : String} {b : Backend} : ofLower? s = some b ↔ s ∈ b.words := by
  constructor
  · intro h
    unfold ofLower? at h
    split at h
    all_goals cases h <;> simp [words, name]
  · intro h
    cases b
    all_goals
      simp only [words, name, List.mem_cons, List.not_mem_nil, or_false] at h
      obtain rfl | rfl := h <;> rfl

/-- No word for a backend has a letter that is the lower case of a character outside ASCII. -/
theorem lowersTo_toList_iff {b : Backend} {w : String} (hw : w ∈ b.words) {s t : List Char}
    (h : LowersTo s t) : t = w.toList ↔ s.map Char.toLower = w.toList := by
  have hascii : ∀ w ∈ b.words, ∀ u ∈ w.toList, u.toNat < 128 := by cases b <;> simp [words, name]
  have hk : ∀ w ∈ b.words, 'k' ∉ w.toList := by cases b <;> simp [words, name]
  exact h.eq_iff (hascii w hw) (hk w hw)

/-- Full lower case finds the same backend as lower case in ASCII, whichever form a sigma takes. -/
theorem parse?_eq_of_lowersTo {s : String} {t : List Char} (h : LowersTo (trimChars s.toList) t) :
    parse? s = ofLower? (String.ofList t) := by
  refine Option.ext fun b => ?_
  rw [parse?, ofLower?_eq_some_iff, ofLower?_eq_some_iff, asciiLower, trim, String.toList_ofList,
    ofList_mem_iff, ofList_mem_iff]
  exact exists_congr fun w => and_congr_right fun hw => (lowersTo_toList_iff hw h).symm

theorem parse?_eq_some_iff {s : String} {b : Backend} :
    parse? s = some b ↔ ∃ t, LowersTo (trimChars s.toList) t ∧ String.ofList t ∈ b.words := by
  constructor
  · intro h
    obtain ⟨t, ht⟩ := exists_lowersTo (trimChars s.toList)
    rw [parse?_eq_of_lowersTo ht, ofLower?_eq_some_iff] at h
    exact ⟨t, ht, h⟩
  · rintro ⟨t, ht, hwords⟩
    rw [parse?_eq_of_lowersTo ht, ofLower?_eq_some_iff]
    exact hwords

end Backend

/-! ## Settings in documents -/

section Scalars

open Yaml

variable (s : String) (start : Place) (root : Node) (head : NodeHead) (style : ScalarStyle)

theorem Action.ofJson?_ofString : ofJson? (Json.ofString s) = ofDocument? s := by
  rw [ofJson?, Json.ofString, Json.variant?, Option.bind_some]

theorem Backend.ofJson?_ofString : ofJson? (Json.ofString s) = parse? s := by
  rw [ofJson?, Json.ofString, Json.string?, Option.bind_some]

/-- A policy file tells an action by the same words as a ruleset. -/
theorem Action.node_action_eq_ok_iff (h : head.tag.bind Node.caseOfTag? = none) {a : Action} :
    Node.action start root (.scalar head style s) = .ok a ↔ ofDocument? s = some a := by
  have htag : (Node.scalar head style s).tag?.bind Node.caseOfTag? = none := h
  have hread : Node.action start root (.scalar head style s) = Node.actionOf s head.place := by
    dsimp only [Node.action, Node.target]
    rw [htag]
  rw [hread, Node.actionOf]
  cases ofDocument? s <;> simp

theorem Backend.parse_eq_ok_iff {b : Backend} : parse s = .ok b ↔ parse? s = some b := by
  rw [parse]
  cases parse? s <;> simp

theorem Backend.node_backend_eq_ok_iff {b : Backend} :
    Node.backend start root (.scalar head style s) = .ok b ↔ parse s = .ok b := by
  rw [parse_eq_ok_iff, Node.backend, Node.text]
  dsimp only [Node.target, bind, Except.bind]
  cases parse? s <;> simp [pure, Except.pure, throw, throwThe, MonadExceptOf.throw]

end Scalars

/-- A document reads an action as a person writes it if the text is in one case and without blanks
around it, and refuses it otherwise; policy files and rulesets agree on all texts. A backend is read
in both as a person writes it, without exception. -/
theorem Action.ofJson?_eq_some_iff_parse (s : String) :
    (∀ a : Action, parse s = .ok a ↔ String.ofList (upper (trimChars s.toList)) ∈ a.words) ∧
    (∀ a : Action, ofJson? (Json.ofString s) = some a ↔ parse s = .ok a ∧ IsInOneCase s) ∧
    (∀ (a : Action) (start : Yaml.Place) (root : Yaml.Node) (head : Yaml.NodeHead)
        (style : Yaml.ScalarStyle), head.tag.bind Yaml.Node.caseOfTag? = none →
      (Yaml.Node.action start root (.scalar head style s) = .ok a ↔
        ofJson? (Json.ofString s) = some a)) ∧
    (∀ b : Backend, Backend.ofJson? (Json.ofString s) = some b ↔ Backend.parse s = .ok b) ∧
    ∀ (b : Backend) (start : Yaml.Place) (root : Yaml.Node) (head : Yaml.NodeHead)
        (style : Yaml.ScalarStyle),
      Yaml.Node.backend start root (.scalar head style s) = .ok b ↔ Backend.parse s = .ok b := by
  refine ⟨fun a => parse_eq_ok_iff.trans parse?_eq_some_iff, fun a => ?_,
    fun a start root head style h => ?_, fun b => ?_,
    fun b start root head style => Backend.node_backend_eq_ok_iff s start root head style⟩
  · rw [ofJson?_ofString, parse_eq_ok_iff]
    exact ofDocument?_eq_some_iff_parse?
  · rw [ofJson?_ofString]
    exact Action.node_action_eq_ok_iff s start root head style h
  · rw [Backend.ofJson?_ofString, Backend.parse_eq_ok_iff]

/-- The name of an action with one capital is understood, but not in a document. -/
theorem Action.ofJson?_refuses_mixed_case :
    ¬∀ (s : String) (a : Action), ofJson? (Json.ofString s) = some a ↔ parse s = .ok a := by
  intro h
  have hrefused : ofJson? (Json.ofString "Block") = none := rfl
  have haccepted := (h "Block" .block).2 rfl
  rw [hrefused] at haccepted
  cases haccepted

end GeoPolicy
