import GeoPolicy.Proofs.RangeTable.Ruleset
import Mathlib.Data.Finset.Card

/-!
# Histories of tables

A table is reached from the empty one by requests, of which those that name no range fail and leave
the table alone. So every table that can be reached is made by the insertions among the requests.
One insertion gives a value to at most one more key, which is what keeps the size beside the trees
right: it is the number of their values, and the number of the keys that were inserted.

## Main definitions

* `RangeTable.Request` — a request to attach a value to a range.
* `RangeTable.reach` — the table after a history of requests.
* `Network.place` — the key of a range, together with its family.
-/

namespace GeoPolicy

/-- The place of a range in a table: its family and its leading bits, the path in the tree of the
family. The free bits of the base address have no say in it. -/
def Network.place (n : Network) : AddressFamily × List Bool :=
  (n.family, n.key)

namespace RangeTable

variable {α : Type}

/-! ## Sizes -/

theorem size_insert (t : RangeTable α) (n : Network) (value : α) :
    (t.insert n value).size = if (t.get? n).isSome then t.size else t.size + 1 := by
  unfold insert
  cases n.family <;> rfl

/-- The size that is kept beside the trees is the number of their values. -/
def CountsValues (t : RangeTable α) : Prop :=
  t.size = t.v4.size + t.v6.size

theorem countsValues_empty : (empty : RangeTable α).CountsValues := rfl

/-- One insertion adds a value to one tree exactly if it adds one to the size. -/
theorem CountsValues.insert {t : RangeTable α} (h : t.CountsValues) (n : Network) (value : α) :
    (t.insert n value).CountsValues := by
  unfold CountsValues at h ⊢
  rw [size_insert]
  unfold RangeTable.insert get? tree
  cases n.family with
  | v4 =>
    dsimp only
    rw [PathTree.size_insert]
    split <;> omega
  | v6 =>
    dsimp only
    rw [PathTree.size_insert]
    split <;> omega

theorem countsValues_insertAll (calls : List (Network × α)) :
    (empty.insertAll calls).CountsValues := by
  induction calls using List.reverseRecOn with
  | nil => exact countsValues_empty
  | append_singleton calls call ih =>
    rw [insertAll_append, insertAll_singleton]
    exact ih.insert call.1 call.2

theorem isSome_lastValue?_iff (calls : List (Network × α)) (n : Network) :
    (lastValue? calls n.family n.key).isSome = true ↔
      n.place ∈ calls.map fun call => call.1.place := by
  rw [Option.isSome_iff_ne_none, Ne, lastValue?_eq_none_iff]
  simp [Network.place]

/-- The size of a table is the number of different keys that were inserted. -/
theorem size_insertAll (calls : List (Network × α)) :
    (empty.insertAll calls).size = (calls.map fun call => call.1.place).toFinset.card := by
  induction calls using List.reverseRecOn with
  | nil => rfl
  | append_singleton calls call ih =>
    have hget : (empty.insertAll calls).get? call.1 =
        lastValue? calls call.1.family call.1.key := get?_tree_insertAll calls _ _
    have hkeys : ((calls ++ [call]).map fun call => call.1.place).toFinset =
        Insert.insert call.1.place (calls.map fun call => call.1.place).toFinset := by
      ext place
      simp
    rw [insertAll_append, insertAll_singleton, size_insert, hget, hkeys, Finset.card_insert_eq_ite,
      ih]
    simp only [isSome_lastValue?_iff, List.mem_toFinset]

/-! ## Requests -/

/-- A request to attach a value to a range. -/
inductive Request (α : Type) where
  /-- The range is given as text. -/
  | ofText (s : String) (value : α)
  | ofNetwork (n : Network) (value : α)

namespace Request

/-- The range that a request is about, or the error that its text denotes none. -/
def target : Request α → Except Error Network
  | ofText s _ => Network.parse s
  | ofNetwork n _ => .ok n

/-- The value that a request attaches. -/
def value : Request α → α
  | ofText _ value => value
  | ofNetwork _ value => value

/-- Carries out a request. The result also holds the value that the range had before. -/
def perform (t : RangeTable α) : Request α → Except Error (Option α × RangeTable α)
  | ofText s value => t.insertText s value
  | ofNetwork n value => .ok (t.get? n, t.insert n value)

/-- The table after a request. A request that fails leaves the table as it was. -/
def after (t : RangeTable α) (q : Request α) : RangeTable α :=
  match q.perform t with
  | .ok (_, next) => next
  | .error _ => t

/-- The insertion that a request stands for. -/
def call? (q : Request α) : Option (Network × α) :=
  q.target.toOption.map (·, q.value)

/-- A request succeeds exactly if it is about a range. -/
theorem perform_eq (t : RangeTable α) (q : Request α) :
    q.perform t = q.target.map fun n => (t.get? n, t.insert n q.value) := by
  cases q with
  | ofNetwork n value => rfl
  | ofText s value =>
    cases h : Network.parse s with
    | ok n => simp [perform, target, Request.value, insertText_of_ok h, h, Except.map]
    | error e => simp [perform, target, insertText_of_error h, h, Except.map]

theorem perform_eq_error_iff (t : RangeTable α) (q : Request α) :
    (∃ e, q.perform t = .error e) ↔ ∃ e, q.target = .error e := by
  rw [perform_eq]
  cases q.target <;> simp [Except.map]

theorem after_eq (t : RangeTable α) (q : Request α) : q.after t = t.insertAll q.call?.toList := by
  rw [after, perform_eq, call?]
  cases q.target <;> rfl

theorem call?_eq_none_iff (q : Request α) : q.call? = none ↔ ∃ e, q.target = .error e := by
  rw [call?]
  cases q.target <;> simp [Except.toOption]

end Request

/-- The table after a history of requests. -/
def reach (history : List (Request α)) : RangeTable α :=
  history.foldl Request.after empty

/-- The insertions among the requests of a history. -/
def calls (history : List (Request α)) : List (Network × α) :=
  history.filterMap Request.call?

/-- Every table that can be reached is made by insertions alone. -/
theorem reach_eq_insertAll (history : List (Request α)) :
    reach history = empty.insertAll (calls history) := by
  induction history using List.reverseRecOn with
  | nil => rfl
  | append_singleton history q ih =>
    rw [reach, List.foldl_append, List.foldl_cons, List.foldl_nil, ← reach, ih, Request.after_eq,
      ← insertAll_append, calls, calls, List.filterMap_append]
    congr 2

theorem isEmpty_reach_iff (history : List (Request α)) :
    (reach history).isEmpty = true ↔ ∀ q ∈ history, ∃ e, q.target = .error e := by
  rw [reach_eq_insertAll, isEmpty, beq_iff_eq, size_insertAll, Finset.card_eq_zero,
    List.toFinset_eq_empty_iff, List.map_eq_nil_iff, calls, List.filterMap_eq_nil_iff]
  simp only [Request.call?_eq_none_iff]

/-- Insertion reports and counts exactly. After any history of requests, a request reports the value
of the last insertion with the same key among those of the history, unless it names no range. The
size is the number of different keys that were inserted, and the number of values in the two trees;
a table is empty exactly if every request of its history has failed. -/
theorem reports_and_counts_of_reach (history : List (Request α)) :
    (∀ q : Request α, (q.perform (reach history)).map Prod.fst =
      q.target.map fun n => lastValue? (calls history) n.family n.key) ∧
    (reach history).size = ((calls history).map fun call => call.1.place).toFinset.card ∧
    (reach history).size = (reach history).v4.size + (reach history).v6.size ∧
    ((reach history).isEmpty = true ↔ ∀ earlier q later, history = earlier ++ q :: later →
      ∃ e, q.perform (reach earlier) = .error e) := by
  refine ⟨fun q => ?_, ?_, ?_, ?_⟩
  · rw [Request.perform_eq, reach_eq_insertAll]
    cases q.target with
    | error e => rfl
    | ok n => exact congrArg Except.ok (get?_tree_insertAll (calls history) n.family n.key)
  · rw [reach_eq_insertAll, size_insertAll]
  · rw [reach_eq_insertAll]
    exact countsValues_insertAll (calls history)
  · simp only [Request.perform_eq_error_iff, isEmpty_reach_iff]
    constructor
    · rintro h earlier q later rfl
      exact h q (by simp)
    · intro h q hq
      obtain ⟨earlier, later, rfl⟩ := List.append_of_mem hq
      exact h earlier q later rfl

end RangeTable

end GeoPolicy
