import GeoPolicy.Proofs.Address.Prefix
import GeoPolicy.Proofs.RangeTable.PathTree
import Mathlib.Data.List.Basic

/-!
# Longest matches

A table is compared with the list of the insertions that made it. The invariant of a run is
`get?_tree_insertAll`: at each path of a family stands the value of the last insertion with that
key. From it `longestMatch_insertAll` says what a table answers, in terms of the insertions alone.

## Main definitions

* `RangeTable.insertAll` — a table after a list of insertions.
* `RangeTable.lastValue?` — the value that was last written under a key.
-/

namespace GeoPolicy

namespace RangeTable

variable {α : Type}

/-! ## One insertion -/

@[simp] theorem tree_empty (f : AddressFamily) : (empty : RangeTable α).tree f = .empty := by
  cases f <;> rfl

theorem tree_insert (t : RangeTable α) (n : Network) (value : α) (f : AddressFamily) :
    (t.insert n value).tree f =
      if n.family = f then (t.tree f).insert value n.key else t.tree f := by
  unfold insert
  cases hn : n.family <;> cases f <;> simp [tree]

/-- An insertion writes under the key of its range, in the tree of its family. -/
theorem get?_tree_insert (t : RangeTable α) (n : Network) (value : α) (f : AddressFamily)
    (key : List Bool) :
    ((t.insert n value).tree f).get? key =
      if n.family = f ∧ n.key = key then some value else (t.tree f).get? key := by
  rw [tree_insert]
  by_cases hf : n.family = f
  · simp [hf, PathTree.get?_insert, eq_comm]
  · simp [hf]

/-- A range has the value that was inserted last. -/
theorem get?_insert (t : RangeTable α) (n : Network) (value : α) :
    (t.insert n value).get? n = some value := by
  rw [get?, get?_tree_insert, if_pos ⟨rfl, rfl⟩]

/-! ## Runs of insertions -/

/-- The table after ranges with values have been inserted in order. -/
def insertAll (t : RangeTable α) (calls : List (Network × α)) : RangeTable α :=
  calls.foldl (fun t call => t.insert call.1 call.2) t

@[simp] theorem insertAll_nil (t : RangeTable α) : t.insertAll [] = t := rfl

@[simp] theorem insertAll_append (t : RangeTable α) (before after : List (Network × α)) :
    t.insertAll (before ++ after) = (t.insertAll before).insertAll after :=
  List.foldl_append

@[simp] theorem insertAll_singleton (t : RangeTable α) (call : Network × α) :
    t.insertAll [call] = t.insert call.1 call.2 := rfl

/-- The value of the last insertion under a key of a family. -/
def lastValue? (calls : List (Network × α)) (f : AddressFamily) (key : List Bool) : Option α :=
  (calls.reverse.find? fun call => call.1.family = f ∧ call.1.key = key).map (·.2)

theorem lastValue?_append_singleton (calls : List (Network × α)) (call : Network × α)
    (f : AddressFamily) (key : List Bool) :
    lastValue? (calls ++ [call]) f key =
      if call.1.family = f ∧ call.1.key = key then some call.2 else lastValue? calls f key := by
  by_cases h : call.1.family = f ∧ call.1.key = key <;> simp [lastValue?, h]

theorem lastValue?_eq_none_iff (calls : List (Network × α)) (f : AddressFamily)
    (key : List Bool) :
    lastValue? calls f key = none ↔ ∀ call ∈ calls, ¬(call.1.family = f ∧ call.1.key = key) := by
  simp [lastValue?]

theorem lastValue?_eq_some_iff (calls : List (Network × α)) (f : AddressFamily)
    (key : List Bool) (value : α) :
    lastValue? calls f key = some value ↔
      ∃ before n after, calls = before ++ (n, value) :: after ∧ n.family = f ∧ n.key = key ∧
        ∀ call ∈ after, ¬(call.1.family = f ∧ call.1.key = key) := by
  rw [lastValue?, Option.map_eq_some_iff]
  constructor
  · rintro ⟨⟨n, v⟩, hfind, rfl⟩
    obtain ⟨hn, later, earlier, hsplit, hlater⟩ := List.find?_eq_some_iff_append.1 hfind
    rw [decide_eq_true_eq] at hn
    refine ⟨earlier.reverse, n, later.reverse, ?_, hn.1, hn.2, ?_⟩
    · simpa using congrArg List.reverse hsplit
    · intro call hcall
      simpa [imp_iff_not_or] using hlater call (List.mem_reverse.1 hcall)
  · rintro ⟨before, n, after, rfl, hf, hk, hafter⟩
    refine ⟨(n, value), List.find?_eq_some_iff_append.2 ⟨by simp [hf, hk], after.reverse,
      before.reverse, by simp, ?_⟩, rfl⟩
    intro call hcall
    simpa [imp_iff_not_or] using hafter call (List.mem_reverse.1 hcall)

/-- The invariant of a run from the empty table: at each key stands the last value. -/
theorem get?_tree_insertAll (calls : List (Network × α)) (f : AddressFamily) (key : List Bool) :
    ((empty.insertAll calls).tree f).get? key = lastValue? calls f key := by
  induction calls using List.reverseRecOn with
  | nil => simp [lastValue?]
  | append_singleton calls call ih =>
    rw [insertAll_append, insertAll_singleton, get?_tree_insert, lastValue?_append_singleton, ih]

/-! ## Answers -/

/-- A range that covers an address has its key on the way to the address, and a key on the way
belongs to ranges that cover it. -/
theorem lastValue?_path_eq_none_iff (calls : List (Network × α)) (a : Address) (p : List Bool)
    (hp : p <+: a.path) :
    lastValue? calls a.family p = none ↔
      ∀ call ∈ calls, call.1.Covers a → call.1.length ≠ p.length := by
  rw [lastValue?_eq_none_iff]
  refine forall₂_congr fun call _ => ?_
  constructor
  · intro h hcov hlen
    refine h ⟨hcov.family_eq, ?_⟩
    rw [hcov.key_eq, hlen, ← List.prefix_iff_eq_take.1 hp]
  · rintro h ⟨hf, hk⟩
    refine h (Network.covers_of_key_isPrefix hf (hk ▸ hp)) ?_
    rw [← Network.length_key, hk]

/-- The answer of a table stands at the longest key on the way to the address. -/
theorem longestMatch_eq_some_iff (calls : List (Network × α)) (a : Address) (value : α) :
    (empty.insertAll calls).longestMatch a = some value ↔
      ∃ p, p <+: a.path ∧ lastValue? calls a.family p = some value ∧
        ∀ call ∈ calls, call.1.Covers a → call.1.length ≤ p.length := by
  simp only [longestMatch, PathTree.deepest?_eq_some_iff, get?_tree_insertAll]
  refine exists_congr fun p => and_congr_right fun _ => and_congr_right fun _ => ?_
  constructor
  · intro hlong call hcall hcov
    by_contra hlt
    rw [not_le, ← Network.length_key] at hlt
    have hnone := hlong call.1.key hcov.key_isPrefix hlt
    rw [lastValue?_path_eq_none_iff calls a _ hcov.key_isPrefix] at hnone
    exact hnone call hcall hcov (Network.length_key _).symm
  · intro hle q hq hlt
    rw [lastValue?_path_eq_none_iff calls a q hq]
    intro call hcall hcov
    exact ((hle call hcall hcov).trans_lt hlt).ne

/-- A table has no answer exactly if no insertion covers the address. -/
theorem longestMatch_eq_none_iff (calls : List (Network × α)) (a : Address) :
    (empty.insertAll calls).longestMatch a = none ↔ ∀ call ∈ calls, ¬call.1.Covers a := by
  simp only [longestMatch, PathTree.deepest?_eq_none_iff, get?_tree_insertAll]
  constructor
  · intro h call hcall hcov
    have hnone := h call.1.key hcov.key_isPrefix
    rw [lastValue?_path_eq_none_iff calls a _ hcov.key_isPrefix] at hnone
    exact hnone call hcall hcov (Network.length_key _).symm
  · intro h p hp
    rw [lastValue?_path_eq_none_iff calls a p hp]
    exact fun call hcall hcov => absurd hcov (h call hcall)

/-- A table answers with the last of the longest covering insertions. -/
theorem longestMatch_eq_some_iff_split (calls : List (Network × α)) (a : Address) (value : α) :
    (empty.insertAll calls).longestMatch a = some value ↔
      ∃ before n after, calls = before ++ (n, value) :: after ∧ n.Covers a ∧
        (∀ call ∈ before, call.1.Covers a → call.1.length ≤ n.length) ∧
        ∀ call ∈ after, call.1.Covers a → call.1.length < n.length := by
  rw [longestMatch_eq_some_iff]
  constructor
  · rintro ⟨p, hp, hlast, hle⟩
    obtain ⟨before, n, after, rfl, hf, rfl, hafter⟩ :=
      (lastValue?_eq_some_iff calls a.family p value).1 hlast
    have hn : n.Covers a := Network.covers_of_key_isPrefix hf hp
    rw [Network.length_key] at hle
    refine ⟨before, n, after, rfl, hn, fun call hcall => hle call (by simp [hcall]), ?_⟩
    intro call hcall hcov
    refine (hle call (by simp [hcall]) hcov).lt_of_ne fun hlen => ?_
    exact hafter call hcall ⟨hcov.family_eq, hcov.key_eq_key hn hlen⟩
  · rintro ⟨before, n, after, rfl, hn, hbefore, hafter⟩
    refine ⟨n.key, hn.key_isPrefix, (lastValue?_eq_some_iff _ _ _ _).2
      ⟨before, n, after, rfl, hn.family_eq, rfl, ?_⟩, ?_⟩
    · rintro call hcall ⟨hf, hk⟩
      have hcov := Network.covers_of_key_isPrefix hf (hk ▸ hn.key_isPrefix)
      have hlen : call.1.length = n.length := by rw [← Network.length_key, hk, Network.length_key]
      exact (hafter call hcall hcov).ne hlen
    · intro call hcall hcov
      rw [Network.length_key]
      obtain hcall | hcall := List.mem_append.1 hcall
      · exact hbefore call hcall hcov
      obtain rfl | hcall := List.mem_cons.1 hcall
      · exact le_rfl
      · exact (hafter call hcall hcov).le

/-- Longest-prefix match. After any insertions into an empty table the answer for an address is
the value of the last one among the longest ranges that cover it; there is no answer exactly if no
range covers it. -/
theorem longestMatch_insertAll (calls : List (Network × α)) (a : Address) :
    ((empty.insertAll calls).longestMatch a = none ↔ ∀ call ∈ calls, ¬call.1.Covers a) ∧
    ∀ value, (empty.insertAll calls).longestMatch a = some value ↔
      ∃ before n after, calls = before ++ (n, value) :: after ∧ n.Covers a ∧
        (∀ call ∈ before, call.1.Covers a → call.1.length ≤ n.length) ∧
        ∀ call ∈ after, call.1.Covers a → call.1.length < n.length :=
  ⟨longestMatch_eq_none_iff calls a, longestMatch_eq_some_iff_split calls a⟩

end RangeTable

end GeoPolicy
