import GeoPolicy.Proofs.RangeTable.History

/-!
# Canonical tables

The trees of a table have the nodes that lead to a key and no others. So a table is told by the
value that was last written under each key: neither the order of the insertions nor the values that
were written over leave a trace.
-/

namespace GeoPolicy

theorem Network.length_key_le (n : Network) : n.key.length ≤ n.family.width := by
  rw [length_key]
  exact n.length_le

namespace RangeTable

variable {α : Type}

/-! ## Nodes -/

/-- Apart from the root there is a node at each beginning of a key, and at no other path. -/
theorem hasNode_tree_insertAll (calls : List (Network × α)) (f : AddressFamily)
    (path : List Bool) :
    ((empty.insertAll calls).tree f).hasNode path = true ↔
      path = [] ∨ ∃ call ∈ calls, call.1.family = f ∧ path <+: call.1.key := by
  induction calls using List.reverseRecOn with
  | nil => simp
  | append_singleton calls call ih =>
    rw [insertAll_append, insertAll_singleton, tree_insert]
    by_cases hf : call.1.family = f
    · rw [if_pos hf, PathTree.hasNode_insert, ih]
      simp [hf, or_and_right, exists_or, or_left_comm, or_comm]
    · rw [if_neg hf, ih]
      simp [hf, or_and_right, exists_or]

/-- A path leads to a key that was inserted exactly if a value was written at its end. -/
theorem exists_call_iff (calls : List (Network × α)) (f : AddressFamily) (path : List Bool) :
    (∃ call ∈ calls, call.1.family = f ∧ path <+: call.1.key) ↔
      ∃ key, path <+: key ∧ lastValue? calls f key ≠ none := by
  constructor
  · rintro ⟨call, hcall, hf, hpath⟩
    refine ⟨call.1.key, hpath, fun hnone => ?_⟩
    exact (lastValue?_eq_none_iff calls f _).1 hnone call hcall ⟨hf, rfl⟩
  · rintro ⟨key, hpath, hsome⟩
    rw [Ne, lastValue?_eq_none_iff] at hsome
    push Not at hsome
    obtain ⟨call, hcall, hf, rfl⟩ := hsome
    exact ⟨call, hcall, hf, hpath⟩

/-! ## Two runs -/

/-- The values under the keys of ranges are all that was written. -/
theorem lastValue?_congr {first second : List (Network × α)}
    (h : ∀ n : Network, lastValue? first n.family n.key = lastValue? second n.family n.key)
    (f : AddressFamily) (key : List Bool) : lastValue? first f key = lastValue? second f key := by
  by_cases hkey : ∃ n : Network, n.family = f ∧ n.key = key
  · obtain ⟨n, rfl, rfl⟩ := hkey
    exact h n
  · have hnone : ∀ calls : List (Network × α), lastValue? calls f key = none := by
      intro calls
      rw [lastValue?_eq_none_iff]
      exact fun call _ hcall => hkey ⟨call.1, hcall⟩
    rw [hnone, hnone]

theorem eq_of_tree_eq {s t : RangeTable α} (hs : s.CountsValues) (ht : t.CountsValues)
    (h : ∀ f, s.tree f = t.tree f) : s = t := by
  have hv4 : s.v4 = t.v4 := h .v4
  have hv6 : s.v6 = t.v6 := h .v6
  have hsize : s.size = t.size := by rw [hs, ht, hv4, hv6]
  cases s
  cases t
  simp_all

/-- Insertions that leave the same value under each key make one table. -/
theorem insertAll_congr {first second : List (Network × α)}
    (h : ∀ n : Network, lastValue? first n.family n.key = lastValue? second n.family n.key) :
    empty.insertAll first = empty.insertAll second := by
  refine eq_of_tree_eq (countsValues_insertAll first) (countsValues_insertAll second) fun f => ?_
  refine PathTree.ext_paths (fun path => ?_) fun path => ?_
  · rw [Bool.eq_iff_iff, hasNode_tree_insertAll, hasNode_tree_insertAll, exists_call_iff,
      exists_call_iff]
    simp only [lastValue?_congr h]
  · rw [get?_tree_insertAll, get?_tree_insertAll, lastValue?_congr h]

/-- Tables are canonical. Two lists of insertions that leave the same value under each key, where a
key that was not inserted has none, make one and the same table. In every table that can be reached,
a node other than a root stands at a path exactly if the path is a beginning of a key that was
inserted; so a leaf other than a root has a value, and no path is longer than the addresses of its
family. -/
theorem canonical_of_reach :
    (∀ first second : List (Network × α),
      (∀ n : Network, lastValue? first n.family n.key = lastValue? second n.family n.key) →
        empty.insertAll first = empty.insertAll second) ∧
    ∀ (history : List (Request α)) (f : AddressFamily) (path : List Bool),
      (path ≠ [] → (((reach history).tree f).hasNode path = true ↔
        ∃ call ∈ calls history, call.1.family = f ∧ path <+: call.1.key)) ∧
      (path ≠ [] → ((reach history).tree f).hasNode path = true →
        (∀ bit, ((reach history).tree f).hasNode (path ++ [bit]) = false) →
          (((reach history).tree f).get? path).isSome = true) ∧
      (((reach history).tree f).hasNode path = true → path.length ≤ f.width) := by
  refine ⟨fun first second => insertAll_congr, fun history f path => ?_⟩
  rw [reach_eq_insertAll]
  have hnode := hasNode_tree_insertAll (calls history) f
  refine ⟨fun hpath => ?_, fun hpath hhere hleaf => ?_, fun hhere => ?_⟩
  · simp [hnode, hpath]
  · -- A key that goes on beyond the leaf would have a node there.
    obtain hroot | ⟨call, hcall, hf, rest, hkey⟩ := (hnode path).1 hhere
    · exact absurd hroot hpath
    cases rest with
    | cons bit rest =>
      have hbelow : ((empty.insertAll (calls history)).tree f).hasNode (path ++ [bit]) = true :=
        (hnode _).2 (.inr ⟨call, hcall, hf, rest, by simpa using hkey⟩)
      rw [hleaf] at hbelow
      exact absurd hbelow Bool.false_ne_true
    | nil =>
      rw [List.append_nil] at hkey
      rw [get?_tree_insertAll, Option.isSome_iff_ne_none, Ne, lastValue?_eq_none_iff]
      exact fun hnone => hnone call hcall ⟨hf, hkey.symm⟩
  · obtain rfl | ⟨call, -, rfl, hkey⟩ := (hnode path).1 hhere
    · exact Nat.zero_le _
    · exact hkey.length_le.trans call.1.length_key_le

/-- Two orders of insertion, one of them with a value that is written over and with free bits. -/
theorem canonical_of_reach_reordered :
    ∃ wide wideHost narrow : Network, wide.address ≠ wideHost.address ∧
      empty.insertAll [(wide, "X"), (narrow, "Y")] =
        empty.insertAll [(narrow, "old"), (wideHost, "X"), (narrow, "Y")] ∧
      (((reach [.ofNetwork wide "X", .ofNetwork narrow "Y"]).tree .v4).get? narrow.key).isSome =
        true := by
  let wide : Network := ⟨.ofOctets [10, 0, 0, 0], 8, by decide⟩
  let wideHost : Network := ⟨.ofOctets [10, 9, 8, 7], 8, by decide⟩
  let narrow : Network := ⟨.ofOctets [10, 1, 0, 0], 16, by decide⟩
  have hfamily : wideHost.family = wide.family := rfl
  have hkey : wideHost.key = wide.key := by decide
  refine ⟨wide, wideHost, narrow, by decide, canonical_of_reach.1 _ _ fun n => ?_, ?_⟩
  · have hlast := fun calls call =>
      lastValue?_append_singleton (α := String) calls call n.family n.key
    have hfirst := hlast [(wide, "X")] (narrow, "Y")
    have hsecond := hlast [(narrow, "old"), (wideHost, "X")] (narrow, "Y")
    have hwide := hlast [] (wide, "X")
    have hwideHost := hlast [(narrow, "old")] (wideHost, "X")
    have hnarrow := hlast [] (narrow, "old")
    simp only [List.nil_append, List.cons_append] at hfirst hsecond hwide hwideHost hnarrow
    grind
  · exact (canonical_of_reach.2 _ .v4 narrow.key).2.1 (by decide) (by decide) (by decide)

end RangeTable

end GeoPolicy
