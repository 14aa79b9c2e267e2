import GeoPolicy.RangeTable
import Mathlib.Data.List.Infix

/-!
# Trees over bit paths

What the operations on trees do to the values at paths. A tree is read through `get?`: insertion
overwrites one path, and the deepest value along a path is the value at the longest beginning of
the path that has one. With `hasNode`, which also sees the nodes without a value, a tree is told
apart from every other one.

## Main definitions

* `PathTree.hasNode` — whether there is a node at a path.
-/

namespace GeoPolicy

namespace PathTree

variable {α : Type}

/-! ## Values at paths -/

@[simp] theorem get?_absent (path : List Bool) : get? path (absent : PathTree α) = none := by
  cases path <;> rfl

@[simp] theorem get?_empty (path : List Bool) : get? path (empty : PathTree α) = none := by
  match path with
  | [] => rfl
  | false :: rest => exact get?_absent rest
  | true :: rest => exact get?_absent rest

/-- Insertion overwrites the value at one path. The nodes it makes on the way have no values. -/
theorem get?_insert (value : α) (path other : List Bool) (t : PathTree α) :
    get? other (t.insert value path) = if other = path then some value else get? other t := by
  fun_induction insert value path t generalizing other with
  | case1 =>
    cases other with
    | nil => rfl
    | cons b rest => cases b <;> simp [get?]
  | case2 v zero one =>
    cases other with
    | nil => rfl
    | cons b rest => cases b <;> simp [get?]
  | case3 path ih | case4 path ih | case5 path v zero one ih | case6 path v zero one ih =>
    match other with
    | [] => simp [get?]
    | false :: rest => simp [get?, ih]
    | true :: rest => simp [get?, ih]

/-- Insertion adds one value, unless the path has a value already. -/
theorem size_insert (value : α) (path : List Bool) (t : PathTree α) :
    (t.insert value path).size = if (get? path t).isSome then t.size else t.size + 1 := by
  fun_induction insert value path t with
  | case1 => rfl
  | case2 v zero one => cases v <;> grind [size, get?]
  | case3 path ih | case4 path ih => simp_all [size]
  | case5 path v zero one ih | case6 path v zero one ih => grind [size, get?]

/-! ## Nodes -/

/-- Whether there is a node at a path. -/
def hasNode : List Bool → PathTree α → Bool
  | _, absent => false
  | [], node _ _ _ => true
  | false :: path, node _ zero _ => hasNode path zero
  | true :: path, node _ _ one => hasNode path one

@[simp] theorem hasNode_absent (path : List Bool) :
    hasNode path (absent : PathTree α) = false := by
  cases path <;> rfl

@[simp] theorem hasNode_empty (path : List Bool) :
    hasNode path (empty : PathTree α) = true ↔ path = [] := by
  rcases path with _ | ⟨_ | _, rest⟩ <;> simp [empty, hasNode]

/-- Insertion makes the nodes along its path and no others. -/
theorem hasNode_insert (value : α) (path other : List Bool) (t : PathTree α) :
    hasNode other (t.insert value path) = true ↔ other <+: path ∨ hasNode other t = true := by
  fun_induction insert value path t generalizing other with
  | case1 | case2 v zero one => rcases other with _ | ⟨_ | _, rest⟩ <;> simp [hasNode]
  | case3 path ih | case4 path ih | case5 path v zero one ih | case6 path v zero one ih =>
    rcases other with _ | ⟨_ | _, rest⟩ <;> simp [hasNode, ih]

/-- A tree is told by its nodes and the values at its paths. -/
theorem ext_paths {s t : PathTree α} (hnode : ∀ p, hasNode p s = hasNode p t)
    (hget : ∀ p, get? p s = get? p t) : s = t := by
  induction s generalizing t with
  | absent =>
    cases t with
    | absent => rfl
    | node w zero one => exact absurd (hnode []) Bool.false_ne_true
  | node v zero one ihzero ihone =>
    cases t with
    | absent => exact absurd (hnode []).symm Bool.false_ne_true
    | node w zero' one' =>
      have hvalue : v = w := hget []
      have hzero : zero = zero' := ihzero (fun p => hnode (false :: p)) fun p => hget (false :: p)
      have hone : one = one' := ihone (fun p => hnode (true :: p)) fun p => hget (true :: p)
      rw [hvalue, hzero, hone]

/-! ## The deepest value along a path -/

/-- Where a node is missing nothing deeper is lost: no longer path has a value. -/
theorem deepest?_eq_none_iff (path : List Bool) (t : PathTree α) :
    deepest? path t = none ↔ ∀ q, q <+: path → get? q t = none := by
  fun_induction deepest? path t with
  | case1 => simp
  | case2 v zero one => simp [get?]
  | case3 path v zero one ih | case4 path v zero one ih =>
    rw [Option.or_eq_none_iff, ih]
    constructor
    · rintro ⟨hdeep, hhere⟩ q hq
      obtain rfl | ⟨rest, rfl, hrest⟩ := List.prefix_cons_iff.1 hq
      · exact hhere
      · exact hdeep rest hrest
    · intro h
      refine ⟨fun q hq => h (_ :: q) (List.cons_prefix_cons.2 ⟨rfl, hq⟩), ?_⟩
      exact h [] List.nil_prefix

/-- The deepest value along a path is the value at its longest beginning that has one. -/
theorem deepest?_eq_some_iff (path : List Bool) (t : PathTree α) (value : α) :
    deepest? path t = some value ↔
      ∃ p, p <+: path ∧ get? p t = some value ∧
        ∀ q, q <+: path → p.length < q.length → get? q t = none := by
  fun_induction deepest? path t with
  | case1 => simp
  | case2 v zero one =>
    constructor
    · intro h
      refine ⟨[], List.prefix_rfl, h, ?_⟩
      intro q hq hlen
      rw [List.prefix_nil.1 hq] at hlen
      exact absurd hlen (Nat.lt_irrefl _)
    · rintro ⟨p, hp, hv, -⟩
      rwa [List.prefix_nil.1 hp] at hv
  | case3 path v zero one ih | case4 path v zero one ih =>
    rw [Option.or_eq_some_iff, ih, deepest?_eq_none_iff]
    constructor
    · rintro (⟨p, hp, hv, hlong⟩ | ⟨hnone, hhere⟩)
      · refine ⟨_ :: p, List.cons_prefix_cons.2 ⟨rfl, hp⟩, hv, ?_⟩
        intro q hq hlen
        obtain rfl | ⟨rest, rfl, hrest⟩ := List.prefix_cons_iff.1 hq
        · exact absurd hlen (Nat.not_lt_zero _)
        · exact hlong rest hrest (by simpa using hlen)
      · refine ⟨[], List.nil_prefix, hhere, ?_⟩
        intro q hq hlen
        obtain rfl | ⟨rest, rfl, hrest⟩ := List.prefix_cons_iff.1 hq
        · exact absurd hlen (Nat.lt_irrefl _)
        · exact hnone rest hrest
    · rintro ⟨p, hp, hv, hlong⟩
      obtain rfl | ⟨rest, rfl, hrest⟩ := List.prefix_cons_iff.1 hp
      · -- The value of the node itself: it counts only if there is nothing below.
        refine .inr ⟨?_, hv⟩
        intro q hq
        exact hlong (_ :: q) (List.cons_prefix_cons.2 ⟨rfl, hq⟩) (by simp)
      · refine .inl ⟨rest, hrest, hv, ?_⟩
        intro q hq hlen
        exact hlong (_ :: q) (List.cons_prefix_cons.2 ⟨rfl, hq⟩) (by simpa using hlen)

end PathTree

end GeoPolicy
