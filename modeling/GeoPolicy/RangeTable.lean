import GeoPolicy.Address
import GeoPolicy.Ruleset

/-!
# Range tables

A range table attaches values to address ranges and finds, for an address, the value of the
longest range that contains it. Each family has a binary tree of its own; the path to a node is
the key of its range.

## Main definitions

* `PathTree` — a binary tree over bit paths.
* `RangeTable` — the trees of the two families and the number of their values.
* `RangeTable.insert`, `RangeTable.longestMatch` — the two operations.
* `RangeTable.ofRuleset` — the table of a ruleset, with the events of its loading.
-/

namespace GeoPolicy

/-! ## Trees over bit paths -/

/-- A binary tree. A node may carry a value and has a child for each bit. -/
inductive PathTree (α : Type) where
  /-- No node. -/
  | absent
  /-- A node, its children for the bits 0 and 1. -/
  | node (value : Option α) (zero one : PathTree α)
  deriving DecidableEq, Repr

namespace PathTree

variable {α : Type}

/-- The tree of a root alone, without a value. -/
def empty : PathTree α :=
  node none absent absent

/-- Attaches a value to the node at a path, and makes the nodes that are missing on the way. -/
def insert (value : α) : List Bool → PathTree α → PathTree α
  | [], absent => node (some value) absent absent
  | [], node _ zero one => node (some value) zero one
  | false :: path, absent => node none (insert value path absent) absent
  | true :: path, absent => node none absent (insert value path absent)
  | false :: path, node v zero one => node v (insert value path zero) one
  | true :: path, node v zero one => node v zero (insert value path one)

/-- The value at a path. -/
def get? : List Bool → PathTree α → Option α
  | _, absent => none
  | [], node v _ _ => v
  | false :: path, node _ zero _ => get? path zero
  | true :: path, node _ _ one => get? path one

/-- The value of the deepest node with a value on the way along a path. -/
def deepest? : List Bool → PathTree α → Option α
  | _, absent => none
  | [], node v _ _ => v
  | false :: path, node v zero _ => (deepest? path zero).or v
  | true :: path, node v _ one => (deepest? path one).or v

/-- The number of nodes with a value. -/
def size : PathTree α → Nat
  | absent => 0
  | node v zero one => (if v.isSome then 1 else 0) + zero.size + one.size

end PathTree

/-! ## Tables -/

/-- A table of values by address range. The number of values is kept beside the trees. -/
structure RangeTable (α : Type) where
  v4 : PathTree α
  v6 : PathTree α
  size : Nat
  deriving DecidableEq, Repr

namespace RangeTable

variable {α : Type}

/-- The table without ranges. -/
def empty : RangeTable α :=
  ⟨.empty, .empty, 0⟩

/-- Whether a table has no ranges. -/
def isEmpty (t : RangeTable α) : Bool :=
  t.size == 0

/-- The tree of a family. -/
def tree (t : RangeTable α) : AddressFamily → PathTree α
  | .v4 => t.v4
  | .v6 => t.v6

/-- The value attached to a range itself. -/
def get? (t : RangeTable α) (n : Network) : Option α :=
  (t.tree n.family).get? n.key

/-- Attaches a value to a range, in place of any value that the same range had. -/
def insert (t : RangeTable α) (n : Network) (value : α) : RangeTable α :=
  let size := if (t.get? n).isSome then t.size else t.size + 1
  match n.family with
  | .v4 => { t with v4 := t.v4.insert value n.key, size }
  | .v6 => { t with v6 := t.v6.insert value n.key, size }

/-- The value of the longest range that contains an address. -/
def longestMatch (t : RangeTable α) (a : Address) : Option α :=
  (t.tree a.family).deepest? a.path

/-! ## Tables by text -/

/-- Attaches a value to the range that a text denotes. The result also holds the value that the
range had before. -/
def insertText (t : RangeTable α) (s : String) (value : α) :
    Except Error (Option α × RangeTable α) := do
  let n ← Network.parse s
  return (t.get? n, t.insert n value)

/-- The value of the longest range that contains the address that a text denotes. -/
def matchText (t : RangeTable α) (s : String) : Except Error (Option α) := do
  return t.longestMatch (← Address.parse s)

end RangeTable

/-! ## Tables of rulesets -/

/-- What a rule says about the addresses of its ranges. -/
structure RangeTag where
  region : String
  action : Action
  deriving DecidableEq, Repr

/-- An event worth telling while a ruleset is loaded into a table. -/
inductive LoadEvent where
  /-- A range passed from one region to another. -/
  | retagged (cidr before after : String)
  /-- A text of a region's rule is no range. -/
  | skipped (region : String) (error : Error)
  /-- At the end: how many of all ranges were left out. -/
  | incomplete (skipped total : Nat)
  deriving DecidableEq, Repr

/-- Loads one range of a rule. -/
def RangeTable.loadRange (rule : RegionRule) (state : RangeTable RangeTag × List LoadEvent)
    (cidr : String) : RangeTable RangeTag × List LoadEvent :=
  match state.1.insertText cidr { region := rule.region, action := rule.action } with
  | .ok (some previous, table) =>
    (table, state.2 ++ [.retagged cidr previous.region rule.region])
  | .ok (none, table) => (table, state.2)
  | .error e => (state.1, state.2 ++ [.skipped rule.region e])

/-- Whether an event tells of a text that is no range. -/
def LoadEvent.isSkip : LoadEvent → Bool
  | skipped _ _ => true
  | _ => false

/-- The table of all ranges of a ruleset. Rules are loaded in order, so a later rule takes over
the ranges it shares with an earlier one; texts that are no ranges are left out. -/
def RangeTable.ofRuleset (r : Ruleset) : RangeTable RangeTag × List LoadEvent :=
  let (table, events) := r.rules.foldl
    (fun state rule => rule.cidrs.foldl (RangeTable.loadRange rule) state) (.empty, [])
  let skipped := events.countP LoadEvent.isSkip
  (table, if skipped = 0 then events else events ++ [.incomplete skipped r.rangeCount])

end GeoPolicy
