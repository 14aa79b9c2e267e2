import GeoPolicy.Proofs.Script.LineText

/-!
# What statements do

A script is read from its text alone as a list of operations: the making, emptying, filling and use
of sets, chains and tables, with the names that the words of the statements give.

## Main definitions

* `Script.Operation` — what a statement does to a named object.
* `Script.readOperations` — the operations of a script, in order.
* `Script.Line.operations` — the operations of a line, told from the line itself.
-/

namespace GeoPolicy

namespace Script

open Text

/-! ## Reading operations -/

/-- What a statement does to a named object. -/
inductive Operation where
  | createSet (set : String)
  | flushSet (set : String)
  | addToSet (set : String)
  /-- A rule uses a set. -/
  | matchSet (set : String)
  | createChain (tool : String)
  | flushChain (tool : String)
  /-- A rule is appended to the chain of a tool. -/
  | append (tool : String)
  /-- The chain of a tool is called from the input chain. -/
  | link (tool : String)
  | addTable
  | flushTable
  | addNftSet (set : String)
  | addElements (set : String)
  | addNftChain
  /-- A rule is added for the addresses that its operand stands for. -/
  | addNftRule (operand : String)
  deriving DecidableEq, Repr

/-- The operations of a line with the given words. A rule that uses a set does two things. -/
def operationsOfWords : List String → List Operation
  | "#" :: _ => []
  | "ipset" :: "create" :: set :: _ => [.createSet set]
  | "ipset" :: "flush" :: set :: _ => [.flushSet set]
  | "ipset" :: "add" :: set :: _ => [.addToSet set]
  | "nft" :: "add" :: "table" :: "inet" :: "geoguard" :: _ => [.addTable]
  | "nft" :: "flush" :: "table" :: "inet" :: "geoguard" :: _ => [.flushTable]
  | "nft" :: "add" :: "set" :: "inet" :: "geoguard" :: set :: _ => [.addNftSet set]
  | "nft" :: "add" :: "element" :: "inet" :: "geoguard" :: set :: _ => [.addElements set]
  | "nft" :: "add" :: "chain" :: "inet" :: "geoguard" :: _ => [.addNftChain]
  | "nft" :: "add" :: "rule" :: "inet" :: "geoguard" :: _ :: _ :: "saddr" :: operand :: _ =>
    [.addNftRule operand]
  | tool :: "-N" :: "GEOGUARD" :: _ => [.createChain tool]
  | tool :: "-F" :: "GEOGUARD" :: _ => [.flushChain tool]
  | tool :: "-A" :: "GEOGUARD" :: "-m" :: "set" :: "--match-set" :: set :: _ =>
    [.append tool, .matchSet set]
  | tool :: "-A" :: "GEOGUARD" :: _ => [.append tool]
  | tool :: "-C" :: "INPUT" :: "-j" :: "GEOGUARD" :: _ => [.link tool]
  | _ => []

/-- The operations of a script, in order. -/
def readOperations (script : String) : List Operation :=
  (lines script.toList).flatMap fun line => operationsOfWords ((words line).map String.ofList)

/-! ## Operations of written lines -/

/-- The operations of a line, told from the line itself. -/
def Line.operations : Line → List Operation
  | createSet family => [.createSet (setName family)]
  | flushSet family => [.flushSet (setName family)]
  | addToSet family _ => [.addToSet (setName family)]
  | createChain family => [.createChain (tool family)]
  | flushChain family => [.flushChain (tool family)]
  | matchSet family _ => [.append (tool family), .matchSet (setName family)]
  | matchRange family _ _ => [.append (tool family)]
  | linkChain family => [.link (tool family)]
  | addTable => [.addTable]
  | flushTable => [.flushTable]
  | addNftSet family => [.addNftSet (nftSet family)]
  | addElements family _ => [.addElements (nftSet family)]
  | addInputChain => [.addNftChain]
  | addNftRule family _ => [.addNftRule ("@" ++ nftSet family)]
  | _ => []

/-- The words in front of the open places of a line tell its operations. -/
theorem operationsOfWords_text (l : Line) :
    operationsOfWords ((words l.text.toList).map String.ofList) = l.operations := by
  rw [Line.toList_text]
  cases l with
  | interpreter | blank | comment | requireCommand | warnWithoutIPv6 | requireIpset | addTable
  | flushTable | addInputChain | report => rfl
  | heading style =>
    cases style
    all_goals rfl
  | createSet family | flushSet family | addToSet family | createChain family | flushChain family
  | matchSet family | matchRange family | linkChain family | addNftSet family | addElements family
  | addNftRule family =>
    cases family
    all_goals rfl

theorem readOperations_text (ls : List Line) (h : ∀ l ∈ ls, l.WellFormed) :
    readOperations (text ls) = ls.flatMap Line.operations := by
  rw [readOperations, lines_text ls h, List.flatMap_map]
  exact List.flatMap_congr fun l _ => operationsOfWords_text l

end Script

end GeoPolicy
