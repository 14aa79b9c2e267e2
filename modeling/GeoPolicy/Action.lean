import GeoPolicy.Text.Blank
import GeoPolicy.Text.Case

/-!
# Policy actions

What a policy does with the traffic of its regions, and the words for it in the packet filters.

## Main definitions

* `Action` — allow or block.
* `Action.parse?` — the action that a person wrote.
* `Action.filterVerb`, `Action.nftVerb` — the verdicts of the generated rules.
-/

namespace GeoPolicy

/-- What the generated rules do with matching traffic. -/
inductive Action where
  /-- Traffic of the listed regions is accepted. -/
  | allow
  /-- Traffic of the listed regions is dropped. -/
  | block
  deriving DecidableEq, Repr

namespace Action

/-- The name of an action. -/
def name : Action → String
  | allow => "ALLOW"
  | block => "BLOCK"

/-- The jump target of `iptables` and `ip6tables` rules. -/
def filterVerb : Action → String
  | allow => "ACCEPT"
  | block => "DROP"

/-- The verdict of `nft` rules. -/
def nftVerb : Action → String
  | allow => "accept"
  | block => "drop"

/-- The action with a given name or verdict in upper case. -/
def ofUpper? : String → Option Action
  | "ALLOW" | "ACCEPT" => some allow
  | "BLOCK" | "DROP" => some block
  | _ => none

/-- The action a person wrote: a name or a verdict, in any case, between blanks. Folding the case
of ASCII letters decides, as no other letter has a capital spelled with letters of these words. -/
def parse? (s : String) : Option Action :=
  ofUpper? (Text.asciiUpper (Text.trim s))

/-- The names and verdicts that may stand in a document. -/
def documentNames : List String :=
  ["ACCEPT", "ALLOW", "accept", "allow", "BLOCK", "DROP", "block", "drop"]

/-- The action in a document: a name or a verdict, wholly in upper or wholly in lower case. -/
def ofDocument? : String → Option Action
  | "ALLOW" | "ACCEPT" | "allow" | "accept" => some allow
  | "BLOCK" | "DROP" | "block" | "drop" => some block
  | _ => none

end Action

end GeoPolicy
