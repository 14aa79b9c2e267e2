import GeoPolicy.Policy
import GeoPolicy.Text.Utf8
import GeoPolicy.Yaml.Node

/-!
# Policy files

A policy file is a YAML mapping of settings. Each setting may be left out, and members with other
names are ignored. The first setting that cannot be used tells the error, even where the text
breaks the rules further on.

## Main definitions

* `PolicyDraft.ofNode` — the settings in a YAML tree.
* `Policy.ofYaml` — the policy in a YAML text.
* `Policy.ofFile` — the policy in the bytes of a file.
-/

namespace GeoPolicy

namespace Yaml

/-! ## Typed reading -/

namespace Node

/-- The text of a scalar, however it is written. -/
def text (root n : Node) : Except YamlFailure String :=
  match root.target n with
  | scalar _ _ text => .ok text
  | _ => .error .malformed

/-- The texts of a sequence. A node that is left out is a sequence without items. -/
def texts (root n : Node) : Except YamlFailure (List String) :=
  match root.target n with
  | sequence _ items => items.mapM root.text
  | scalar _ .plain "" => .ok []
  | _ => .error .malformed

/-- The truth value with a name. -/
def truthValue? : String → Option Bool
  | "true" | "True" | "TRUE" => some true
  | "false" | "False" | "FALSE" => some false
  | _ => none

/-- The tag of truth values. -/
def boolTag : Tag := Utf8.encode "tag:yaml.org,2002:bool"

/-- A truth value. It is written plainly, or as a literal block with the tag of truth values. -/
def truth (root n : Node) : Except YamlFailure Bool :=
  match root.target n with
  | scalar head style text =>
    match truthValue? text with
    | some b =>
      if style = .plain ∨ (style = .literal ∧ head.tag = some boolTag) then .ok b
      else .error .malformed
    | none => .error .malformed
  | _ => .error .malformed

/-- The backend that a scalar names, in a mapping that starts at a place. -/
def backend (start : Place) (root n : Node) : Except YamlFailure Backend := do
  let text ← root.text n
  match Backend.parse? text with
  | some b => return b
  | none => throw (.unknownBackend text start)

/-- The name of a case without data, if a tag tells it: the text after an exclamation mark, or the
mark alone. -/
def caseOfTag? (tag : Tag) : Option String :=
  match tag with
  | 0x21 :: name => Utf8.decode? (if name = [] then tag else name)
  | _ => none

/-- Whether a node says that there is no data. -/
def isNull : Node → Bool
  | scalar _ .plain text => ["", "~", "null", "Null", "NULL"].contains text
  | _ => false

/-- The action with a name. -/
def actionOf (name : String) (place : Place) : Except YamlFailure Action :=
  match Action.ofDocument? name with
  | some a => .ok a
  | none => .error (.unknownAction name place)

/-- The action that a node names by the text of a scalar, or by the tag of a scalar that says that
there is no data. A tag that names none is noticed in the mapping that starts at a place, or where
an alias stands for the node. -/
def action (start : Place) (root n : Node) : Except YamlFailure Action :=
  let node := root.target n
  match node.tag?.bind caseOfTag?, node with
  | some name, _ => do
    let a ← actionOf name (match n with | aliasTo place _ => place | _ => start)
    if node.isNull then return a else throw .malformed
  | none, scalar head _ text => actionOf text head.place
  | none, _ => .error .malformed

end Node

end Yaml

/-! ## Policies -/

open Yaml

namespace PolicyDraft

/-- The names of settings. -/
def settingNames : List String :=
  ["regions", "backend", "action", "use_address_set", "use_ipv6"]

/-- A draft with one more member of a mapping that starts at a place. -/
def withMember (start : Place) (root : Node) (draft : PolicyDraft) (name : String) (value : Node) :
    Except YamlFailure PolicyDraft := do
  match name with
  | "regions" => return { draft with regions := ← root.texts value }
  | "backend" => return { draft with backend := ← Node.backend start root value }
  | "action" => return { draft with action := ← Node.action start root value }
  | "use_address_set" => return { draft with useAddressSet := ← root.truth value }
  | "use_ipv6" => return { draft with useIPv6 := ← root.truth value }
  | _ => return draft

/-- A draft with the members of a mapping that starts at a place. No setting may be given twice,
nor be one of those that are given already. -/
def withMembers (start : Place) (root : Node) (draft : PolicyDraft) (given : List String) :
    List (Node × Node) → Except YamlFailure PolicyDraft
  | [] => .ok draft
  | (key, value) :: entries => do
    let name ← root.text key
    if given.contains name then throw .malformed
    else
      let draft ← draft.withMember start root name value
      let given := if settingNames.contains name then name :: given else given
      draft.withMembers start root given entries

/-- The settings in a YAML tree. A root that is left out is a mapping without members. -/
def ofNode (root : Node) : Except YamlFailure PolicyDraft :=
  match root with
  | .mapping head entries => PolicyDraft.withMembers head.place root {} [] entries
  | .scalar _ .plain "" => .ok {}
  | _ => .error .malformed

end PolicyDraft

/-- The policy in a YAML text. -/
def Policy.ofYaml (s : String) : Except Error Policy :=
  let document := Document.ofText s
  match PolicyDraft.ofNode document.root with
  | .error failure => .error (.yaml failure)
  | .ok draft => if document.isWhole then draft.build else .error (.yaml .malformed)

/-- The policy in the bytes of a file. -/
def Policy.ofFile (bytes : ByteArray) : Except Error Policy :=
  match Utf8.decode? bytes.toList with
  | some s => Policy.ofYaml s
  | none => .error (.file .notText)

end GeoPolicy
