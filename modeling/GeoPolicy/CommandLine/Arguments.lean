import GeoPolicy.Address
import GeoPolicy.Policy

/-!
# Arguments

The options and operands that are given to a command. An option has a long name, which follows two
hyphens, and perhaps a letter, which follows one. Its value is attached to it or is the next
argument.

## Main definitions

* `CommandLine.OptionName` — the options.
* `CommandLine.Given` — the options and operands given.
* `CommandLine.Given.ofArguments` — what a list of arguments gives to a command.
-/

namespace GeoPolicy

namespace CommandLine

/-- Why arguments make no command to run. -/
inductive Refusal where
  /-- The arguments do not fit the command. -/
  | usage
  /-- An explanation is asked for. -/
  | help
  /-- The version is asked for. -/
  | version
  deriving DecidableEq, Repr

/-! ## Options -/

/-- An option. -/
inductive OptionName where
  | config
  | region
  | backend
  | action
  | noIpset
  | ipv6
  | output
  | ruleset
  | timestamp
  | remote
  | mmdb
  | registry
  | help
  deriving DecidableEq, Repr

namespace OptionName

/-- The long name of an option. -/
def long : OptionName → String
  | config => "config"
  | region => "region"
  | backend => "backend"
  | action => "action"
  | noIpset => "no-ipset"
  | ipv6 => "ipv6"
  | output => "output"
  | ruleset => "ruleset"
  | timestamp => "timestamp"
  | remote => "remote"
  | mmdb => "mmdb"
  | registry => "registry"
  | help => "help"

/-- The letter of an option. -/
def letter? : OptionName → Option Char
  | config => some 'c'
  | region => some 'r'
  | backend => some 'b'
  | action => some 'a'
  | output => some 'o'
  | help => some 'h'
  | _ => none

/-- Whether an option takes a value. The others are switches. -/
def takesValue : OptionName → Bool
  | noIpset | ipv6 | help => false
  | _ => true

/-- Whether an option may be given more than once. -/
def isRepeatable (o : OptionName) : Bool :=
  o = region

/-- Whether an option accepts a text as its value. File names are not empty. -/
def accepts (o : OptionName) (value : String) : Bool :=
  match o with
  | config | output | ruleset | mmdb => value != ""
  | backend => (Backend.parse? value).isSome
  | action => (Action.parse? value).isSome
  | _ => true

end OptionName

/-! ## Shapes of arguments -/

/-- What an argument looks like before it is known which options a command has. -/
inductive Shape where
  /-- Two hyphens alone: what follows are operands. -/
  | separator
  /-- A long name, perhaps with a value after an equals sign. -/
  | long (name : String) (value : Option String)
  /-- A letter after one hyphen, and what is attached to it. -/
  | short (letter : Char) (attached : List Char)
  /-- Any other text, a single hyphen included. -/
  | operand
  deriving DecidableEq, Repr

/-- The shape of an argument. -/
def Shape.of (arg : String) : Shape :=
  match arg.toList with
  | ['-', '-'] => separator
  | '-' :: '-' :: rest =>
    let name := String.ofList (rest.takeWhile (· ≠ '='))
    match rest.dropWhile (· ≠ '=') with
    | [] => long name none
    | _ :: value => long name (some (String.ofList value))
  | '-' :: letter :: attached => short letter attached
  | _ => operand

/-- The value that is attached to a letter. An equals sign before it does not count. -/
def attachedValue? : List Char → Option String
  | [] => none
  | '=' :: value => some (String.ofList value)
  | value => some (String.ofList value)

/-! ## Given arguments -/

/-- What a command can be given. -/
structure Grammar where
  options : List OptionName
  /-- The number of operands. All of them are required. -/
  operandCount : Nat
  /-- The texts that are accepted as operands. -/
  acceptsOperand : String → Bool := fun _ => true

/-- The options and operands given so far, in order. -/
structure Given where
  options : List (OptionName × String) := []
  operands : List String := []
  deriving DecidableEq, Repr

namespace Given

/-- Whether an option is given. -/
def has (g : Given) (o : OptionName) : Bool :=
  g.options.any (·.1 = o)

/-- All values of an option. -/
def values (g : Given) (o : OptionName) : List String :=
  (g.options.filter (·.1 = o)).map (·.2)

/-- The value of an option that is given once at most. -/
def value? (g : Given) (o : OptionName) : Option String :=
  (g.values o).head?

/-- One more option with its value. -/
def addOption (g : Given) (o : OptionName) (value : String) : Except Refusal Given :=
  if o = .help then .error .help
  else if (g.has o && !o.isRepeatable) || !o.accepts value then .error .usage
  else .ok { g with options := g.options ++ [(o, value)] }

/-- One more operand. -/
def addOperand (grammar : Grammar) (g : Given) (arg : String) : Except Refusal Given :=
  if g.operands.length < grammar.operandCount ∧ grammar.acceptsOperand arg then
    .ok { g with operands := g.operands ++ [arg] }
  else
    .error .usage

/-- The option of a grammar that an argument names, and the value that is attached to it. A long
switch has none. -/
def optionOf? (grammar : Grammar) : Shape → Option (OptionName × Option String)
  | .long name value => do
    let o ← (grammar.options ++ [OptionName.help]).find? (·.long = name)
    if value.isSome && !o.takesValue then none else return (o, value)
  | .short letter attached => do
    let o ← (grammar.options ++ [OptionName.help]).find? (·.letter? = some letter)
    return (o, attachedValue? attached)
  | _ => none

/-- The options and operands of arguments after those given so far. The flag tells whether only
operands follow. -/
def read (grammar : Grammar) (isSeparated : Bool) (g : Given) :
    List String → Except Refusal Given
  | [] => if g.operands.length = grammar.operandCount then .ok g else .error .usage
  | arg :: rest =>
    match if isSeparated then .operand else Shape.of arg with
    | .separator => read grammar true g rest
    | .operand => do read grammar isSeparated (← g.addOperand grammar arg) rest
    | shape =>
      match optionOf? grammar shape with
      | none => .error .usage
      | some (o, some value) => do read grammar false (← g.addOption o value) rest
      | some (o, none) =>
        if o.takesValue then
          match rest with
          | [] => .error .usage
          | value :: rest =>
            if Shape.of value = .operand then do
              read grammar false (← g.addOption o value) rest
            else .error .usage
        else do read grammar false (← g.addOption o "") rest

/-- What a list of arguments gives to a command. -/
def ofArguments (grammar : Grammar) (args : List String) : Except Refusal Given :=
  read grammar false {} args

end Given

end CommandLine

end GeoPolicy
