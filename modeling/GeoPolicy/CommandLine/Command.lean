import GeoPolicy.CommandLine.Arguments

/-!
# Commands

## Main definitions

* `CommandLine.PolicySettings` — a policy file and the settings that override it.
* `CommandLine.Command` — a task of the program.
* `CommandLine.Command.ofArguments` — the command that arguments ask for.
-/

namespace GeoPolicy

namespace CommandLine

/-- A policy file and the settings that override it. -/
structure PolicySettings where
  file : Option String
  regions : List String
  backend : Option Backend
  action : Option Action
  /-- Whether rules are asked for in place of sets. -/
  noIpset : Bool
  ipv6 : Bool
  deriving DecidableEq, Repr

/-- A task of the program. -/
inductive Command where
  /-- Writes the script of a policy, and perhaps its ruleset. -/
  | compile (settings : PolicySettings) (output ruleset timestamp : Option String)
  /-- Tells the region of a policy that an address belongs to. -/
  | matchAddress (address : String) (settings : PolicySettings)
  /-- Compares the compiler with a remote generator. -/
  | verify (server : String) (settings : PolicySettings)
  /-- Tells the location of an address. -/
  | lookup (address : Address) (database registry : Option String)
  /-- Runs the self checks. -/
  | diagnose (server database : Option String)
  /-- Lists the backends. -/
  | backends
  deriving DecidableEq, Repr

namespace PolicySettings

/-- The options of the settings. -/
def options : List OptionName :=
  [.config, .region, .backend, .action, .noIpset, .ipv6]

/-- The settings among given options. -/
def ofGiven (g : Given) : PolicySettings where
  file := g.value? .config
  regions := g.values .region
  backend := (g.value? .backend).bind Backend.parse?
  action := (g.value? .action).bind Action.parse?
  noIpset := g.has .noIpset
  ipv6 := g.has .ipv6

end PolicySettings

namespace Command

/-- The arguments of `compile`. -/
def compileGrammar : Grammar where
  options := PolicySettings.options ++ [.output, .ruleset, .timestamp]
  operandCount := 0

/-- The arguments of `match`. -/
def matchGrammar : Grammar where
  options := PolicySettings.options
  operandCount := 1

/-- The arguments of `verify`. -/
def verifyGrammar : Grammar where
  options := PolicySettings.options ++ [.remote]
  operandCount := 0

/-- The arguments of `lookup`. -/
def lookupGrammar : Grammar where
  options := [.mmdb, .registry]
  operandCount := 1
  acceptsOperand arg := (Address.parse? arg).isSome

/-- The arguments of `diagnose`. -/
def diagnoseGrammar : Grammar where
  options := [.remote, .mmdb]
  operandCount := 0

/-- The arguments of `backends`. -/
def backendsGrammar : Grammar where
  options := []
  operandCount := 0

/-- The names of the commands and of the request for an explanation. -/
def names : List String :=
  ["compile", "match", "verify", "lookup", "diagnose", "backends", "help"]

/-- What the arguments after a request for an explanation give: it is about the whole program or
about one name. -/
def explanation : List String → Refusal
  | [] => .help
  | [name] => if names.contains name then .help else .usage
  | _ => .usage

/-- The command with a name and arguments of its own. -/
def named (name : String) (args : List String) : Except Refusal Command := do
  match name with
  | "compile" =>
    let g ← Given.ofArguments compileGrammar args
    return compile (.ofGiven g) (g.value? .output) (g.value? .ruleset) (g.value? .timestamp)
  | "match" =>
    let g ← Given.ofArguments matchGrammar args
    match g.operands with
    | [address] => return matchAddress address (.ofGiven g)
    | _ => throw .usage
  | "verify" =>
    let g ← Given.ofArguments verifyGrammar args
    match g.value? .remote with
    | some server => return verify server (.ofGiven g)
    | none => throw .usage
  | "lookup" =>
    let g ← Given.ofArguments lookupGrammar args
    match g.operands.map Address.parse? with
    | [some address] => return lookup address (g.value? .mmdb) (g.value? .registry)
    | _ => throw .usage
  | "diagnose" =>
    let g ← Given.ofArguments diagnoseGrammar args
    return diagnose (g.value? .remote) (g.value? .mmdb)
  | "backends" =>
    let _ ← Given.ofArguments backendsGrammar args
    return backends
  | "help" => throw (explanation args)
  | _ => throw .usage

/-- The command that arguments ask for. The version and the explanation are asked for by options
without a command. -/
def ofArguments : List String → Except Refusal Command
  | [] => .error .usage
  | arg :: args =>
    match Shape.of arg with
    | .operand => named arg args
    | .long "version" none => .error .version
    | .long "help" none => .error .help
    | .short 'V' _ => .error .version
    | .short 'h' _ => .error .help
    | _ => .error .usage

end Command

end CommandLine

end GeoPolicy
