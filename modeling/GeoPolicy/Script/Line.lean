import GeoPolicy.Address.Basic

/-!
# Lines of a script

The statements that generated scripts are made of, and how each is written. A script is the text
of its lines, with a line feed after each.

## Main definitions

* `Script.Line` — a line of a generated script.
* `Script.Line.text` — the line as written.
* `Script.textOf` — the text of lines.
-/

namespace GeoPolicy

namespace Script

/-! ## Names of installed objects -/

/-- The chain that holds the rules. -/
def chain : String := "GEOGUARD"

/-- The `ipset` set of a family. -/
def setName : AddressFamily → String
  | .v4 => "geoguard_v4"
  | .v6 => "geoguard_v6"

/-- The tool that filters a family. -/
def tool : AddressFamily → String
  | .v4 => "iptables"
  | .v6 => "ip6tables"

/-- The `nft` table of both families. -/
def table : String := "inet geoguard"

/-- The `nft` set of a family. -/
def nftSet : AddressFamily → String
  | .v4 => "blocklist_v4"
  | .v6 => "blocklist_v6"

/-- The name that `ipset` has for a family. -/
def setFamily : AddressFamily → String
  | .v4 => "inet"
  | .v6 => "inet6"

/-- The name that `nft` has for the addresses of a family. -/
def nftAddressType : AddressFamily → String
  | .v4 => "ipv4_addr"
  | .v6 => "ipv6_addr"

/-- The name that `nft` has for the protocol of a family. -/
def nftProtocol : AddressFamily → String
  | .v4 => "ip"
  | .v6 => "ip6"

/-! ## Lines -/

/-- How the section of a region is announced. -/
inductive SectionStyle where
  /-- The ranges go into sets. -/
  | sets
  /-- Each range has a rule of its own. -/
  | rules
  /-- The ranges go into one statement. -/
  | bulk
  deriving DecidableEq, Repr

/-- The words before the region in a section's announcement. -/
def SectionStyle.announcement : SectionStyle → String
  | sets => "Region: "
  | rules => "Rules for "
  | bulk => "Bulk prefixes for "

/-- A line of a generated script. -/
inductive Line where
  /-- The name of the interpreter. -/
  | interpreter
  | blank
  | comment (text : String)
  /-- The announcement of a region's section. -/
  | heading (style : SectionStyle) (region : String)
  /-- Stops the script unless a command exists. -/
  | requireCommand (command : String)
  /-- Warns where the IPv6 tool is missing. -/
  | warnWithoutIPv6
  /-- Stops the script unless `ipset` exists. -/
  | requireIpset
  /-- Creates the set of a family. -/
  | createSet (family : AddressFamily)
  /-- Empties the set of a family. -/
  | flushSet (family : AddressFamily)
  /-- Adds a range to the set of a family. -/
  | addToSet (family : AddressFamily) (cidr : String)
  /-- Creates the chain of a family. -/
  | createChain (family : AddressFamily)
  /-- Empties the chain of a family. -/
  | flushChain (family : AddressFamily)
  /-- Appends the rule for all addresses in the set of a family. -/
  | matchSet (family : AddressFamily) (verb : String)
  /-- Appends the rule for one range. -/
  | matchRange (family : AddressFamily) (cidr verb : String)
  /-- Calls the chain from the input chain, unless that happens already. -/
  | linkChain (family : AddressFamily)
  /-- Creates the `nft` table. -/
  | addTable
  /-- Empties the `nft` table. -/
  | flushTable
  /-- Creates the `nft` set of a family. -/
  | addNftSet (family : AddressFamily)
  /-- Adds ranges to the `nft` set of a family. -/
  | addElements (family : AddressFamily) (cidrs : List String)
  /-- Creates the `nft` input chain. -/
  | addInputChain
  /-- Adds the `nft` rule for all addresses in the set of a family. -/
  | addNftRule (family : AddressFamily) (verb : String)
  /-- Reports success. -/
  | report (regions : Nat) (engine : String)
  deriving DecidableEq, Repr

/-- A statement that prints a message where a command is missing, and stops if that is fatal. -/
def whenMissing (command message : String) (isFatal : Bool) : String :=
  "if ! command -v " ++ command ++ " &> /dev/null; then echo \"" ++ message ++ "\"; " ++
    (if isFatal then "exit 1; " else "") ++ "fi"

/-- A line as written, without its line end. -/
def Line.text : Line → String
  | interpreter => "#!/bin/bash"
  | blank => ""
  | comment text => "# " ++ text
  | heading style region => "# " ++ style.announcement ++ region
  | requireCommand command => whenMissing command s!"Error: {command} not found." true
  | warnWithoutIPv6 =>
    whenMissing "ip6tables" "Warning: ip6tables not found. IPv6 rules will be skipped." false
  | requireIpset =>
    whenMissing "ipset" "Error: ipset utility not found. Required for optimized sets." true
  | createSet family =>
    "ipset create " ++ setName family ++ " hash:net family " ++ setFamily family ++ " -!"
  | flushSet family => "ipset flush " ++ setName family
  | addToSet family cidr => "ipset add " ++ setName family ++ " " ++ cidr
  | createChain family => tool family ++ " -N " ++ chain ++ " 2>/dev/null || true"
  | flushChain family => tool family ++ " -F " ++ chain
  | matchSet family verb =>
    tool family ++ " -A " ++ chain ++ " -m set --match-set " ++ setName family ++ " src -j " ++ verb
  | matchRange family cidr verb =>
    tool family ++ " -A " ++ chain ++ " -s " ++ cidr ++ " -j " ++ verb
  | linkChain family =>
    tool family ++ " -C INPUT -j " ++ chain ++ " 2>/dev/null || " ++
      tool family ++ " -I INPUT 1 -j " ++ chain
  | addTable => "nft add table " ++ table ++ " 2>/dev/null || true"
  | flushTable => "nft flush table " ++ table
  | addNftSet family =>
    "nft add set " ++ table ++ " " ++ nftSet family ++ " \x7b type " ++ nftAddressType family ++
      "; flags interval; \x7d"
  | addElements family cidrs =>
    "nft add element " ++ table ++ " " ++ nftSet family ++ " \x7b " ++
      String.intercalate ", " cidrs ++ " \x7d"
  | addInputChain =>
    "nft add chain " ++ table ++
      " input \x7b type filter hook input priority 0; policy accept; \x7d"
  | addNftRule family verb =>
    "nft add rule " ++ table ++ " input " ++ nftProtocol family ++ " saddr @" ++ nftSet family ++
      " " ++ verb
  | report regions engine =>
    s!"echo \"[GeoGuard] Policy for {regions} regions applied successfully using {engine}.\""

/-- The text of lines, each with a line feed at its end. -/
def textOf (lines : List String) : String :=
  String.join (lines.map (· ++ "\n"))

/-- The text of a script. -/
def text (lines : List Line) : String :=
  textOf (lines.map Line.text)

end Script

end GeoPolicy
