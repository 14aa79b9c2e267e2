import GeoPolicy.Text.Blank
import GeoPolicy.Text.Case

/-!
# Packet-filter backends

The systems a script can be asked for. Scripts exist for two of them; the others are known by name.

## Main definitions

* `Backend` — the known packet filters.
* `Backend.parse?` — the backend that a person wrote.
* `Backend.isImplemented` — whether scripts are generated for it.
-/

namespace GeoPolicy

/-- A packet-filtering system. -/
inductive Backend where
  /-- The legacy netfilter tables, with or without `ipset`. -/
  | iptables
  /-- The netfilter successor with native interval sets. -/
  | nftables
  /-- Programs at the network driver. -/
  | ebpf
  /-- Filtering at a bridge. -/
  | ebtables
  /-- The firewall of FreeBSD. -/
  | ipfw
  deriving DecidableEq, Repr

namespace Backend

/-- All backends, in the order they are listed to a user. -/
def all : List Backend :=
  [iptables, nftables, ebpf, ebtables, ipfw]

/-- The name of a backend. -/
def name : Backend → String
  | iptables => "iptables"
  | nftables => "nftables"
  | ebpf => "ebpf"
  | ebtables => "ebtables"
  | ipfw => "ipfw"

/-- Whether scripts are generated for a backend. -/
def isImplemented : Backend → Bool
  | iptables | nftables => true
  | ebpf | ebtables | ipfw => false

/-- The command that a generated script needs to find. -/
def command : Backend → String
  | nftables => "nft"
  | _ => "iptables"

/-- The backend with a given name in lower case; `nft` is short for `nftables`. -/
def ofLower? : String → Option Backend
  | "iptables" => some iptables
  | "nftables" | "nft" => some nftables
  | "ebpf" => some ebpf
  | "ebtables" => some ebtables
  | "ipfw" => some ipfw
  | _ => none

/-- The backend a person wrote: a name in any case, between blanks. Folding the case of ASCII
letters decides, as no other letter is a capital of a letter in these names. -/
def parse? (s : String) : Option Backend :=
  ofLower? (Text.asciiLower (Text.trim s))

end Backend

end GeoPolicy
