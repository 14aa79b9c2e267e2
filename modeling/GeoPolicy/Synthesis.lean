import GeoPolicy.Address.Basic
import GeoPolicy.Distinct
import GeoPolicy.Text.Numeral

/-!
# Synthesized ranges

Each region has an endless, fixed sequence of address ranges in each family. They stand in for a
registry feed: any two generators that follow this arithmetic install the same ranges.

## Main definitions

* `AddressRange` — a range as text, with its region and family.
* `Synthesis.seed` — the number that a region code stands for.
* `Synthesis.v4Cidr`, `Synthesis.v6Cidr` — the members of the two sequences.
* `synthesize` — the first ranges of a region, each once.
-/

namespace GeoPolicy

/-- A range in slash notation together with the region that owns it. -/
structure AddressRange where
  cidr : String
  region : String
  family : AddressFamily
  deriving DecidableEq, Repr

namespace Synthesis

/-! ## The two sequences -/

/-- The UTF-16 code units of a character. -/
def units16 (c : Char) : List Nat :=
  if c.toNat < 0x10000 then [c.toNat]
  else [0xD800 + (c.toNat - 0x10000) / 0x400, 0xDC00 + (c.toNat - 0x10000) % 0x400]

/-- The number that a region code stands for: 31 times its first UTF-16 code unit plus the second
one, where a missing unit counts as zero. -/
def seed (region : String) : Nat :=
  let units := region.toList.flatMap units16
  31 * units.getD 0 0 + units.getD 1 0

/-- Range number `i` of the IPv4 sequence. The first octet moves by seven, the second one is a
multiple of the seed, and lengths cycle through 16 to 24. -/
def v4Cidr (seed i : Nat) : String :=
  let octet1 := (seed + i * 7) % 223 + 1
  let octet2 := (seed * (i + 1)) % 256
  let length := 16 + i % 9
  s!"{octet1}.{octet2}.0.0/{length}"

/-- A hexadecimal group of at least four digits. -/
def group (n : Nat) : String :=
  String.ofList (Text.paddedDigits 16 4 n)

/-- Range number `i` of the IPv6 sequence. A group that outgrows 16 bits is written with more
digits, and the text is then no address range. -/
def v6Cidr (seed i : Nat) : String :=
  let second := group (seed + i * 13)
  let third := group (seed * (i + 5))
  s!"2001:{second}:{third}::/48"

/-- Range number `i` of the sequence of a family. -/
def cidr (family : AddressFamily) (seed i : Nat) : String :=
  match family with
  | .v4 => v4Cidr seed i
  | .v6 => v6Cidr seed i

end Synthesis

/-- The ranges of a region among the first `count` members of its sequence, each once. -/
def synthesize (region : String) (family : AddressFamily) (count : Nat) : List AddressRange :=
  (distinct ((List.range count).map (Synthesis.cidr family (Synthesis.seed region)))).map
    fun cidr => { cidr, region, family }

end GeoPolicy
