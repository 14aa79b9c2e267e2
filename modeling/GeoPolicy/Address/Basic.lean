/-!
# Internet addresses

An address is a word of 32 or 128 bits. It is written in groups, of 8 bits for the short form and
of 16 bits for the long form, the most significant group first.

## Main definitions

* `Address` — an IPv4 or IPv6 address.
* `Address.path` — the bits of an address, the most significant first.
* `joinGroups`, `splitGroups` — numbers as lists of groups.
-/

namespace GeoPolicy

/-! ## Groups -/

/-- The number with the given groups in base `base`, the most significant first. -/
def joinGroups (base : Nat) (groups : List Nat) : Nat :=
  groups.foldl (fun n g => n * base + g) 0

/-- The last `count` groups of a number in base `base`, the most significant first. -/
def splitGroups (base : Nat) : Nat → Nat → List Nat
  | 0, _ => []
  | count + 1, n => splitGroups base count (n / base) ++ [n % base]

/-! ## Addresses -/

/-- The two families of addresses. -/
inductive AddressFamily where
  | v4
  | v6
  deriving DecidableEq, Repr

/-- The name of a family. -/
def AddressFamily.name : AddressFamily → String
  | v4 => "IPv4"
  | v6 => "IPv6"

/-- The number of bits of an address of the family. -/
def AddressFamily.width : AddressFamily → Nat
  | v4 => 32
  | v6 => 128

/-- An internet address. -/
inductive Address where
  | v4 (bits : BitVec 32)
  | v6 (bits : BitVec 128)
  deriving DecidableEq, Repr

namespace Address

/-- The family of an address. -/
def family : Address → AddressFamily
  | v4 _ => .v4
  | v6 _ => .v6

/-- The number of bits of an address. -/
def width (a : Address) : Nat :=
  a.family.width

/-- The bits of an address, the most significant first. -/
def path : Address → List Bool
  | v4 bits => (List.range 32).map bits.getMsbD
  | v6 bits => (List.range 128).map bits.getMsbD

/-- The IPv4 address with the given four octets. -/
def ofOctets (octets : List Nat) : Address :=
  v4 (BitVec.ofNat 32 (joinGroups 256 octets))

/-- The IPv6 address with the given eight groups of 16 bits. -/
def ofGroups (groups : List Nat) : Address :=
  v6 (BitVec.ofNat 128 (joinGroups 65536 groups))

@[simp] theorem length_path (a : Address) : a.path.length = a.width := by
  cases a <;> simp [path, width, family, AddressFamily.width]

end Address

end GeoPolicy
