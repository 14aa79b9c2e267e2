import GeoPolicy.Address.Text
import GeoPolicy.Error

/-!
# Address ranges

A range holds the addresses that agree with a base address on its first bits. It is written as the
base address, a slash and the number of these bits; a bare address is a range of its own.

## Main definitions

* `Network` — a base address and the number of bits that matter.
* `Network.key` — the bits that matter.
* `Network.contains` — membership of an address.
* `Network.parse` — the range that a text denotes.
-/

namespace GeoPolicy

/-- An address range. The bits of the base address after the first `length` ones are free. -/
structure Network where
  address : Address
  length : Nat
  length_le : length ≤ address.width
  deriving DecidableEq

namespace Network

/-- The family of the addresses of a range. -/
def family (n : Network) : AddressFamily :=
  n.address.family

/-- The bits that all addresses of a range share, the most significant first. -/
def key (n : Network) : List Bool :=
  n.address.path.take n.length

/-- Whether an address lies in a range. -/
def contains (n : Network) (a : Address) : Bool :=
  n.family = a.family && n.key.isPrefixOf a.path

/-- The range of a base address and a number of bits, if the address has that many. -/
def ofLength? (a : Address) (length : Nat) : Option Network :=
  if h : length ≤ a.width then some ⟨a, length, h⟩ else none

/-- The range that holds one address. -/
def host (a : Address) : Network :=
  ⟨a, a.width, Nat.le_refl _⟩

/-! ## Text -/

/-- A number of bits as text: decimal digits, after an optional plus sign, with a value that fits
an octet. -/
def readLength? (s : List Char) : Option Nat :=
  let digits := match s with
    | '+' :: rest => rest
    | _ => s
  (Text.readDecimal? digits).filter (· ≤ 255)

/-- The range that a text denotes: an address, then a slash and a number of bits, or nothing. -/
def ofChars? (s : List Char) : Option Network :=
  match s.dropWhile (· ≠ '/') with
  | [] => (Address.ofChars? s).map host
  | _ :: length => do
    let a ← Address.ofChars? (s.takeWhile (· ≠ '/'))
    ofLength? a (← readLength? length)

/-- The range that a text denotes between blanks, or the error that quotes it without them. -/
def parse (s : String) : Except Error Network :=
  match ofChars? (Text.trimChars s.toList) with
  | some n => .ok n
  | none => .error (.invalidRange (Text.trim s))

/-- The text of a range. -/
def text (n : Network) : String :=
  n.address.text ++ "/" ++ toString n.length

end Network

/-- The address that a text denotes between blanks, or the error that quotes the whole text. -/
def Address.parse (s : String) : Except Error Address :=
  match ofChars? (Text.trimChars s.toList) with
  | some a => .ok a
  | none => .error (.invalidAddress s)

end GeoPolicy
