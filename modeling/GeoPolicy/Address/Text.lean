import GeoPolicy.Address.Basic
import GeoPolicy.Text.Numeral

/-!
# Addresses as text

`Address.parse?` reads the usual notations: four decimal octets, or eight hexadecimal groups of
which one run may be left out as `::` and the last two may be written as an IPv4 address.
`Address.text` writes the shortest of these forms.

## Main definitions

* `Address.parse?` — the address that a text denotes.
* `Address.text` — the canonical text of an address.
-/

namespace GeoPolicy

namespace Address

/-! ## Reading -/

/-- The longest run of digits of base `base` at the start of a text, as values, and the rest. -/
def takeDigits (base : Nat) : List Char → List Nat × List Char
  | [] => ([], [])
  | c :: rest =>
    match (Text.hexValue? c).filter (· < base) with
    | some d => let (digits, after) := takeDigits base rest; (d :: digits, after)
    | none => ([], c :: rest)

/-- A decimal octet at the start of a text: up to three digits, no superfluous zero, at
most 255. -/
def readOctet? (s : List Char) : Option (Nat × List Char) :=
  let (digits, rest) := takeDigits 10 s
  if digits = [] ∨ 3 < digits.length ∨ (1 < digits.length ∧ digits.head? = some 0) ∨
      255 < joinGroups 10 digits then
    none
  else
    some (joinGroups 10 digits, rest)

/-- A given number of octets, a dot before each but the first one. -/
def readOctets? : Nat → Bool → List Char → Option (List Nat × List Char)
  | 0, _, s => some ([], s)
  | count + 1, isFirst, s => do
    let s ← if isFirst then some s else match s with
      | '.' :: rest => some rest
      | _ => none
    let (octet, rest) ← readOctet? s
    let (octets, rest) ← readOctets? count false rest
    return (octet :: octets, rest)

/-- A group of one to four hexadecimal digits at the start of a text. -/
def readGroup? (s : List Char) : Option (Nat × List Char) :=
  let (digits, rest) := takeDigits 16 s
  if digits = [] ∨ 4 < digits.length then none else some (joinGroups 16 digits, rest)

/-- The groups at the start of a text, at most `limit` of them, with a colon before each but the
first one. The last two may be written as four octets; the flag tells whether they were, and
nothing is read after them. -/
def readGroups : Nat → Bool → List Char → List Nat × Bool × List Char
  | 0, _, s => ([], false, s)
  | limit + 1, isFirst, s =>
    let start := if isFirst then some s else match s with
      | ':' :: rest => some rest
      | _ => none
    match start with
    | none => ([], false, s)
    | some t =>
      match if limit = 0 then none else readOctets? 4 true t with
      | some (octets, rest) => (splitGroups 65536 2 (joinGroups 256 octets), true, rest)
      | none =>
        match readGroup? t with
        | none => ([], false, s)
        | some (group, rest) =>
          let (groups, hasOctets, after) := readGroups limit false rest
          (group :: groups, hasOctets, after)

/-- Eight groups at the start of a text. The mark `::` stands for at least one group of zeros. -/
def readEight? (s : List Char) : Option (List Nat × List Char) :=
  let (head, hasOctets, rest) := readGroups 8 true s
  if head.length = 8 then some (head, rest)
  else if hasOctets then none
  else match rest with
    | ':' :: ':' :: rest =>
      let (tail, _, rest) := readGroups (7 - head.length) true rest
      some (head ++ List.replicate (8 - head.length - tail.length) 0 ++ tail, rest)
    | _ => none

/-- The address that a whole text denotes. -/
def ofChars? (s : List Char) : Option Address :=
  match readOctets? 4 true s with
  | some (octets, rest) => if rest = [] then some (ofOctets octets) else none
  | none =>
    match readEight? s with
    | some (groups, []) => some (ofGroups groups)
    | _ => none

/-- The address that a whole text denotes. -/
def parse? (s : String) : Option Address :=
  ofChars? s.toList

/-! ## Writing -/

/-- A run of members of a list: its start and its length. -/
structure Run where
  start : Nat
  length : Nat
  deriving DecidableEq, Repr

/-- The longest run of zeros in a list whose members are numbered from `index` on, given the run
that ends just before it and the longest one so far. Of runs of one length the first one wins. -/
def longestZeros (index : Nat) (current longest : Run) : List Nat → Run
  | [] => longest
  | g :: rest =>
    if g = 0 then
      let current : Run :=
        { start := if current.length = 0 then index else current.start
          length := current.length + 1 }
      longestZeros (index + 1) current
        (if longest.length < current.length then current else longest) rest
    else
      longestZeros (index + 1) ⟨0, 0⟩ longest rest

/-- The decimal octets of a 32-bit number, with dots between them. -/
def octetsText (n : Nat) : String :=
  String.intercalate "." ((splitGroups 256 4 n).map toString)

/-- Hexadecimal groups with colons between them. -/
def groupsText (groups : List Nat) : String :=
  String.intercalate ":" (groups.map fun g => String.ofList (Nat.toDigits 16 g))

/-- The canonical text of an address. An IPv6 address that wraps an IPv4 one shows its octets;
otherwise the longest run of at least two zero groups is left out. -/
def text : Address → String
  | v4 bits => octetsText bits.toNat
  | v6 bits =>
    let groups := splitGroups 65536 8 bits.toNat
    if groups.take 6 = [0, 0, 0, 0, 0, 0xffff] then
      "::ffff:" ++ octetsText (bits.setWidth 32).toNat
    else
      let zeros := longestZeros 0 ⟨0, 0⟩ ⟨0, 0⟩ groups
      if 1 < zeros.length then
        groupsText (groups.take zeros.start) ++ "::" ++
          groupsText (groups.drop (zeros.start + zeros.length))
      else
        groupsText groups

end Address

end GeoPolicy
