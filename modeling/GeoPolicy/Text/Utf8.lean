/-!
# UTF-8

Bytes are decoded one at a time. A byte that cannot go on with the character before it ends that
character as broken and starts a new one; so a broken stretch is as long as it could be the start
of a character.

## Main definitions

* `Utf8.Pending` — a character whose last bytes are still missing.
* `Utf8.characters` — the characters of bytes, with a gap for each broken stretch.
* `Utf8.decode?` — the text of bytes without broken stretches.
* `Utf8.decodeLossy` — the text of any bytes.
-/

namespace GeoPolicy

namespace Utf8

/-- A character whose last bytes are missing: the bits so far, how many bytes are to come after
the next one, and the bounds for the next one. -/
structure Pending where
  bits : Nat
  more : Nat
  low : Nat := 0x80
  high : Nat := 0xBF

/-- What the first byte of a character gives: characters or gaps, and what is then pending. -/
def first (b : Nat) : List (Option Char) × Option Pending :=
  if b < 0x80 then ([some (Char.ofNat b)], none)
  else if 0xC2 ≤ b ∧ b ≤ 0xDF then ([], some { bits := b % 32, more := 0 })
  else if b = 0xE0 then ([], some { bits := 0, more := 1, low := 0xA0 })
  else if b = 0xED then ([], some { bits := 0xD, more := 1, high := 0x9F })
  else if 0xE1 ≤ b ∧ b ≤ 0xEF then ([], some { bits := b % 16, more := 1 })
  else if b = 0xF0 then ([], some { bits := 0, more := 2, low := 0x90 })
  else if 0xF1 ≤ b ∧ b ≤ 0xF3 then ([], some { bits := b % 8, more := 2 })
  else if b = 0xF4 then ([], some { bits := 4, more := 2, high := 0x8F })
  else ([none], none)

/-- What a byte gives after what is pending. -/
def step (pending : Option Pending) (b : Nat) : List (Option Char) × Option Pending :=
  match pending with
  | none => first b
  | some p =>
    if p.low ≤ b ∧ b ≤ p.high then
      let bits := p.bits * 64 + b % 64
      if p.more = 0 then ([some (Char.ofNat bits)], none)
      else ([], some { bits, more := p.more - 1 })
    else
      let (out, pending) := first b
      (none :: out, pending)

/-- The characters of bytes after what is pending. -/
def charactersFrom (pending : Option Pending) : List UInt8 → List (Option Char)
  | [] => if pending.isSome then [none] else []
  | b :: rest =>
    let (out, pending) := step pending b.toNat
    out ++ charactersFrom pending rest

/-- The characters of bytes, with a gap for each broken stretch. -/
def characters (bytes : List UInt8) : List (Option Char) :=
  charactersFrom none bytes

/-- The text of bytes, if no stretch is broken. -/
def decode? (bytes : List UInt8) : Option String :=
  ((characters bytes).mapM id).map String.ofList

/-- The text of any bytes, with the replacement character for each broken stretch. -/
def decodeLossy (bytes : List UInt8) : String :=
  String.ofList ((characters bytes).map (·.getD '\ufffd'))

/-- The bytes of a text. -/
def encode (s : String) : List UInt8 :=
  s.toUTF8.toList

end Utf8

end GeoPolicy
