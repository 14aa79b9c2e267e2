/-!
# SHA-256

The digest that identifies a script. A message is padded to blocks of 64 bytes; each block is
expanded into 64 words, and each word takes the state one round further.

## Main definitions

* `Digest.pad` — a message filled up to whole blocks, with its length at the end.
* `Digest.schedule` — the 64 words of a block.
* `Digest.sha256` — the 32 bytes of a digest.
* `Digest.hex` — the digest of a text in hexadecimal.
-/

namespace GeoPolicy

namespace Digest

/-! ## Words -/

/-- A word turned right by `n` bits. -/
def rotate (x : UInt32) (n : UInt32) : UInt32 :=
  (x >>> n) ||| (x <<< (32 - n))

/-- The word of four bytes, the most significant first. -/
def wordOfBytes (bytes : List UInt8) : UInt32 :=
  bytes.foldl (fun w b => (w <<< 8) ||| b.toUInt32) 0

/-- The last `count` bytes of a number, the most significant first. -/
def bytesOfNat : Nat → Nat → List UInt8
  | 0, _ => []
  | count + 1, n => bytesOfNat count (n / 256) ++ [UInt8.ofNat n]

/-- A list in pieces of `size + 1` members; the last piece may be shorter. -/
def pieces {α : Type} (size : Nat) (l : List α) : List (List α) :=
  if l = [] then [] else l.take (size + 1) :: pieces size (l.drop (size + 1))
termination_by l.length
decreasing_by
  have : 0 < l.length := List.length_pos_iff.2 (by assumption)
  simp only [List.length_drop]
  omega

/-! ## Messages -/

/-- A message followed by a one bit, zeros up to a whole number of blocks, and the number of its
bits in eight bytes. -/
def pad (message : List UInt8) : List UInt8 :=
  message ++ [0x80] ++ List.replicate ((119 - message.length % 64) % 64) 0 ++
    bytesOfNat 8 (8 * message.length)

/-- A number of words, of which the first sixteen are given and each later one is computed from
those one, nine, fourteen and sixteen places after the first of its sixteen predecessors. -/
def expand : Nat → List UInt32 → List UInt32
  | 0, _ => []
  | count + 1, window =>
    let word := window.getD 0 0
    let early := window.getD 1 0
    let late := window.getD 14 0
    let next := word + (rotate early 7 ^^^ rotate early 18 ^^^ (early >>> 3)) +
      window.getD 9 0 + (rotate late 17 ^^^ rotate late 19 ^^^ (late >>> 10))
    word :: expand count (window.drop 1 ++ [next])

/-- The 64 words of a block of 64 bytes. -/
def schedule (block : List UInt8) : List UInt32 :=
  expand 64 ((pieces 3 block).map wordOfBytes)

/-! ## Rounds -/

/-- The eight words that a digest is computed in. -/
structure State where
  a : UInt32
  b : UInt32
  c : UInt32
  d : UInt32
  e : UInt32
  f : UInt32
  g : UInt32
  h : UInt32
  deriving DecidableEq, Repr

/-- The words of a state in order. -/
def State.words (s : State) : List UInt32 :=
  [s.a, s.b, s.c, s.d, s.e, s.f, s.g, s.h]

/-- The state before the first block: the fractions of the square roots of the first primes. -/
def initial : State :=
  ⟨0x6a09e667, 0xbb67ae85, 0x3c6ef372, 0xa54ff53a,
    0x510e527f, 0x9b05688c, 0x1f83d9ab, 0x5be0cd19⟩

/-- The constants of the rounds: the fractions of the cube roots of the first primes. -/
def roundConstants : List UInt32 := [
  0x428a2f98, 0x71374491, 0xb5c0fbcf, 0xe9b5dba5, 0x3956c25b, 0x59f111f1, 0x923f82a4, 0xab1c5ed5,
  0xd807aa98, 0x12835b01, 0x243185be, 0x550c7dc3, 0x72be5d74, 0x80deb1fe, 0x9bdc06a7, 0xc19bf174,
  0xe49b69c1, 0xefbe4786, 0x0fc19dc6, 0x240ca1cc, 0x2de92c6f, 0x4a7484aa, 0x5cb0a9dc, 0x76f988da,
  0x983e5152, 0xa831c66d, 0xb00327c8, 0xbf597fc7, 0xc6e00bf3, 0xd5a79147, 0x06ca6351, 0x14292967,
  0x27b70a85, 0x2e1b2138, 0x4d2c6dfc, 0x53380d13, 0x650a7354, 0x766a0abb, 0x81c2c92e, 0x92722c85,
  0xa2bfe8a1, 0xa81a664b, 0xc24b8b70, 0xc76c51a3, 0xd192e819, 0xd6990624, 0xf40e3585, 0x106aa070,
  0x19a4c116, 0x1e376c08, 0x2748774c, 0x34b0bcb5, 0x391c0cb3, 0x4ed8aa4a, 0x5b9cca4f, 0x682e6ff3,
  0x748f82ee, 0x78a5636f, 0x84c87814, 0x8cc70208, 0x90befffa, 0xa4506ceb, 0xbef9a3f7, 0xc67178f2
]

/-- One round, with its constant and its word of the schedule. -/
def State.round (s : State) (constant word : UInt32) : State :=
  let choice := (s.e &&& s.f) ^^^ (~~~s.e &&& s.g)
  let majority := (s.a &&& s.b) ^^^ (s.a &&& s.c) ^^^ (s.b &&& s.c)
  let first := s.h + (rotate s.e 6 ^^^ rotate s.e 11 ^^^ rotate s.e 25) + choice + constant + word
  let second := (rotate s.a 2 ^^^ rotate s.a 13 ^^^ rotate s.a 22) + majority
  ⟨first + second, s.a, s.b, s.c, s.d + first, s.e, s.f, s.g⟩

/-- The sum of two states, word by word. -/
def State.add (s t : State) : State :=
  ⟨s.a + t.a, s.b + t.b, s.c + t.c, s.d + t.d, s.e + t.e, s.f + t.f, s.g + t.g, s.h + t.h⟩

/-- The state after a block. -/
def State.absorb (s : State) (block : List UInt8) : State :=
  s.add ((roundConstants.zip (schedule block)).foldl (fun s (k, w) => s.round k w) s)

/-! ## Digests -/

/-- The digest of a message, 32 bytes. -/
def sha256 (message : List UInt8) : List UInt8 :=
  ((pieces 63 (pad message)).foldl State.absorb initial).words.flatMap
    fun w => bytesOfNat 4 w.toNat

/-- The digest of a text in its UTF-8 form, in hexadecimal. -/
def hex (s : String) : String :=
  String.ofList ((sha256 s.toUTF8.toList).flatMap fun b =>
    (Nat.toDigits 16 b.toNat).leftpad 2 '0')

end Digest

end GeoPolicy
