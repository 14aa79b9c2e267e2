/-!
# Blanks, lines and words

Text is cut at blanks, the characters with the Unicode property `White_Space`, and at line ends.
All functions work on lists of characters; `trim` is the same cut on strings.

## Main definitions

* `Text.isBlank` — the characters with the property `White_Space`.
* `Text.trimChars`, `Text.trim` — a text without the blanks at its two ends.
* `Text.lines` — the lines of a text, without their line ends.
* `Text.firstWord` — the first run of characters that are not blank.
-/

namespace GeoPolicy

namespace Text

/-! ## Blanks -/

/-- The characters with the Unicode property `White_Space`. -/
def isBlank (c : Char) : Bool :=
  let n := c.toNat
  (9 ≤ n && n ≤ 13) || n == 0x20 || n == 0x85 || n == 0xA0 || n == 0x1680 ||
    (0x2000 ≤ n && n ≤ 0x200A) || n == 0x2028 || n == 0x2029 || n == 0x202F ||
    n == 0x205F || n == 0x3000

/-- A character list without the blanks at its two ends. -/
def trimChars (s : List Char) : List Char :=
  ((s.dropWhile isBlank).reverse.dropWhile isBlank).reverse

/-- A string without the blanks at its two ends. -/
def trim (s : String) : String :=
  String.ofList (trimChars s.toList)

/-! ## Lines and words -/

/-- The lines of a text. A line ends at a line feed, a carriage return just before the line feed
belongs to the line end, and nothing follows a last line feed. -/
def lines : List Char → List (List Char)
  | [] => []
  | '\n' :: rest => [] :: lines rest
  | '\r' :: '\n' :: rest => [] :: lines rest
  | c :: rest =>
    match lines rest with
    | [] => [[c]]
    | line :: more => (c :: line) :: more

/-- The first word of a text: the characters from the first one that is not blank to the next
blank. It is empty where all characters are blank. -/
def firstWord (s : List Char) : List Char :=
  (s.dropWhile isBlank).takeWhile (!isBlank ·)

/-- The pieces of a text between the characters `sep`; there is always one more piece than there
are separators. -/
def splitAt (sep : Char) : List Char → List (List Char)
  | [] => [[]]
  | c :: rest =>
    if c = sep then [] :: splitAt sep rest
    else
      match splitAt sep rest with
      | [] => [[c]]
      | piece :: more => (c :: piece) :: more

/-- Whether a text begins with the characters of another one. -/
def startsWith (start s : List Char) : Bool :=
  start.isPrefixOf s

/-- Whether the characters of a text stand somewhere in another one, next to each other. -/
def contains (part : List Char) : List Char → Bool
  | [] => part.isEmpty
  | c :: rest => part.isPrefixOf (c :: rest) || contains part rest

end Text

end GeoPolicy
