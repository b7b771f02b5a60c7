/-!
# Text as a list of characters

Every text of the library is a list of characters, so that each operation is a
recursion on the list and each cut is a `take` or a `drop`. Sizes in bytes are a
measure on such lists: the number of bytes of the UTF-8 encoding.

A property of characters that a standard tabulates is written as the list of the
ranges of code points that have it, and looked up by comparing with the ends of
each range. A character is blank when it has the property `White_Space`; trimming
a text removes blank characters from its ends.
-/

namespace AuroraMigration

abbrev Text := List Char

/-- Ranges of code points, both ends included. -/
abbrev Ranges := List (Nat × Nat)

def Ranges.mem (table : Ranges) (c : Char) : Bool :=
  table.any fun (first, last) => first ≤ c.toNat && c.toNat ≤ last

/-- The characters with the property `White_Space`. -/
def blankRanges : Ranges :=
  [(0x9, 0xD), (0x20, 0x20), (0x85, 0x85), (0xA0, 0xA0), (0x1680, 0x1680), (0x2000, 0x200A),
    (0x2028, 0x2029), (0x202F, 0x202F), (0x205F, 0x205F), (0x3000, 0x3000)]

def isBlank (c : Char) : Bool :=
  blankRanges.mem c

/-- Remove the longest suffix whose members all satisfy `p`. -/
def dropTrailing {α : Type} (p : α → Bool) (l : List α) : List α :=
  (l.reverse.dropWhile p).reverse

namespace Text

/-- Number of bytes of the UTF-8 encoding. -/
def byteSize : Text → Nat
  | [] => 0
  | c :: rest => c.utf8Size + byteSize rest

/--
The lines of a text.

A line ends at a line feed, and one carriage return right before that line feed
belongs to the line's end. Text after the last line feed is a line of its own
unless it is empty; a carriage return at the very end stays in that line.
-/
def lines : Text → List Text
  | [] => []
  | '\n' :: rest => [] :: lines rest
  | '\r' :: '\n' :: rest => [] :: lines rest
  | c :: rest =>
      match lines rest with
      | [] => [[c]]
      | line :: others => (c :: line) :: others

def join (separator : Text) : List Text → Text
  | [] => []
  | [part] => part
  | part :: others => part ++ separator ++ join separator others

def hasPart (part : Text) : Text → Bool
  | [] => part.isEmpty
  | c :: rest => part.isPrefixOf (c :: rest) || hasPart part rest

/-- Replace every occurrence of the two characters `a`, `a` by a single `a`, from left to right. -/
def collapsePairs (a : Char) : Text → Text
  | [] => []
  | [c] => [c]
  | c :: d :: rest =>
      if c = a ∧ d = a then a :: collapsePairs a rest else c :: collapsePairs a (d :: rest)

def trimStart (s : Text) : Text :=
  s.dropWhile isBlank

def trimEnd (s : Text) : Text :=
  dropTrailing isBlank s

def trim (s : Text) : Text :=
  trimEnd (trimStart s)

def ofNat (n : Nat) : Text :=
  Nat.toDigits 10 n

/-- The letters `a` to `z` in capitals, all other characters unchanged. -/
def asciiUpper (s : Text) : Text :=
  s.map Char.toUpper

/-- The letters `A` to `Z` in small letters, all other characters unchanged. -/
def asciiLower (s : Text) : Text :=
  s.map Char.toLower

end Text

end AuroraMigration
