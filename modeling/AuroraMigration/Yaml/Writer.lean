import AuroraMigration.Yaml.Node

/-!
# Writing scalars of YAML

A text is written plain where it cannot be taken for anything else, in double
quotes where it would read as null, as a truth value or as a number, or where
its characters have a meaning, and as a block where it has several lines or is
longer than a line.
-/

namespace AuroraMigration.Yaml

def skipSign (s : Text) : Text :=
  match s with
  | '+' :: rest => rest
  | '-' :: rest => rest
  | _ => s

/-- Whether a text is a power of ten, or nothing. -/
def isExponent (s : Text) : Bool :=
  match s with
  | [] => true
  | e :: rest =>
      let digits := skipSign rest
      (e == 'e' || e == 'E') && !digits.isEmpty && digits.all Char.isDigit

/-- Whether a text is a decimal number: a sign, digits with a point, a power of ten. -/
def isDecimal (s : Text) : Bool :=
  let unsigned := skipSign s
  let whole := unsigned.takeWhile Char.isDigit
  match unsigned.drop whole.length with
  | '.' :: rest =>
      let fraction := rest.takeWhile Char.isDigit
      !(whole.isEmpty && fraction.isEmpty) && isExponent (rest.drop fraction.length)
  | rest => !whole.isEmpty && isExponent rest

def numberWords : List Text :=
  [".inf".toList, ".nan".toList, "inf".toList, "infinity".toList, "nan".toList]

def isSpecialNumber (s : Text) : Bool :=
  numberWords.contains (Text.asciiLower (skipSign s))

def splitBase (s : Text) : Nat × Text :=
  match s with
  | '0' :: letter :: digits =>
      if letter == 'x' || letter == 'X' then (16, digits)
      else if letter == 'o' || letter == 'O' then (8, digits)
      else if letter == 'b' || letter == 'B' then (2, digits)
      else (10, s)
  | _ => (10, s)

/-- Whether a text is a whole number, with underscores between its digits. -/
def isWhole (s : Text) : Bool :=
  let (base, digits) := splitBase (skipSign s)
  let values := (digits.filter (· != '_')).map hexDigit?
  !values.isEmpty && values.all (·.any (decide <| · < base))

/-- Whether a plain text would read as a number; blanks around it do not count. -/
def readsAsNumber (s : Text) : Bool :=
  let trimmed := Text.trim s
  isDecimal trimmed || isSpecialNumber trimmed || isWhole trimmed

def isIndicator (c : Char) : Bool :=
  isFlowIndicator c ||
    ['-', '?', ':', '#', '&', '*', '!', '|', '>', '\'', '"', '%', '@', '\x60'].contains c

def isControl (c : Char) : Bool :=
  c.toNat < 0x20 || (0x7f ≤ c.toNat && c.toNat ≤ 0x9f)

def isReserved (c : Char) : Bool :=
  c == ':' || c == '#' || c == ',' || isControl c

def needsQuotes (s : Text) : Bool :=
  isNullText s || (boolOfText? s).isSome || readsAsNumber s ||
    s.head?.any (fun c => c == ' ' || isIndicator c) || s.any isReserved

def hexText (width n : Nat) : Text :=
  let digits := Text.asciiUpper (Nat.toDigits 16 n)
  List.replicate (width - digits.length) '0' ++ digits

/-- The characters with an escape letter when they are written, and that letter. -/
def writtenEscapes : List (Char × Char) :=
  [('\\', '\\'), ('"', '"'), ('\x00', '0'), ('\x07', 'a'), ('\x08', 'b'), ('\t', 't'),
    ('\n', 'n'), ('\x0b', 'v'), ('\x0c', 'f'), ('\r', 'r'), ('\x1b', 'e'), ('\u0085', 'N'),
    ('\u2028', 'L'), ('\u2029', 'P')]

def writeChar (c : Char) : Text :=
  match writtenEscapes.lookup c with
  | some letter => ['\\', letter]
  | none =>
      if isControl c then '\\' :: 'x' :: hexText 2 c.toNat
      else if c.toNat = 0xfeff then '\\' :: 'u' :: hexText 4 c.toNat
      else [c]

def writeQuoted (s : Text) : Text :=
  '"' :: s.flatMap writeChar ++ ['"']

/-- The texts that are written in single quotes. -/
def lonelySigns : List Text :=
  [['.'], ['#'], ['-']]

def writeInline (s : Text) : Text :=
  if lonelySigns.contains s then '\'' :: s ++ ['\'']
  else if needsQuotes s then writeQuoted s
  else s

def blockLine (line : Text) : Text :=
  "\n  ".toList ++ line

/-- A text of several lines as a block, with a sign for the number of line breaks at its end. -/
def writeLiteral (s : Text) : Text :=
  let content := dropTrailing (· == '\n') s
  let breaks := s.length - content.length
  let sign : Text := if breaks = 0 then ['-'] else if breaks = 1 then [] else ['+']
  '|' :: sign ++ (content.splitOn '\n').flatMap blockLine ++
    (List.replicate (breaks - 1) (blockLine [])).flatten

/-- The number of characters that a line of a folded text has at most if it can be broken. -/
def foldWidth : Nat := 80

/-- Fill lines with words, of which `line` is the line so far. -/
def fillLines (line : Text) : List Text → List Text
  | [] => [line]
  | word :: rest =>
      if line.length + 1 + word.length ≤ foldWidth then fillLines (line ++ ' ' :: word) rest
      else line :: fillLines word rest

def foldLines (s : Text) : List Text :=
  match s.splitOn ' ' with
  | [] => []
  | word :: rest => fillLines word rest

def writeFolded (s : Text) : Text :=
  ">-".toList ++ (foldLines s).flatMap blockLine

def writeText (s : Text) : Text :=
  if s.contains '\n' then
    if needsQuotes (s.map fun c => if c = '\n' then ' ' else c) then writeQuoted s
    else writeLiteral s
  else if !needsQuotes s && decide (foldWidth < s.length) then writeFolded s
  else writeInline s

def writeBool (b : Bool) : Text :=
  if b then "true".toList else "false".toList

end AuroraMigration.Yaml
