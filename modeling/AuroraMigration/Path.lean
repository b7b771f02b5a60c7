import AuroraMigration.Text
import AuroraMigration.Text.Unseen

/-!
# Paths of files

A path is a text in which slashes part the names of directories and files. Empty
segments and single dots say nothing; two dots go up, which only a walk through
the directories can follow.
-/

namespace AuroraMigration

abbrev Path := Text

namespace Path

def isAbsolute (path : Path) : Bool :=
  path.head? == some '/'

/--
The path `path` as seen from the directory `base`.

An absolute path stays as it is. Otherwise a slash goes between the two, unless
`base` is empty or ends in one.
-/
def join (base path : Path) : Path :=
  if isAbsolute path then path
  else if base.isEmpty || base.getLast? == some '/' then base ++ path
  else base ++ ['/'] ++ path

def isIdle (segment : Text) : Bool :=
  segment.isEmpty || segment == ['.']

def names (path : Path) : List Text :=
  (path.splitOn '/').filter (!isIdle ·)

/-- Whether a path can only be that of a directory, because of what follows its last name. -/
def asksDirectory (path : Path) : Bool :=
  (path.splitOn '/').getLast?.any isIdle

/-- Whether a path stands for standard input: a dash, whatever idle segments follow it. -/
def isDash (path : Path) : Bool :=
  match path.splitOn '/' with
  | first :: rest => first == ['-'] && rest.all isIdle
  | [] => false

/--
The path of the directory that holds the last name of a path.

The root and the empty path have none, and a single name is held by the empty
path. Idle segments around the last name are left out.
-/
def parent? (path : Path) : Option Path :=
  match path.splitOn '/' with
  | [] => none
  | first :: rest =>
      match dropTrailing isIdle rest with
      | [] => if first.isEmpty then none else some []
      | kept =>
          match dropTrailing isIdle kept.dropLast with
          | [] => some (if first.isEmpty then ['/'] else first)
          | above => some (Text.join ['/'] (first :: above))

/-- The characters that stand after a backslash in a message, and the letters for them. -/
def quotedLetters : List (Char × Char) :=
  [('"', '"'), ('\'', '\''), ('\\', '\\'), ('\n', 'n'), ('\r', 'r'), ('\t', 't'), ('\x00', '0')]

/-- A character of a path in a message; one that cannot be seen alone is shown by its code point. -/
def quotedChar (c : Char) : Text :=
  match quotedLetters.lookup c with
  | some letter => ['\\', letter]
  | none =>
      if isUnseen c then "\\u\x7b".toList ++ Nat.toDigits 16 c.toNat ++ ['\x7d'] else [c]

def quoted (path : Path) : Text :=
  '"' :: path.flatMap quotedChar ++ ['"']

end Path

end AuroraMigration
