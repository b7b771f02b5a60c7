import AuroraMigration.Yaml.BlockScalar

/-!
# Tokens of YAML

Tokens are the indicators, scalars and node properties of a text, together with
marks where blocks start and end, which the indentation of lines decides. A text
that cannot be read any further ends in a mark of its own, so that what stands
before it can still be used.
-/

namespace AuroraMigration.Yaml

inductive Token where
  /-- A line that starts with a per cent sign; at most one of them gives the version. -/
  | directive (version : Bool)
  | documentStart
  | documentEnd
  | blockList
  | blockMap
  | blockEnd
  | flowList
  | flowListEnd
  | flowMap
  | flowMapEnd
  /-- A dash before an item of a block. -/
  | item
  | comma
  | key
  | value
  | alias (name : Text)
  | anchor (name : Text)
  | tag (name : Text)
  | scalar (style : ScalarStyle) (text : Text)
  | finish
  /-- What follows cannot be read. -/
  | invalid
  deriving DecidableEq, Repr

def isAnchorChar (c : Char) : Bool :=
  !isSpace c && c != '\n' && c != '\ufeff' && !isFlowIndicator c

def readAnchor? (cursor : Cursor) : Option (Text × Cursor) :=
  let name := (cursor.rest.drop 1).takeWhile isAnchorChar
  if name.isEmpty then none else some (name, cursor.pass (1 + name.length))

def isTagChar (c : Char) : Bool :=
  c.isAlphanum || "-#;/?:@&=+$_.~*'()%".toList.contains c

def coreTag (name : String) : Text :=
  ("tag:yaml.org,2002:" ++ name).toList

/--
Read a tag: `!<…>` with the whole tag, `!!…` with a name of the core schema,
`!…` with another name, or `!` alone.
-/
def readTag? (flow : Bool) (cursor : Cursor) : Option (Text × Cursor) := do
  let (name, length) ← match cursor.rest.drop 1 with
    | '<' :: rest =>
        let name := rest.takeWhile fun c => isTagChar c || "!,[]".toList.contains c
        if name.isEmpty || (rest.drop name.length).head? ≠ some '>' then none
        else some (name, name.length + 3)
    | '!' :: rest =>
        let name := rest.takeWhile isTagChar
        if name.isEmpty then none else some (coreTag "" ++ name, name.length + 2)
    | rest =>
        let name := rest.takeWhile isTagChar
        some ('!' :: name, name.length + 1)
  let after := cursor.pass length
  if atWordEnd after.rest || (flow && after.rest.head?.any isFlowIndicator) then some (name, after)
  else none

/-- Characters of the names of directives, and those that may not follow a colon and a tab. -/
def isNameChar (c : Char) : Bool :=
  c.isAlphanum || c == '_' || c == '-'

/-- The length of a version, which is two numbers with a point between them. -/
def versionLength? (s : Text) : Option Nat :=
  let major := s.takeWhile Char.isDigit
  match s.drop major.length with
  | '.' :: rest =>
      let minor := rest.takeWhile Char.isDigit
      if major.isEmpty || minor.isEmpty || 9 < major.length || 9 < minor.length then none
      else some (major.length + 1 + minor.length)
  | _ => none

def readDirective? (cursor : Cursor) : Option (Token × Cursor) := do
  let name := (cursor.rest.drop 1).takeWhile isNameChar
  let after := cursor.pass (1 + name.length)
  if name.isEmpty || !atWordEnd after.rest then none
  else if name == "YAML".toList then
    let start := after.skip (after.rest.takeWhile isSpace).length
    let length ← versionLength? start.rest
    let (last, _) ← (start.pass length).skipLine? true
    if atLineEnd last.rest then some (.directive true, last.breakLine) else none
  else
    let last := after.skip (after.rest.takeWhile (· != '\n')).length
    some (.directive false, last.breakLine)

end AuroraMigration.Yaml
