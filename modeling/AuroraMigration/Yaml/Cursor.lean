import AuroraMigration.Text

/-!
# Places in a YAML text

A YAML text is read from left to right by a cursor, which knows the line and the
column it stands in: indentation says to which node a line belongs. The end of
the text counts as the end of a line.
-/

namespace AuroraMigration.Yaml

def isSpace (c : Char) : Bool :=
  c == ' ' || c == '\t'

def isFlowIndicator (c : Char) : Bool :=
  [',', '[', ']', '\x7b', '\x7d'].contains c

def atLineEnd (rest : Text) : Bool :=
  rest.head?.all (· == '\n')

/-- Whether the text is at a space or at the end of a line, where an indicator before it ends. -/
def atWordEnd (rest : Text) : Bool :=
  rest.head?.all fun c => isSpace c || c == '\n'

def atMarker (marker : String) (rest : Text) : Bool :=
  marker.toList.isPrefixOf rest && atWordEnd (rest.drop marker.length)

def atAnyMarker (rest : Text) : Bool :=
  atMarker "---" rest || atMarker "..." rest

structure Spot where
  line : Nat := 0
  column : Nat := 0
  index : Nat := 0
  /-- Whether the line has only spaces before the cursor. -/
  fresh : Bool := true
  deriving DecidableEq, Repr

def Spot.after (spot : Spot) (c : Char) : Spot :=
  if c = '\n' then { line := spot.line + 1, column := 0, index := spot.index + 1, fresh := true }
  else { spot with column := spot.column + 1, index := spot.index + 1 }

/-- The spot after `n` spaces or characters of a comment. -/
def Spot.skip (spot : Spot) (n : Nat) : Spot :=
  { spot with column := spot.column + n, index := spot.index + n }

/-- The spot after `n` other characters. -/
def Spot.pass (spot : Spot) (n : Nat) : Spot :=
  { spot.skip n with fresh := false }

structure Cursor where
  spot : Spot := {}
  rest : Text
  deriving DecidableEq, Repr

namespace Cursor

def skip (cursor : Cursor) (n : Nat) : Cursor :=
  ⟨cursor.spot.skip n, cursor.rest.drop n⟩

def pass (cursor : Cursor) (n : Nat) : Cursor :=
  ⟨cursor.spot.pass n, cursor.rest.drop n⟩

def breakLine (cursor : Cursor) : Cursor :=
  match cursor.rest with
  | '\n' :: rest => ⟨cursor.spot.after '\n', rest⟩
  | _ => cursor

/--
Move over the spaces and a comment up to the end of the line, or only over the
spaces if something else follows them; also returns the spaces.

A number sign that no space precedes starts no comment and may not stand here.
-/
def skipLine? (tabs : Bool) (cursor : Cursor) : Option (Cursor × Text) :=
  let spaces := cursor.rest.takeWhile fun c => c == ' ' || (tabs && c == '\t')
  let next := cursor.skip spaces.length
  if next.rest.head? = some '#' then
    if spaces.isEmpty then none
    else some (next.skip (next.rest.takeWhile (· != '\n')).length, spaces)
  else some (next, spaces)

end Cursor

inductive GapMode where
  /-- Spaces, a comment, or a token. -/
  | free
  /-- Spaces or a comment, because a tab stands in the indentation. -/
  | tabbed
  | comment
  deriving DecidableEq, Repr

/--
Move over spaces, comments and line feeds to the next token.

A tab may not stand in the indentation of a line with a token, which are the
columns before the last one that `margin` leaves out.
-/
def skipGapFrom? (margin : Nat) : GapMode → Spot → Text → Option Cursor
  | _, spot, [] => some ⟨spot, []⟩
  | mode, spot, c :: rest =>
      if c = '\n' then skipGapFrom? margin .free (spot.after c) rest
      else
        match mode with
        | .comment => skipGapFrom? margin .comment (spot.after c) rest
        | .tabbed =>
            if isSpace c then skipGapFrom? margin .tabbed (spot.after c) rest
            else if c = '#' then skipGapFrom? margin .comment (spot.after c) rest
            else none
        | .free =>
            if c = '\t' ∧ spot.fresh ∧ spot.column + 1 < margin then
              skipGapFrom? margin .tabbed (spot.after c) rest
            else if isSpace c then skipGapFrom? margin .free (spot.after c) rest
            else if c = '#' then skipGapFrom? margin .comment (spot.after c) rest
            else some ⟨spot, c :: rest⟩

def Cursor.skipGap? (margin : Nat) (cursor : Cursor) : Option Cursor :=
  skipGapFrom? margin .free cursor.spot cursor.rest

end AuroraMigration.Yaml
