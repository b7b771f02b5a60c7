import AuroraMigration.Text
import AuroraMigration.Text.WordChar

/-!
# Patterns for lines

A small language of patterns and its meaning: from a place in a line, a pattern
leads to all the places where a match that starts there can end. A line matches
a pattern when a match starts anywhere in it.
-/

namespace AuroraMigration

inductive CharSet where
  | blank
  | word
  deriving DecidableEq, Repr

def CharSet.mem : CharSet → Char → Bool
  | .blank => isBlank
  | .word => isWordChar

inductive Pattern where
  /-- Matches without reading anything. -/
  | empty
  | char (c : Char)
  | one (set : CharSet)
  /-- Any number of characters of a set. -/
  | many (set : CharSet)
  | seq (first second : Pattern)
  | either (left right : Pattern)
  | lineStart
  | lineEnd
  /-- A place with a word character on exactly one side. -/
  | wordEdge
  deriving DecidableEq, Repr

/-- A place in a line: the character before it, if any, and the text after it. -/
structure Place where
  before : Option Char
  rest : Text
  deriving DecidableEq, Repr

namespace Place

/-- The place that `before` and `rest` surround and all later ones. -/
def onward (before : Option Char) : Text → List Place
  | [] => [⟨before, []⟩]
  | c :: rest => ⟨before, c :: rest⟩ :: onward (some c) rest

def afterMany (set : CharSet) (before : Option Char) : Text → List Place
  | [] => [⟨before, []⟩]
  | c :: rest =>
      ⟨before, c :: rest⟩ :: (if set.mem c then afterMany set (some c) rest else [])

def isWordEdge (place : Place) : Bool :=
  place.before.any isWordChar != place.rest.head?.any isWordChar

end Place

namespace Pattern

/-- The places where a match that starts at a place can end. -/
def ends : Pattern → Place → List Place
  | .empty, place => [place]
  | .char c, ⟨_, next⟩ =>
      match next with
      | [] => []
      | d :: rest => if d = c then [⟨some d, rest⟩] else []
  | .one set, ⟨_, next⟩ =>
      match next with
      | [] => []
      | d :: rest => if set.mem d then [⟨some d, rest⟩] else []
  | .many set, ⟨before, rest⟩ => Place.afterMany set before rest
  | .seq first second, place => (first.ends place).flatMap second.ends
  | .either left right, place => left.ends place ++ right.ends place
  | .lineStart, place => if place.before.isNone then [place] else []
  | .lineEnd, place => if place.rest.isEmpty then [place] else []
  | .wordEdge, place => if place.isWordEdge then [place] else []

def occursIn (pattern : Pattern) (line : Text) : Bool :=
  (Place.onward none line).any fun place => !(pattern.ends place).isEmpty

def word (text : String) : Pattern :=
  text.toList.foldr (fun c rest => .seq (.char c) rest) .empty

def all (patterns : List Pattern) : Pattern :=
  patterns.foldr .seq .empty

def blanks : Pattern :=
  .many .blank

end Pattern

end AuroraMigration
