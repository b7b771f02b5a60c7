import AuroraMigration.Yaml.Scalar

/-!
# Block scalars of YAML

A block scalar is the indented text below a `|` or a `>`. The header after that
sign may say how far the text is indented and what becomes of the line breaks at
its end. After `|` every line break is kept, after `>` a single one between two
lines is read as a space.
-/

namespace AuroraMigration.Yaml

inductive Chomping where
  /-- All are left out. -/
  | strip
  /-- One is kept. -/
  | clip
  /-- All are kept. -/
  | keep
  deriving DecidableEq, Repr

def chomping? (s : Text) : Option Chomping :=
  match s with
  | '+' :: _ => some .keep
  | '-' :: _ => some .strip
  | _ => none

/-- What a header says: the chomping, the indentation or zero, and the number of its characters. -/
structure BlockHeader where
  chomping : Chomping := .clip
  increment : Nat := 0
  length : Nat := 0

/-- The indentation that a digit stands for, or zero if there is no digit; a zero is refused. -/
def increment? (s : Text) : Option Nat :=
  match s with
  | [] => some 0
  | c :: _ =>
      if c = '0' then none
      else if c.isDigit then some (c.toNat - '0'.toNat)
      else some 0

/-- Read a header, in which sign and digit may stand in either order. -/
def readBlockHeader? (s : Text) : Option BlockHeader :=
  match chomping? s with
  | some chomping => do
      let increment ← increment? (s.drop 1)
      some { chomping, increment, length := if increment = 0 then 1 else 2 }
  | none => do
      let increment ← increment? s
      if increment = 0 then some {}
      else
        match chomping? (s.drop 1) with
        | some chomping => some { chomping, increment, length := 2 }
        | none => some { increment, length := 1 }

/-- Move over empty lines and the indentation of the next one; also returns the number of lines. -/
def skipIndent (indent : Nat) : Spot → Text → Nat × Cursor
  | spot, [] => (0, ⟨spot, []⟩)
  | spot, c :: rest =>
      if c = ' ' ∧ spot.column < indent then skipIndent indent (spot.after c) rest
      else if c = '\n' then
        let (breaks, cursor) := skipIndent indent (spot.after c) rest
        (breaks + 1, cursor)
      else (0, ⟨spot, c :: rest⟩)

/-- Move over lines of spaces and to the first other character; also returns the widest column. -/
def findIndent : (widest : Nat) → Spot → Text → Nat × Nat × Cursor
  | widest, spot, [] => (max widest spot.column, 0, ⟨spot, []⟩)
  | widest, spot, c :: rest =>
      if c = ' ' then findIndent widest (spot.after c) rest
      else if c = '\n' then
        let (widest, breaks, cursor) := findIndent (max widest spot.column) (spot.after c) rest
        (widest, breaks + 1, cursor)
      else (max widest spot.column, 0, ⟨spot, c :: rest⟩)

structure BlockState where
  cursor : Cursor
  broken : Bool := false
  /-- Number of empty lines since. -/
  breaks : Nat := 0
  /-- Whether the last line started with a space. -/
  spaced : Bool := false

/-- The text between the last line and the next one. -/
def BlockState.joint (folded : Bool) (state : BlockState) : Text :=
  let spaced := state.spaced || state.cursor.rest.head?.any isSpace
  if folded && state.broken && !spaced then
    if state.breaks = 0 then [' '] else List.replicate state.breaks '\n'
  else (if state.broken then ['\n'] else []) ++ List.replicate state.breaks '\n'

def BlockState.goesOn (indent : Nat) (state : BlockState) : Bool :=
  state.cursor.spot.column == indent && !state.cursor.rest.isEmpty &&
    !(indent == 0 && atMarker "..." state.cursor.rest)

def readBlockLines (folded : Bool) (indent : Nat) : (fuel : Nat) → BlockState → Text × BlockState
  | 0, state => ([], state)
  | fuel + 1, state =>
      if state.goesOn indent then
        let spaced := state.cursor.rest.head?.any isSpace
        let line := state.cursor.rest.takeWhile (· != '\n')
        let after := state.cursor.pass line.length
        let start := state.joint folded ++ line
        if after.rest.isEmpty then (start, { cursor := after })
        else
          let below := after.breakLine
          let (breaks, cursor) := skipIndent indent below.spot below.rest
          let (text, last) :=
            readBlockLines folded indent fuel { cursor, broken := true, breaks, spaced }
          (start ++ text, last)
      else ([], state)

def BlockState.tail (chomping : Chomping) (indent : Nat) (state : BlockState) : Text :=
  let last : Text := if state.broken then ['\n'] else []
  let unended : Text :=
    if state.cursor.rest.isEmpty ∧ max indent 1 ≤ state.cursor.spot.column then ['\n'] else []
  match chomping with
  | .strip => []
  | .clip => last ++ unended
  | .keep => last ++ unended ++ List.replicate state.breaks '\n'

def emptyBlock (chomping : Chomping) (sameLine : Bool) (breaks : Nat) : Text :=
  match chomping with
  | .strip => []
  | .clip => if sameLine then [] else ['\n']
  | .keep => if sameLine then [] else List.replicate (max breaks 1) '\n'

/--
Read a block scalar after its sign, within blocks whose lines stand in column
`margin` at least.
-/
def readBlock? (folded : Bool) (margin : Nat) (cursor : Cursor) : Option ScalarEnd := do
  let start := cursor.pass 1
  let header ← readBlockHeader? start.rest
  let (lineEnd, _) ← (start.pass header.length).skipLine? true
  if !atLineEnd lineEnd.rest then none
  else
    let below := lineEnd.breakLine
    if below.rest.head? = some '\t' then none
    else
      let (indent, breaks, content) :=
        if header.increment = 0 then
          let (widest, breaks, content) := findIndent 0 below.spot below.rest
          (max widest margin, breaks, content)
        else
          let indent := margin - 1 + header.increment
          let (breaks, content) := skipIndent indent below.spot below.rest
          (indent, breaks, content)
      if content.rest.isEmpty then
        let sameLine := content.spot.line == cursor.spot.line
        some (emptyBlock header.chomping sameLine breaks, content)
      else if content.spot.column < indent ∧ margin ≤ content.spot.column then none
      else
        let (text, last) :=
          readBlockLines folded indent content.rest.length { cursor := content, breaks }
        some (text ++ last.tail header.chomping indent, last.cursor)

end AuroraMigration.Yaml
