import AuroraMigration.Yaml.Cursor

/-!
# Plain and quoted scalars of YAML

A plain scalar ends at a comment and at a colon that a space follows. Between
quotes a doubled single quote stands for one, and a backslash between double
quotes starts an escape. Both may go on in further lines: a line break is then
read as a space, and each further one as a line feed.
-/

namespace AuroraMigration.Yaml

inductive ScalarStyle where
  | plain
  | quoted
  | block
  deriving DecidableEq, Repr

abbrev ScalarEnd := Text × Cursor

def prepend (text : Text) (scalar : ScalarEnd) : ScalarEnd :=
  (text ++ scalar.1, scalar.2)

structure Gap where
  /-- The spaces before any line break. -/
  spaces : Text := []
  broken : Bool := false
  /-- Whether the first line break is read as a space, as it is unless it is escaped. -/
  folded : Bool := false
  /-- Number of line breaks after the first one. -/
  breaks : Nat := 0
  deriving DecidableEq, Repr

namespace Gap

def lineBreak (gap : Gap) : Gap :=
  if gap.broken then { gap with breaks := gap.breaks + 1 }
  else { broken := true, folded := true }

/-- A gap goes on with a space, which counts only before any line break. -/
def space (gap : Gap) (c : Char) : Gap :=
  if gap.broken then gap else { gap with spaces := gap.spaces ++ [c] }

def text (gap : Gap) : Text :=
  if gap.broken then
    if gap.folded && gap.breaks == 0 then [' '] else List.replicate gap.breaks '\n'
  else gap.spaces

end Gap

def isPlainChar (flow : Bool) (c : Char) (rest : Text) : Bool :=
  if c == ':' then !(atWordEnd rest || (flow && rest.head?.any isFlowIndicator))
  else !(flow && isFlowIndicator c)

/-- Whether a dash inside a flow collection stands before one of its indicators. -/
def isStrayDash (flow : Bool) (c : Char) (rest : Text) : Bool :=
  flow && c == '-' && rest.head?.any isFlowIndicator

inductive PlainMode where
  | word
  /-- Between two words, or before the first. -/
  | gap (gap : Gap)
  /-- After a tab in the indentation, where no word may follow on the line. -/
  | tabbed (gap : Gap) (comment : Bool)

/--
Read a plain scalar, whose further lines stand in column `margin` at least.

The cursor is left after the spaces and line breaks that follow the last word.
-/
def readPlainFrom? (flow : Bool) (margin : Nat) : PlainMode → Spot → Text → Option ScalarEnd
  | _, spot, [] => some ([], ⟨spot, []⟩)
  | .word, spot, c :: rest =>
      if c = '\n' then readPlainFrom? flow margin (.gap (Gap.lineBreak {})) (spot.after c) rest
      else if isSpace c then readPlainFrom? flow margin (.gap (Gap.space {} c)) (spot.after c) rest
      else if isPlainChar flow c rest then
        (readPlainFrom? flow margin .word (spot.pass 1) rest).map (prepend [c])
      else some ([], ⟨spot, c :: rest⟩)
  | .gap gap, spot, c :: rest =>
      if c = '\n' then readPlainFrom? flow margin (.gap gap.lineBreak) (spot.after c) rest
      else if isSpace c then
        if gap.broken ∧ c = '\t' ∧ spot.column < margin then
          readPlainFrom? flow margin (.tabbed gap false) (spot.after c) rest
        else readPlainFrom? flow margin (.gap (gap.space c)) (spot.after c) rest
      else if gap.broken && !flow && decide (spot.column < margin) then some ([], ⟨spot, c :: rest⟩)
      else if (spot.fresh && atAnyMarker (c :: rest)) || c == '#' then some ([], ⟨spot, c :: rest⟩)
      else if isStrayDash flow c rest then none
      else if isPlainChar flow c rest then
        (readPlainFrom? flow margin .word (spot.pass 1) rest).map (prepend (gap.text ++ [c]))
      else some ([], ⟨spot, c :: rest⟩)
  | .tabbed gap comment, spot, c :: rest =>
      if c = '\n' then readPlainFrom? flow margin (.gap gap.lineBreak) (spot.after c) rest
      else if comment then readPlainFrom? flow margin (.tabbed gap true) (spot.after c) rest
      else if isSpace c then readPlainFrom? flow margin (.tabbed gap false) (spot.after c) rest
      else if c = '#' then readPlainFrom? flow margin (.tabbed gap true) (spot.after c) rest
      else none

def readPlain? (flow : Bool) (margin : Nat) (cursor : Cursor) : Option ScalarEnd :=
  match readPlainFrom? flow margin (.gap {}) cursor.spot cursor.rest with
  | some ([], _) => none
  | result => result

def hexDigit? (c : Char) : Option Nat :=
  if c.isDigit then some (c.toNat - '0'.toNat)
  else if 'a' ≤ c ∧ c ≤ 'f' then some (c.toNat - 'a'.toNat + 10)
  else if 'A' ≤ c ∧ c ≤ 'F' then some (c.toNat - 'A'.toNat + 10)
  else none

def charOfHex? (digits : List Char) : Option Char := do
  let values ← digits.mapM hexDigit?
  let n := values.foldl (fun n value => 16 * n + value) 0
  if n.isValidChar then some (Char.ofNat n) else none

def escapes : List (Char × Char) :=
  [('"', '"'), ('\\', '\\'), ('/', '/'), (' ', ' '), ('\t', '\t'), ('0', '\x00'), ('a', '\x07'),
    ('b', '\x08'), ('t', '\t'), ('n', '\n'), ('v', '\x0b'), ('f', '\x0c'), ('r', '\r'),
    ('e', '\x1b'), ('N', '\u0085'), ('_', '\u00a0'), ('L', '\u2028'), ('P', '\u2029')]

/-- Whether a word between quotes may start here: in a further line, indented and no marker. -/
def mayResume (margin : Nat) (spot : Spot) (rest : Text) : Bool :=
  !(spot.column + 1 < margin) && !(spot.column == 0 && atAnyMarker rest)

/-- The character that an escape stands for, and the length of the escape after its backslash. -/
def escaped? : Text → Option (Char × Nat)
  | 'x' :: a :: b :: _ => (charOfHex? [a, b]).map (·, 3)
  | 'u' :: a :: b :: c :: d :: _ => (charOfHex? [a, b, c, d]).map (·, 5)
  | 'U' :: a :: b :: c :: d :: e :: f :: g :: h :: _ =>
      (charOfHex? [a, b, c, d, e, f, g, h]).map (·, 9)
  | letter :: _ => (escapes.lookup letter).map (·, 1)
  | [] => none

inductive QuotedPart where
  | close
  /-- A character, which is written with `more` further ones. -/
  | char (value : Char) (more : Nat)
  /-- A backslash at the end of a line, which leaves out the line break. -/
  | lineEnd
  | unknown

def quotedPart (quote c : Char) (rest : Text) : QuotedPart :=
  if c = quote then
    if quote = '\'' ∧ rest.head? = some '\'' then .char '\'' 1 else .close
  else if quote = '"' ∧ c = '\\' then
    if rest.head? = some '\n' then .lineEnd
    else
      match escaped? rest with
      | some (value, more) => .char value more
      | none => .unknown
  else .char c 0

/--
Read up to the closing quote, inside a word or in a gap between words, once
`skip` characters of an escape have been passed.
-/
def readQuotedFrom? (quote : Char) (margin : Nat) :
    (skip : Nat) → Option Gap → Spot → Text → Option ScalarEnd
  | _, _, _, [] => none
  | skip + 1, gap, spot, _ :: rest => readQuotedFrom? quote margin skip gap (spot.pass 1) rest
  | 0, gap, spot, c :: rest =>
      if c = '\n' then
        readQuotedFrom? quote margin 0 (some (gap.getD {}).lineBreak) (spot.after c) rest
      else if isSpace c then
        if gap.any Gap.broken ∧ c = '\t' ∧ spot.column + 1 < margin then none
        else readQuotedFrom? quote margin 0 (some ((gap.getD {}).space c)) (spot.after c) rest
      else if gap.isSome && !mayResume margin spot (c :: rest) then none
      else
        let before := (gap.getD {}).text
        match quotedPart quote c rest with
        | .close => some (before, ⟨spot.pass 1, rest⟩)
        | .char value more =>
            (readQuotedFrom? quote margin more none (spot.pass 1) rest).map
              (prepend (before ++ [value]))
        | .lineEnd =>
            match rest with
            | _ :: rest =>
                let below := (spot.pass 1).after '\n'
                if rest.head? = some quote then some (before, ⟨below.pass 1, rest.drop 1⟩)
                else
                  (readQuotedFrom? quote margin 0 (some { broken := true }) below rest).map
                    (prepend before)
            | [] => none
        | .unknown => none

def mayFollowQuoted (flow : Bool) (start : Nat) (cursor : Cursor) : Bool :=
  match cursor.rest.head? with
  | none => true
  | some '\n' => true
  | some ':' => flow || start == cursor.spot.line
  | some c => flow && (c == ',' || c == ']' || c == '\x7d')

/-- Read a quoted scalar from its opening quote to the end of its line or to what follows it. -/
def readQuoted? (flow : Bool) (margin : Nat) (cursor : Cursor) : Option ScalarEnd := do
  let inside := cursor.pass 1
  let (text, after) ←
    readQuotedFrom? (cursor.rest.headD '"') margin 0 none inside.spot inside.rest
  let (after, _) ← after.skipLine? true
  if mayFollowQuoted flow cursor.spot.line after then some (text, after) else none

end AuroraMigration.Yaml
