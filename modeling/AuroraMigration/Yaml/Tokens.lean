import AuroraMigration.Yaml.Token

/-!
# The tokens of a YAML text

Tokens are read one after the other by a scanner, which keeps the columns of the
open blocks. That a scalar is a key shows only at the colon after it; a scanner
therefore remembers where a key may have started, and puts the mark of the key,
and of the mapping that it may open, in front of the tokens read since.

A key and its colon stand on one line and at most 1024 characters apart, unless
they are inside a flow collection.
-/

namespace AuroraMigration.Yaml

structure KeyStart where
  /-- Whether a colon would make it a key. -/
  possible : Bool := false
  /-- Whether only a key can stand there. -/
  required : Bool := false
  number : Nat := 0
  spot : Spot := {}
  deriving DecidableEq, Repr

structure OuterBlock where
  margin : Nat
  /-- Whether the inner block ends with a token. -/
  marked : Bool
  deriving DecidableEq, Repr

structure Scanner where
  cursor : Cursor
  /-- The tokens read so far, the last one first. -/
  tokens : List Token := []
  keyAllowed : Bool := true
  keyStart : KeyStart := {}
  /-- The starts of keys outside each of the open flow collections, the innermost first. -/
  outerStarts : List KeyStart := []
  /-- One more than the column of the innermost block, or zero outside all blocks. -/
  margin : Nat := 0
  outer : List OuterBlock := []
  /-- The place where a colon is an indicator whatever follows it. -/
  colonAt : Nat := 0

namespace Scanner

def inFlow (scanner : Scanner) : Bool :=
  !scanner.outerStarts.isEmpty

def column (scanner : Scanner) : Nat :=
  scanner.cursor.spot.column

def push (scanner : Scanner) (token : Token) : Scanner :=
  { scanner with tokens := token :: scanner.tokens }

def insert (scanner : Scanner) (number : Nat) (token : Token) : Scanner :=
  let later := scanner.tokens.length - number
  { scanner with tokens := scanner.tokens.take later ++ token :: scanner.tokens.drop later }

def closeFrom (floor : Nat) (scanner : Scanner) : List OuterBlock → Scanner
  | [] => { scanner with outer := [] }
  | block :: rest =>
      if floor < scanner.margin then
        let inner := if block.marked then scanner.push .blockEnd else scanner
        closeFrom floor { inner with margin := block.margin } rest
      else { scanner with outer := block :: rest }

/-- Close blocks until the margin is at most `floor`; blocks stay open inside a flow collection. -/
def close (scanner : Scanner) (floor : Nat) : Scanner :=
  if scanner.inFlow then scanner else closeFrom floor scanner scanner.outer

/-- Close the innermost blocks that end without a token. -/
def closeUnmarked (scanner : Scanner) : Scanner :=
  let inner := scanner.outer.takeWhile (!·.marked)
  match inner.getLast? with
  | some block =>
      { scanner with margin := block.margin, outer := scanner.outer.drop inner.length }
  | none => scanner

/-- Close the innermost block if it ends without a token and does not lie right of a column. -/
def closeUnused (scanner : Scanner) (column : Nat) : Scanner :=
  match scanner.outer with
  | block :: rest =>
      if scanner.margin ≤ column + 1 ∧ !block.marked then
        { scanner with margin := block.margin, outer := rest }
      else scanner
  | [] => scanner

/-- Open a block in a column right of all others, with its token before the token `number`. -/
def openBlock (scanner : Scanner) (column number : Nat) (token : Token) : Scanner :=
  if scanner.inFlow then scanner
  else
    let scanner := scanner.closeUnused column
    if scanner.margin ≤ column then
      let opened := scanner.insert number token
      { opened with
        margin := column + 1
        outer := { margin := scanner.margin, marked := true } :: scanner.outer }
    else scanner

/-- Ask further lines of the innermost block to stand one column to its right. -/
def openColumn (scanner : Scanner) : Scanner :=
  if !scanner.inFlow && scanner.outer.head?.any (·.marked) then
    { scanner with
      margin := scanner.margin + 1
      outer := { margin := scanner.margin, marked := false } :: scanner.outer }
  else scanner

def saveKey (scanner : Scanner) : Scanner :=
  if scanner.keyAllowed then
    { scanner with
      keyStart :=
        { possible := true
          required :=
            !scanner.inFlow && scanner.margin == scanner.column + 1 &&
              scanner.outer.head?.any (·.marked)
          number := scanner.tokens.length
          spot := scanner.cursor.spot } }
  else scanner

/-- Forget the start of a key, unless only a key can stand there. -/
def dropKey? (scanner : Scanner) : Option Scanner :=
  if scanner.keyStart.possible && scanner.keyStart.required then none
  else some { scanner with keyStart := { scanner.keyStart with possible := false } }

def isKeyStale (scanner : Scanner) : Bool :=
  !scanner.inFlow && scanner.keyStart.possible &&
    (decide (scanner.keyStart.spot.line < scanner.cursor.spot.line) ||
      decide (scanner.keyStart.spot.index + 1024 < scanner.cursor.spot.index))

/-- Forget the start of a key whose colon can no longer follow. -/
def dropStaleKey? (scanner : Scanner) : Option Scanner :=
  if scanner.isKeyStale then scanner.dropKey? else some scanner

/-- Move the cursor to the next token; below a line break a key may start again. -/
def skipGap? (scanner : Scanner) : Option Scanner := do
  let cursor ← scanner.cursor.skipGap? scanner.margin
  let moved := !scanner.inFlow && decide (scanner.cursor.spot.line < cursor.spot.line)
  some { scanner with cursor, keyAllowed := scanner.keyAllowed || moved }

def pass (scanner : Scanner) (n : Nat) : Scanner :=
  { scanner with cursor := scanner.cursor.pass n }

def skipLine? (scanner : Scanner) : Option Scanner := do
  let (cursor, _) ← scanner.cursor.skipLine? true
  some { scanner with cursor }

def leaveBlocks? (scanner : Scanner) : Option Scanner := do
  let scanner ← (scanner.close 0).dropKey?
  some { scanner with keyAllowed := false }

def readFinish? (scanner : Scanner) : Option Scanner := do
  if scanner.inFlow then none
  else
    let scanner ← scanner.leaveBlocks?
    some (scanner.push .finish)

def readDirective? (scanner : Scanner) : Option Scanner := do
  let scanner ← scanner.leaveBlocks?
  let (token, cursor) ← Yaml.readDirective? scanner.cursor
  some { scanner.push token with cursor }

def readDocumentStart? (scanner : Scanner) : Option Scanner := do
  let scanner ← scanner.leaveBlocks?
  some ((scanner.push .documentStart).pass 3)

/-- Read a marker after a document, with nothing but a comment on its line. -/
def readDocumentEnd? (scanner : Scanner) : Option Scanner := do
  let scanner ← scanner.leaveBlocks?
  let scanner ← ((scanner.push .documentEnd).pass 3).skipLine?
  if atLineEnd scanner.cursor.rest then some scanner else none

/-- Read the bracket or brace that opens a flow collection; there are at most 255 in each other. -/
def readFlowStart? (scanner : Scanner) (token : Token) : Option Scanner := do
  let scanner := scanner.saveKey.openColumn
  if 255 ≤ scanner.outerStarts.length then none
  else
    let inside :=
      { scanner with
        outerStarts := scanner.keyStart :: scanner.outerStarts
        keyStart := {}
        keyAllowed := true }
    let inside ← (inside.pass 1).skipLine?
    some (inside.push token)

def readFlowEnd? (scanner : Scanner) (token : Token) : Option Scanner := do
  let scanner ← scanner.dropKey?
  match scanner.outerStarts with
  | [] => none
  | keyStart :: outerStarts =>
      let outside ← ({ scanner with keyStart, outerStarts, keyAllowed := false }.pass 1).skipLine?
      let colonAt := if outside.inFlow then outside.cursor.spot.index else outside.colonAt
      some { outside.push token with colonAt }

def readComma? (scanner : Scanner) : Option Scanner := do
  let scanner ← scanner.dropKey?
  let scanner ← ({ scanner with keyAllowed := true }.pass 1).skipLine?
  some (scanner.push .comma)

def readItem? (scanner : Scanner) : Option Scanner := do
  if scanner.inFlow || !scanner.keyAllowed then none
  else
    let scanner := (scanner.openBlock scanner.column scanner.tokens.length .blockList).pass 1
    let (cursor, spaces) ← scanner.cursor.skipLine? true
    if spaces.contains '\t' && cursor.rest.head? == some '-' && atWordEnd (cursor.rest.drop 1) then
      none
    else
      let scanner := { scanner with cursor }
      let opened :=
        if cursor.rest.head?.any fun c => c == '\n' || isFlowIndicator c then scanner.openColumn
        else scanner
      let opened ← opened.dropKey?
      some ({ opened with keyAllowed := true }.push .item)

def skipKeyGap : (comment : Bool) → Spot → Text → Cursor
  | _, spot, [] => ⟨spot, []⟩
  | comment, spot, c :: rest =>
      if c = '\n' then skipKeyGap false (spot.after c) rest
      else if comment || c == '#' then skipKeyGap true (spot.after c) rest
      else if c = ' ' then skipKeyGap false (spot.after c) rest
      else ⟨spot, c :: rest⟩

def readKey? (scanner : Scanner) : Option Scanner := do
  if !scanner.inFlow && !scanner.keyAllowed then none
  else
    let scanner := scanner.openBlock scanner.column scanner.tokens.length .blockMap
    let scanner ← scanner.dropKey?
    let scanner := { scanner with keyAllowed := !scanner.inFlow }.pass 1
    let cursor := skipKeyGap false scanner.cursor.spot scanner.cursor.rest
    if cursor.rest.head? = some '\t' ∨ scanner.cursor.rest.isEmpty then none
    else some ({ scanner with cursor }.push .key)

/-- Move over the spaces after a colon; a tab alone does not part it from a word. -/
def passColon? (scanner : Scanner) : Option Scanner := do
  let after := scanner.pass 1
  if after.cursor.rest.head? = some '\t' then
    let (cursor, spaces) ← after.cursor.skipLine? true
    if !spaces.contains ' ' && cursor.rest.head?.any isNameChar then none
    else some { after with cursor }
  else some after

def readValue? (scanner : Scanner) : Option Scanner := do
  let column := scanner.column
  let start := scanner.keyStart
  let scanner ← scanner.passColon?
  if start.possible then
    let scanner := scanner.insert start.number .key
    let scanner := (scanner.openBlock start.spot.column start.number .blockMap).openColumn
    let scanner :=
      { scanner with keyStart := { start with possible := false }, keyAllowed := false }
    some (scanner.push .value)
  else if !scanner.inFlow && !scanner.keyAllowed then none
  else
    let scanner := (scanner.openBlock column scanner.tokens.length .blockMap).openColumn
    some ({ scanner with keyAllowed := !scanner.inFlow }.push .value)

/-- Read the colon before a value that follows it directly inside a flow collection. -/
def readFlowValue? (scanner : Scanner) : Option Scanner :=
  let next := (scanner.cursor.rest.drop 1).head?
  if scanner.cursor.spot.index ≠ scanner.colonAt ∧ (next = some '[' ∨ next = some '\x7b') then none
  else scanner.readValue?

/-- Read a token that may be the start of a key and of which `read?` finds the end. -/
def readNode? (scanner : Scanner) (read? : Cursor → Option (Token × Cursor)) : Option Scanner := do
  let (token, cursor) ← read? scanner.cursor
  let scanner := { scanner.saveKey with keyAllowed := false }
  some { scanner.push token with cursor }

def readAnchor? (scanner : Scanner) : Option Scanner :=
  scanner.readNode? fun cursor => (Yaml.readAnchor? cursor).map fun (name, after) =>
    (.anchor name, after)

def readAlias? (scanner : Scanner) : Option Scanner :=
  scanner.readNode? fun cursor => (Yaml.readAnchor? cursor).map fun (name, after) =>
    (.alias name, after)

def readTag? (scanner : Scanner) : Option Scanner :=
  scanner.readNode? fun cursor => (Yaml.readTag? scanner.inFlow cursor).map fun (name, after) =>
    (.tag name, after)

def readBlock? (scanner : Scanner) (folded : Bool) : Option Scanner := do
  let scanner := scanner.saveKey.closeUnmarked
  let (text, cursor) ← Yaml.readBlock? folded scanner.margin scanner.cursor
  some { scanner.push (.scalar .block text) with cursor, keyAllowed := true }

/-- Read a quoted scalar and move to the next token, which may be a colon of its own. -/
def readQuoted? (scanner : Scanner) : Option Scanner := do
  let scanner := { scanner.saveKey with keyAllowed := false }
  let (text, cursor) ← Yaml.readQuoted? scanner.inFlow scanner.margin scanner.cursor
  let scanner ← { scanner with cursor }.skipGap?
  some { scanner.push (.scalar .quoted text) with colonAt := scanner.cursor.spot.index }

/-- Read a plain scalar; inside a flow collection it is indented as far as the blocks around it. -/
def readPlain? (scanner : Scanner) : Option Scanner := do
  let scanner := scanner.saveKey.closeUnmarked
  if scanner.inFlow ∧ scanner.column < scanner.margin then none
  else
    let (text, cursor) ← Yaml.readPlain? scanner.inFlow scanner.margin scanner.cursor
    some { scanner.push (.scalar .plain text) with cursor, keyAllowed := cursor.spot.fresh }

def readToken? (scanner : Scanner) (c : Char) (rest : Text) : Option Scanner :=
  let flow := scanner.inFlow
  match c with
  | '[' => scanner.readFlowStart? .flowList
  | '\x7b' => scanner.readFlowStart? .flowMap
  | ']' => scanner.readFlowEnd? .flowListEnd
  | '\x7d' => scanner.readFlowEnd? .flowMapEnd
  | ',' => scanner.readComma?
  | '-' => if atWordEnd rest then scanner.readItem? else scanner.readPlain?
  | '?' => if atWordEnd rest then scanner.readKey? else scanner.readPlain?
  | ':' =>
      if atWordEnd rest then scanner.readValue?
      else if flow && (rest.head?.any isFlowIndicator ||
          scanner.cursor.spot.index == scanner.colonAt) then
        scanner.readFlowValue?
      else scanner.readPlain?
  | '*' => scanner.readAlias?
  | '&' => scanner.readAnchor?
  | '!' => scanner.readTag?
  | '|' => if flow then scanner.readPlain? else scanner.readBlock? false
  | '>' => if flow then scanner.readPlain? else scanner.readBlock? true
  | '\'' => scanner.readQuoted?
  | '"' => scanner.readQuoted?
  | '%' => none
  | '@' => none
  | '\x60' => none
  | _ => scanner.readPlain?

/-- Whether the cursor stands left of the blocks that are open around a flow collection. -/
def isOutdented (scanner : Scanner) (c : Char) : Bool :=
  decide (scanner.column + 1 < scanner.margin) &&
    !(scanner.inFlow && (c == ']' || c == '\x7d' || c == ','))

def next? (scanner : Scanner) : Option Scanner := do
  let scanner ← scanner.skipGap?
  let scanner ← scanner.dropStaleKey?
  let scanner := scanner.close (scanner.column + 1)
  let text := scanner.cursor.rest
  match text with
  | [] => scanner.readFinish?
  | c :: rest =>
      if scanner.column = 0 ∧ c = '%' then scanner.readDirective?
      else if scanner.column = 0 ∧ atMarker "---" text then scanner.readDocumentStart?
      else if scanner.column = 0 ∧ atMarker "..." text then scanner.readDocumentEnd?
      else if scanner.isOutdented c then none
      else scanner.readToken? c rest

/--
The tokens of a scanner that cannot go on.

Tokens from a possible start of a key on are not certain yet and left out.
-/
def certain (scanner : Scanner) : List Token :=
  let starts := scanner.outerStarts ++
    (if scanner.isKeyStale && !scanner.keyStart.required then [] else [scanner.keyStart])
  let number := (starts.filter (·.possible)).foldl (fun n start => min n start.number)
    scanner.tokens.length
  scanner.tokens.reverse.take number

/-- The tokens from a scanner on, of which `fuel` bounds the number. -/
def tokensFrom : (fuel : Nat) → Scanner → List Token
  | 0, scanner => scanner.certain ++ [.invalid]
  | fuel + 1, scanner =>
      match scanner.next? with
      | none => scanner.certain ++ [.invalid]
      | some scanner =>
          if scanner.tokens.head? = some .finish then scanner.tokens.reverse
          else tokensFrom fuel scanner

end Scanner

def unifyBreaks : Text → Text
  | [] => []
  | '\r' :: '\n' :: rest => '\n' :: unifyBreaks rest
  | '\r' :: rest => '\n' :: unifyBreaks rest
  | c :: rest => c :: unifyBreaks rest

def dropMark (s : Text) : Text :=
  match s with
  | '\ufeff' :: rest => rest
  | _ => s

/-- The tokens of a text, which ends at the first null character; every token has a character. -/
def tokens (s : Text) : List Token :=
  let rest := unifyBreaks ((dropMark s).takeWhile (· != '\x00'))
  Scanner.tokensFrom (rest.length + 1) { cursor := { rest } }

end AuroraMigration.Yaml
