import AuroraMigration.Text

/-!
# Lexical scan of SQL

A scan reads a text from left to right and cuts it into steps. It knows only the
lexical regions of SQL: quoted strings, quoted names, dollar-quoted blocks, line
comments and nested block comments, and the depth of parentheses outside them.
Every other part of the library that looks at SQL is a fold over these steps.

A step holds its own characters, so the characters of all steps in order are the
text that was scanned; offsets are sums of lengths. Texts are cut at separators
that stand in code and outside all parentheses, and freed of the comments and
the white space at their end; both look at the steps only, so a separator or a
comment mark inside quotes never counts.
-/

namespace AuroraMigration

/-- The lexical region a scan stands in between two steps. -/
inductive Mode where
  | code
  | string
  | name
  /-- Inside `$tag$…$tag$`; the tag is kept without its dollars. -/
  | dollar (tag : Text)
  /-- After `--`, up to the end of the line. -/
  | lineComment
  /-- Inside this many block comments, one within the other. -/
  | blockComment (level : Nat)
  deriving DecidableEq, Repr

/-- What the characters of a step belong to, delimiters included. -/
inductive CharClass where
  | code
  | string
  | name
  | dollar
  | comment
  deriving DecidableEq, Repr

structure ScanState where
  mode : Mode
  depth : Nat
  deriving DecidableEq, Repr

def ScanState.start : ScanState :=
  ⟨.code, 0⟩

structure Step where
  first : Char
  /-- Further characters, for delimiters of more than one character. -/
  more : Text
  cls : CharClass
  before : ScanState
  after : ScanState
  deriving DecidableEq, Repr

namespace Step

def chars (step : Step) : Text :=
  step.first :: step.more

def depth (step : Step) : Nat :=
  step.before.depth

/-- Whether the step is the code character `c` outside all parentheses. -/
def isTopLevel (c : Char) (step : Step) : Bool :=
  step.cls == .code && step.depth == 0 && step.first == c

/-- Whether the step is neither comment nor white space between words. -/
def isSignificant (step : Step) : Bool :=
  match step.cls with
  | .comment => false
  | .code => !isBlank step.first
  | _ => true

end Step

def stepsText (steps : List Step) : Text :=
  steps.flatMap Step.chars

def isTagChar (c : Char) : Bool :=
  c.isAlphanum || c == '_'

/--
The tag of a dollar quote that opens right before `rest`.

The tag runs up to the next dollar, may be empty, and does not start with a
digit, so that a positional parameter such as `$1` opens nothing.
-/
def dollarTag? (rest : Text) : Option Text :=
  let tag := rest.takeWhile (· != '$')
  if rest.length ≤ tag.length then none
  else if tag.head?.any Char.isDigit then none
  else if tag.all isTagChar then some tag
  else none

/-- What a step reads beyond its first character, what it is, and the state it leads to. -/
structure Reading where
  more : Text := []
  cls : CharClass
  after : ScanState

def readCode (depth : Nat) (c : Char) (rest : Text) : Reading :=
  match c with
  | '\'' => { cls := .string, after := ⟨.string, depth⟩ }
  | '"' => { cls := .name, after := ⟨.name, depth⟩ }
  | '-' =>
      match rest with
      | '-' :: _ => { more := ['-'], cls := .comment, after := ⟨.lineComment, depth⟩ }
      | _ => { cls := .code, after := ⟨.code, depth⟩ }
  | '/' =>
      match rest with
      | '*' :: _ => { more := ['*'], cls := .comment, after := ⟨.blockComment 1, depth⟩ }
      | _ => { cls := .code, after := ⟨.code, depth⟩ }
  | '$' =>
      match dollarTag? rest with
      | some tag => { more := tag ++ ['$'], cls := .dollar, after := ⟨.dollar tag, depth⟩ }
      | none => { cls := .code, after := ⟨.code, depth⟩ }
  | '(' => { cls := .code, after := ⟨.code, depth + 1⟩ }
  | ')' => { cls := .code, after := ⟨.code, depth - 1⟩ }
  | _ => { cls := .code, after := ⟨.code, depth⟩ }

/-- The step that reads `c` between quotes: a doubled quote stays inside, a single one closes. -/
def readQuoted (quote : Char) (inside : Mode) (cls : CharClass) (depth : Nat) (c : Char)
    (rest : Text) : Reading :=
  if c = quote then
    if rest.head? = some quote then { more := [quote], cls, after := ⟨inside, depth⟩ }
    else { cls, after := ⟨.code, depth⟩ }
  else { cls, after := ⟨inside, depth⟩ }

/-- The step that reads `c` in a dollar quote: only the whole tag closes it. -/
def readDollar (tag : Text) (depth : Nat) (c : Char) (rest : Text) : Reading :=
  if c = '$' ∧ (tag ++ ['$']).isPrefixOf rest then
    { more := tag ++ ['$'], cls := .dollar, after := ⟨.code, depth⟩ }
  else { cls := .dollar, after := ⟨.dollar tag, depth⟩ }

def readLineComment (depth : Nat) (c : Char) : Reading :=
  if c = '\n' then { cls := .comment, after := ⟨.code, depth⟩ }
  else { cls := .comment, after := ⟨.lineComment, depth⟩ }

/-- The step that reads `c` in a block comment; comments nest. -/
def readBlockComment (level depth : Nat) (c : Char) (rest : Text) : Reading :=
  if c = '/' ∧ rest.head? = some '*' then
    { more := ['*'], cls := .comment, after := ⟨.blockComment (level + 1), depth⟩ }
  else if c = '*' ∧ rest.head? = some '/' then
    { more := ['/'], cls := .comment,
      after := ⟨if level = 1 then .code else .blockComment (level - 1), depth⟩ }
  else { cls := .comment, after := ⟨.blockComment level, depth⟩ }

def read (state : ScanState) (c : Char) (rest : Text) : Reading :=
  match state.mode with
  | .code => readCode state.depth c rest
  | .string => readQuoted '\'' .string .string state.depth c rest
  | .name => readQuoted '"' .name .name state.depth c rest
  | .dollar tag => readDollar tag state.depth c rest
  | .lineComment => readLineComment state.depth c
  | .blockComment level => readBlockComment level state.depth c rest

/-- The step that a scan in `state` takes at the character `c` with `rest` ahead. -/
def stepAt (state : ScanState) (c : Char) (rest : Text) : Step :=
  let reading := read state c rest
  { first := c, more := reading.more, cls := reading.cls, before := state, after := reading.after }

/--
The steps of a scan that is in `state` once `skip` characters have been passed.

The characters to pass are those that the last step has read beyond its first
one, so the recursion is on the text itself.
-/
def scanFrom : ScanState → (skip : Nat) → Text → List Step
  | _, _, [] => []
  | state, skip + 1, _ :: rest => scanFrom state skip rest
  | state, 0, c :: rest =>
      let step := stepAt state c rest
      step :: scanFrom step.after step.more.length rest

def scan (sql : Text) : List Step :=
  scanFrom .start 0 sql

def scanEnd (sql : Text) : ScanState :=
  ((scan sql).getLast?.map Step.after).getD .start

/-- The byte ranges of consecutive steps, the first of which starts at `offset`. -/
def byteRanges (offset : Nat) : List Step → List (Nat × Nat)
  | [] => []
  | step :: rest =>
      let stop := offset + Text.byteSize step.chars
      (offset, stop) :: byteRanges stop rest

/-- The pieces between the code characters `separator` outside all parentheses. -/
def piecesAt (separator : Char) (sql : Text) : List Text :=
  ((scan sql).splitOnP (Step.isTopLevel separator)).map stepsText

/-- The trimmed pieces between commas, empty ones left out. -/
def commaParts (sql : Text) : List Text :=
  ((piecesAt ',' sql).map Text.trim).filter (!·.isEmpty)

/-- The text up to its last character that is neither comment nor white space. -/
def trimComments (sql : Text) : Text :=
  stepsText (dropTrailing (!·.isSignificant) (scan sql))

end AuroraMigration
