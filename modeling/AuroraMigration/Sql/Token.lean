import AuroraMigration.Sql.Scan
import AuroraMigration.Text.Alphanumeric

/-!
# Tokens of SQL

A token is a maximal run of steps of one kind; comments and white space separate
tokens and belong to none. A symbol is always one character. A token records the
number of characters before it, so the texts before, of and after a token are
cuts of the text it was read from.
-/

namespace AuroraMigration

inductive TokenKind where
  /-- A keyword or a name without quotes. -/
  | word
  | name
  /-- A quoted string or a dollar-quoted block. -/
  | literal
  | symbol
  deriving DecidableEq, Repr

structure Token where
  kind : TokenKind
  text : Text
  /-- Number of characters before the token. -/
  start : Nat
  deriving DecidableEq, Repr

namespace Token

/-- Number of characters up to the end of the token. -/
def stop (token : Token) : Nat :=
  token.start + token.text.length

/--
Whether the token is this keyword, which is given in capitals.

ASCII letters compare without regard to case. A quoted name is never a keyword.
-/
def isKeyword (keyword : String) (token : Token) : Bool :=
  token.kind == .word && Text.asciiUpper token.text == keyword.toList

def isIdentifier (token : Token) : Bool :=
  token.kind == .word || token.kind == .name

def isSymbol (c : Char) (token : Token) : Bool :=
  token.kind == .symbol && token.text.head? == some c

end Token

def Step.tokenKind? (step : Step) : Option TokenKind :=
  match step.cls with
  | .comment => none
  | .name => some .name
  | .string => some .literal
  | .dollar => some .literal
  | .code =>
      if isBlank step.first then none
      else if isAlphanumeric step.first || step.first == '_' || step.first == '$' then some .word
      else some .symbol

/-- Put a token in front of later ones, as one token with the next where both are one run. -/
def Token.attach (token : Token) : List Token → List Token
  | [] => [token]
  | next :: rest =>
      if token.kind = next.kind ∧ token.kind ≠ .symbol ∧ next.start = token.stop then
        { token with text := token.text ++ next.text } :: rest
      else token :: next :: rest

/-- The tokens of consecutive steps, with `offset` characters before the first step. -/
def tokensFrom (offset : Nat) : List Step → List Token
  | [] => []
  | step :: rest =>
      let later := tokensFrom (offset + step.chars.length) rest
      match step.tokenKind? with
      | none => later
      | some kind => Token.attach ⟨kind, step.chars, offset⟩ later

def tokenize (sql : Text) : List Token :=
  tokensFrom 0 (scan sql)

def Token.byteRange (sql : Text) (token : Token) : Nat × Nat :=
  (Text.byteSize (sql.take token.start), Text.byteSize (sql.take token.stop))

end AuroraMigration
