import AuroraMigration.Sql.ConstraintName
import AuroraMigration.Sql.Scan
import AuroraMigration.Sql.Token

/-!
# ALTER TABLE

An `ALTER TABLE` statement is the text up to the end of the table's name and the
clauses after it, which commas outside all parentheses part. A clause is known
by its first tokens.
-/

namespace AuroraMigration

inductive ClauseKind where
  | dropConstraint (name : ConstraintName)
  /-- A foreign key is added, with or without a name. -/
  | addForeignKey (name : Option ConstraintName)
  /-- Another named constraint is added. -/
  | addConstraint (name : ConstraintName)
  | addColumn
  | other
  deriving DecidableEq, Repr

structure Clause where
  text : Text
  kind : ClauseKind
  deriving DecidableEq, Repr

structure AlterTable where
  /-- The table's name as written, with its schema. -/
  table : Text
  /-- The statement up to the end of the table's name. -/
  head : Text
  clauses : List Clause
  deriving DecidableEq, Repr

def startsWith : List String → List Token → Bool
  | [], _ => true
  | _ :: _, [] => false
  | keyword :: keywords, token :: tokens =>
      token.isKeyword keyword && startsWith keywords tokens

def mentionsForeignKey : List Token → Bool
  | [] => false
  | token :: rest => startsWith ["FOREIGN", "KEY"] (token :: rest) || mentionsForeignKey rest

def leadingName? : List Token → Option ConstraintName
  | [] => none
  | token :: _ => if token.isIdentifier then some (.ofSpelling token.text) else none

def skipIfExists (tokens : List Token) : List Token :=
  if startsWith ["IF", "EXISTS"] tokens then tokens.drop 2 else tokens

def ClauseKind.ofAdded (tokens : List Token) : ClauseKind :=
  if startsWith ["CONSTRAINT"] tokens then
    match leadingName? (tokens.drop 1) with
    | none => .other
    | some name =>
        if mentionsForeignKey (tokens.drop 2) then .addForeignKey (some name)
        else .addConstraint name
  else if startsWith ["FOREIGN", "KEY"] tokens then .addForeignKey none
  else if ["PRIMARY", "UNIQUE", "CHECK", "EXCLUDE"].any (startsWith [·] tokens) then .other
  else if (leadingName? tokens).isSome then .addColumn
  else .other

def ClauseKind.ofTokens (tokens : List Token) : ClauseKind :=
  if startsWith ["DROP", "CONSTRAINT"] tokens then
    match leadingName? (skipIfExists (tokens.drop 2)) with
    | some name => .dropConstraint name
    | none => .other
  else if startsWith ["ADD"] tokens then .ofAdded (tokens.drop 1)
  else .other

def Clause.ofText (text : Text) : Clause :=
  { text, kind := .ofTokens (tokenize text) }

/-- The end of a qualified name of which a part ends at `stop` and `tokens` follow. -/
def qualifiedStop (stop : Nat) : List Token → Nat
  | dot :: part :: rest =>
      if dot.isSymbol '.' && part.isIdentifier then qualifiedStop part.stop rest else stop
  | _ => stop

/-- Start and end of the name, qualified or not, that the tokens start with. -/
def qualifiedName? : List Token → Option (Nat × Nat)
  | [] => none
  | first :: rest =>
      if first.isIdentifier then some (first.start, qualifiedStop first.stop rest) else none

def skipOnly (tokens : List Token) : List Token :=
  if startsWith ["ONLY"] tokens then tokens.drop 1 else tokens

/--
Read a body whose tokens after `ALTER TABLE` are `tokens`.

There is no such statement without a table's name or without any clause.
-/
def AlterTable.ofTokens? (body : Text) (tokens : List Token) : Option AlterTable :=
  match qualifiedName? (skipOnly (skipIfExists tokens)) with
  | none => none
  | some (start, stop) =>
      let clauses := (commaParts (body.drop stop)).map Clause.ofText
      if clauses.isEmpty then none
      else some { table := (body.take stop).drop start, head := body.take stop, clauses }

end AuroraMigration
