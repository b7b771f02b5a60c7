import AuroraMigration.Sql.StatementKind

/-!
# Adapting one statement

Aurora DSQL builds indexes asynchronously, has no foreign keys and cannot drop
constraints. A `CREATE INDEX` therefore gains the word `ASYNC`, and an
`ALTER TABLE` loses the clauses that cannot run. What an adaptation removes is
counted or listed, so that nothing disappears unseen.
-/

namespace AuroraMigration

structure Adaptation where
  /-- The statement to run, if anything is left of it. -/
  body : Option Text
  indexesConverted : Nat := 0
  foreignKeysRemoved : Nat := 0
  /-- The statements that cannot run and were taken out. -/
  unsupported : List Text := []
  deriving DecidableEq, Repr

/--
Make an index be built asynchronously.

`ASYNC` follows the first `INDEX`, in place of `CONCURRENTLY` if that stands
there. There is nothing to do when it stands there already.
-/
def asyncIndex? (body : Text) : Option Text :=
  match (tokenize body).dropWhile (!Token.isKeyword "INDEX" ·) with
  | [] => none
  | index :: rest =>
      if startsWith ["ASYNC"] rest then none
      else
        match rest with
        | next :: _ =>
            if next.isKeyword "CONCURRENTLY" then
              some (body.take next.start ++ "ASYNC".toList ++ body.drop next.stop)
            else some (body.take index.stop ++ " ASYNC".toList ++ body.drop index.stop)
        | [] => some (body.take index.stop ++ " ASYNC".toList ++ body.drop index.stop)

namespace AlterTable

def droppedNames (alter : AlterTable) : List Text :=
  alter.clauses.filterMap fun clause =>
    match clause.kind with
    | .dropConstraint name => some name.normal
    | _ => none

/--
Whether a clause can run.

A constraint can be neither dropped nor, once it would have to be dropped first,
added again; a foreign key can never be added.
-/
def survives (alter : AlterTable) (clause : Clause) : Bool :=
  match clause.kind with
  | .dropConstraint _ => false
  | .addForeignKey _ => false
  | .addConstraint name => !alter.droppedNames.contains name.normal
  | .addColumn => true
  | .other => true

def survivors (alter : AlterTable) : List Clause :=
  alter.clauses.filter alter.survives

/-- The dropped constraints, each as a statement of its own. -/
def unsupported (alter : AlterTable) : List Text :=
  alter.clauses.filterMap fun clause =>
    match clause.kind with
    | .dropConstraint _ => some (Text.trim alter.head ++ [' '] ++ trimComments clause.text)
    | _ => none

def foreignKeyNames (alter : AlterTable) : List Text :=
  alter.clauses.filterMap fun clause =>
    match clause.kind with
    | .dropConstraint name => if name.looksLikeForeignKey then some name.normal else none
    | .addForeignKey (some name) => some name.normal
    | _ => none

def unnamedForeignKeys (alter : AlterTable) : Nat :=
  alter.clauses.countP (·.kind == .addForeignKey none)

/-- Number of foreign keys taken out; a name counts once. -/
def foreignKeysRemoved (alter : AlterTable) : Nat :=
  alter.foreignKeyNames.eraseDups.length + alter.unnamedForeignKeys

/--
The body that is left of a statement `body`.

It is the body itself if all clauses can run. Otherwise the surviving clauses
stand on lines of their own, without their trailing comments, so that no comma
ends up in a comment.
-/
def remaining? (alter : AlterTable) (body : Text) : Option Text :=
  let kept := alter.survivors
  if kept.isEmpty then none
  else if kept.length = alter.clauses.length then some body
  else
    some (Text.trimEnd alter.head ++ [' '] ++
      Text.join ",\n".toList (kept.map fun clause => trimComments clause.text))

end AlterTable

def Adaptation.ofBody (body : Text) : Adaptation :=
  match StatementKind.ofBody body with
  | .createIndex _ false =>
      match asyncIndex? body with
      | some converted => { body := some converted, indexesConverted := 1 }
      | none => { body := some body }
  | .alterTable alter =>
      { body := alter.remaining? body
        foreignKeysRemoved := alter.foreignKeysRemoved
        unsupported := alter.unsupported }
  | _ => { body := some body }

end AuroraMigration
