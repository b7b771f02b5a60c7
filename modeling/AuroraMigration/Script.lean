import AuroraMigration.Instant
import AuroraMigration.Sql.Scan

/-!
# Migration scripts

A script runs each of its statements in a transaction of its own. It is written
as blocks with an empty line between them: a header if wanted, then for each
statement its comment, `BEGIN;`, the statement and `COMMIT;`.
-/

namespace AuroraMigration

structure ScriptOptions where
  header : Bool := true
  force : Bool := false
  generatedAt : Option Instant := none
  deriving DecidableEq, Repr

structure Block where
  comment : List Text
  body : Text
  deriving DecidableEq, Repr

def headerText (generatedAt : Option Instant) : Text :=
  Text.join ['\n']
    (["-- Transformed for Aurora DSQL".toList] ++
      (match generatedAt with
        | some instant => ["-- Generated at: ".toList ++ instant.render]
        | none => []) ++
      ["-- Each statement runs in its own transaction; indexes are built asynchronously.".toList])

/--
A body with its semicolon.

After a line comment the semicolon goes on a line of its own, where the comment
does not swallow it. A body that ends in a semicolon keeps that one.
-/
def terminate (body : Text) : Text :=
  let trimmed := Text.trimEnd body
  let tail := trimmed.drop (trimComments trimmed).length
  if Text.hasPart "--".toList tail then trimmed ++ "\n;".toList
  else if trimmed.getLast? = some ';' then trimmed
  else trimmed ++ [';']

def Block.render (block : Block) : Text :=
  block.comment.flatMap (· ++ ['\n']) ++ "BEGIN;\n".toList ++ terminate block.body ++
    "\nCOMMIT;".toList

/-- The script of a list of blocks; a script with any text ends in exactly one line feed. -/
def compose (blocks : List Block) (options : ScriptOptions) : Text :=
  let header := if options.header && !blocks.isEmpty then [headerText options.generatedAt] else []
  let trimmed := Text.trimEnd (Text.join "\n\n".toList (header ++ blocks.map Block.render))
  if trimmed.isEmpty then [] else trimmed ++ ['\n']

end AuroraMigration
