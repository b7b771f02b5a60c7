import AuroraMigration.Sql.Scan
import AuroraMigration.Sql.Token

/-!
# Statements as they stand between semicolons

A fragment is what stands between two semicolons outside all regions: the lines
of comment right above a statement, and the statement's body with its white
space in normal form. A piece without tokens is no fragment.
-/

namespace AuroraMigration

/-- A statement as written, before transaction markers are taken out. -/
structure Fragment where
  /-- The comment lines right above the body, each trimmed. -/
  comment : List Text
  body : Text
  deriving DecidableEq, Repr

/-- Whether a step is a line feed outside quotes. -/
def Step.isLineBreak (step : Step) : Bool :=
  step.first == '\n' && (step.cls == .code || step.cls == .comment)

/-- Whether a step is a space, tab or carriage return outside quotes. -/
def Step.isLineBlank (step : Step) : Bool :=
  (step.first == ' ' || step.first == '\t' || step.first == '\r') &&
    (step.cls == .code || step.cls == .comment)

/-- Leave out the blanks right before each line feed outside quotes. -/
def dropLineBlanks : List Step → List Step
  | [] => []
  | step :: rest =>
      let kept := dropLineBlanks rest
      if step.isLineBlank && kept.head?.any Step.isLineBreak then kept else step :: kept

/-- A body without comments at its end, blanks at line ends and white space around it. -/
def tidyBody (raw : Text) : Text :=
  Text.trim (stepsText (dropLineBlanks (scan (trimComments raw))))

/--
Part the lines of a piece into the comment right above the body and the lines
from the body on.

An empty line parts a comment from what follows, so the comment lines collected
above it are given up.
-/
def leadingComment (comment : List Text) : List Text → List Text × List Text
  | [] => (comment, [])
  | line :: rest =>
      let trimmed := Text.trim line
      if trimmed.isEmpty then leadingComment [] rest
      else if "--".toList.isPrefixOf trimmed then leadingComment (comment ++ [trimmed]) rest
      else (comment, line :: rest)

/-- The fragment that a piece between semicolons holds, if it has any token. -/
def Fragment.ofPiece? (piece : Text) : Option Fragment :=
  let (comment, bodyLines) := leadingComment [] (Text.lines piece)
  let body := tidyBody (Text.join ['\n'] bodyLines)
  if (tokenize body).isEmpty then none else some { comment, body }

def fragments (sql : Text) : List Fragment :=
  (piecesAt ';' sql).filterMap Fragment.ofPiece?

end AuroraMigration
