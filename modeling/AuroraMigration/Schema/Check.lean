import AuroraMigration.Schema.Pattern
import AuroraMigration.Schema.Report

/-!
# Checking a schema

A Prisma schema is checked line by line against a table of rules. One rule looks
at the whole schema: relations need the relation mode that does without foreign
keys.
-/

namespace AuroraMigration

structure LineRule where
  pattern : Pattern
  severity : Severity
  message : Text

def lineRules : List LineRule :=
  [{ pattern := .all [.word "autoincrement(", .blanks, .char ')']
     severity := .error
     message :=
      ("autoincrement() is not supported because Aurora DSQL has no sequences. " ++
        "Use @default(uuid()) or @default(cuid()) instead").toList },
    { pattern :=
        .all [.lineStart, .blanks, .word "extensions", .blanks, .char '=', .blanks, .char '[']
      severity := .error
      message := "PostgreSQL extensions are not supported by Aurora DSQL".toList },
    { pattern :=
        .all [.lineStart, .blanks, .one .word, .many .word, .one .blank, .blanks, .word "Json",
          .either .empty (.char '?'), .either (.one .blank) .lineEnd]
      severity := .warning
      message :=
        "Json columns are not supported by Aurora DSQL and will be stored as text".toList },
    { pattern :=
        .all [.wordEdge, .word "on", .either (.word "Delete") (.word "Update"), .blanks, .char ':']
      severity := .warning
      message :=
        ("Referential actions are not enforced by Aurora DSQL " ++
          "and must be emulated by the application").toList },
    { pattern := .all [.word "@@fulltext", .wordEdge]
      severity := .warning
      message := "Full-text indexes are not supported by Aurora DSQL".toList }]

def relationPattern : Pattern :=
  .word "@relation("

/-- The line that chooses the relation mode without foreign keys. -/
def relationModePattern : Pattern :=
  .all [.word "relationMode", .blanks, .char '=', .blanks, .word "\"prisma\""]

def relationModeMessage : Text :=
  ("Relations require relationMode = \"prisma\" in the datasource block " ++
    "because Aurora DSQL does not support foreign key constraints").toList

def isCommentLine (line : Text) : Bool :=
  "//".toList.isPrefixOf (Text.trimStart line)

/-- The lines of a schema that are not comments, with their numbers from 1 on. -/
def schemaLines (schema : Text) : List (Text × Nat) :=
  ((Text.lines schema).zipIdx 1).filter fun (line, _) => !isCommentLine line

def lineIssues (line : Text) (number : Nat) : List Issue :=
  (lineRules.filter (·.pattern.occursIn line)).map fun rule =>
    { severity := rule.severity, message := rule.message, line := some number }

/-- The issue with relations, reported at the first of them. -/
def relationIssues (lines : List (Text × Nat)) : List Issue :=
  match lines.find? fun (line, _) => relationPattern.occursIn line with
  | none => []
  | some (_, number) =>
      if lines.any fun (line, _) => relationModePattern.occursIn line then []
      else [{ severity := .error, message := relationModeMessage, line := some number }]

def checkSchema (schema : Text) : SchemaReport :=
  let lines := schemaLines schema
  .ofIssues (lines.flatMap (fun (line, number) => lineIssues line number) ++ relationIssues lines)

end AuroraMigration
