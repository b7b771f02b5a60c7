import AuroraMigration.Text

/-!
# Reports on schemas

A report lists the issues of a schema by line and says whether the schema is
valid, which it is without errors; warnings do not count.
-/

namespace AuroraMigration

inductive Severity where
  | error
  | warning
  deriving DecidableEq, Repr

def Severity.label : Severity → Text
  | .error => "error".toList
  | .warning => "warning".toList

/-- An issue of a schema, with the number of its line if it has one. -/
structure Issue where
  severity : Severity
  message : Text
  line : Option Nat
  deriving DecidableEq, Repr

def Issue.render (issue : Issue) : Text :=
  match issue.line with
  | some line =>
      issue.severity.label ++ " (line ".toList ++ Text.ofNat line ++ "): ".toList ++ issue.message
  | none => issue.severity.label ++ ": ".toList ++ issue.message

structure SchemaReport where
  valid : Bool
  issues : List Issue
  deriving DecidableEq, Repr

namespace SchemaReport

/-- The report on a list of issues: by line, in the given order within one, without line first. -/
def ofIssues (issues : List Issue) : SchemaReport :=
  { valid := issues.all (·.severity != .error)
    issues := issues.mergeSort fun a b => a.line.getD 0 ≤ b.line.getD 0 }

def count (report : SchemaReport) (severity : Severity) : Nat :=
  report.issues.countP (·.severity == severity)

end SchemaReport

end AuroraMigration
