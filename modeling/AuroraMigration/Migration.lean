import AuroraMigration.Adaptation
import AuroraMigration.Script
import AuroraMigration.Sql.Statement

/-!
# Migrations

A migration is adapted statement by statement; what is left becomes a script.
The result also says what was done: counters, a warning when foreign keys were
removed, and the statements that are not supported. The summary has one line for
each counter that is not zero and one for each warning.
-/

namespace AuroraMigration

structure Stats where
  statements : Nat := 0
  indexes : Nat := 0
  foreignKeys : Nat := 0
  deriving DecidableEq, Repr

structure Migration where
  sql : Text := []
  stats : Stats := {}
  warnings : List Text := []
  /-- The statements that cannot run and were left out. -/
  unsupported : List Text := []
  deriving DecidableEq, Repr

def foreignKeyWarning : Text :=
  ("Foreign key constraints were removed because Aurora DSQL does not support them. " ++
    "Set relationMode = \"prisma\" in your Prisma schema and enforce referential integrity " ++
    "at the application-layer.").toList

/-- A line about a counter, unless it is zero. -/
def counterLine (count : Nat) (phrase : String) : List Text :=
  if count = 0 then [] else ["✓ ".toList ++ Text.ofNat count ++ phrase.toList]

namespace Migration

def hasUnsupported (result : Migration) : Bool :=
  !result.unsupported.isEmpty

/-- Add a warning unless it is there already. -/
def warn (result : Migration) (warning : Text) : Migration :=
  if result.warnings.contains warning then result
  else { result with warnings := result.warnings ++ [warning] }

/-- The blocks of a script: the statements that are left, each with its comment. -/
def blocks (adapted : List (Statement × Adaptation)) : List Block :=
  adapted.filterMap fun (statement, adaptation) =>
    adaptation.body.map fun body => { comment := statement.comment, body }

def total (count : Adaptation → Nat) : List (Statement × Adaptation) → Nat
  | [] => 0
  | (_, adaptation) :: rest => count adaptation + total count rest

def ofAdapted (adapted : List (Statement × Adaptation)) (options : ScriptOptions) : Migration :=
  let emitted := blocks adapted
  let foreignKeys := total Adaptation.foreignKeysRemoved adapted
  let result : Migration :=
    { sql := compose emitted options
      stats :=
        { statements := emitted.length
          indexes := total Adaptation.indexesConverted adapted
          foreignKeys }
      unsupported := adapted.flatMap (·.2.unsupported) }
  if foreignKeys = 0 then result else result.warn foreignKeyWarning

def transform (sql : Text) (options : ScriptOptions) : Migration :=
  ofAdapted ((statements sql).map fun statement => (statement, .ofBody statement.body)) options

/-- Adapt a migration, then its script, and so on, once for each of the options. -/
def transformChain (sql : Text) : List ScriptOptions → List Migration
  | [] => []
  | options :: rest =>
      let result := transform sql options
      result :: transformChain result.sql rest

def summaryLines (result : Migration) : List Text :=
  counterLine result.stats.statements " statement(s) wrapped in transactions" ++
    counterLine result.stats.indexes " index(es) converted to CREATE INDEX ASYNC" ++
    counterLine result.stats.foreignKeys " foreign key constraint(s) removed" ++
    result.warnings.map ("⚠ ".toList ++ ·)

def summary (result : Migration) : Text :=
  Text.join ['\n'] result.summaryLines

end Migration

end AuroraMigration
