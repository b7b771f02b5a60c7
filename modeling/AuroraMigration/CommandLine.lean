import AuroraMigration.Path

/-!
# Command lines

What a command line can ask for, and how one can be refused. Some options may
stand before the command as well as after it; the others belong to one command.
-/

namespace AuroraMigration

inductive Format where
  | text
  | json
  deriving DecidableEq, Repr

inductive Command where
  /-- Adapt a migration, from a file or from standard input. -/
  | transform (input output : Option Path) (force noHeader : Bool)
  | check (schema : Path)
  | init (force : Bool)
  deriving DecidableEq, Repr

structure Invocation where
  config : Option Path := none
  verbose : Bool := false
  noColor : Bool := false
  format : Format := .text
  command : Command
  deriving DecidableEq, Repr

inductive UsageError where
  | displayHelp
  | displayVersion
  | nothingGiven
  | missingCommand
  | unknownCommand
  | unknownArgument
  | repeatedOption
  /-- A value is missing or cannot be used. -/
  | invalidValue
  /-- An option that takes no value was given one. -/
  | unexpectedValue
  | missingArgument
  deriving DecidableEq, Repr

/-- The exit code of a run that a usage error ends: asking for help is no failure. -/
def UsageError.exitCode : UsageError → Nat
  | .displayHelp => 0
  | .displayVersion => 0
  | _ => 2

end AuroraMigration
