import AuroraMigration.Path
import AuroraMigration.Text

/-!
# Configuration of a project

A project may set defaults for its migrations: whether scripts have a header,
whether unsupported statements are left out without asking, and the file that a
script is written to.
-/

namespace AuroraMigration

structure Config where
  version : Text := "1.0".toList
  includeHeader : Bool := true
  force : Bool := false
  /-- Directory of the script; without it the script is printed. -/
  outputDir : Option Path := none
  /-- Name of the script within that directory. -/
  outputFile : Text := "migration.sql".toList
  deriving DecidableEq, Repr

inductive ConfigError where
  | missingVersion
  | emptyOutputFile
  /-- The script's name is not the name of a file. -/
  | invalidOutputFile (name : Text)
  deriving DecidableEq, Repr

def ConfigError.message : ConfigError → Text
  | .missingVersion => "Config file version is not specified".toList
  | .emptyOutputFile => "Output file name must not be empty".toList
  | .invalidOutputFile name =>
      "Output file name must be a plain file name, got '".toList ++ name ++ ['\'']

namespace Config

/-- The first thing that is wrong with settings, if anything is. -/
def error? (config : Config) : Option ConfigError :=
  if (Text.trim config.version).isEmpty then some .missingVersion
  else if (Text.trim config.outputFile).isEmpty then some .emptyOutputFile
  else if config.outputFile.contains '/' || config.outputFile.contains '\\' then
    some (.invalidOutputFile config.outputFile)
  else none

def outputPath? (config : Config) : Option Path :=
  config.outputDir.map fun dir => Path.join dir config.outputFile

end Config

end AuroraMigration
