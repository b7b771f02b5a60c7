import AuroraMigration.Config
import AuroraMigration.Yaml.Document
import AuroraMigration.Yaml.Merge
import AuroraMigration.Yaml.Writer

/-!
# Configuration files

Settings are kept as a YAML mapping with one entry for each field. Only the
version has to be there; a field that is missing has its default, and a key that
names no field is passed over.
-/

namespace AuroraMigration.Config

def fieldNames : List Text :=
  ["version", "include_header", "force", "output_dir", "output_file"].map String.toList

def field? (entries : List (Text × Yaml)) (key : String) : Option Yaml :=
  entries.lookup key.toList

def boolField? (entries : List (Text × Yaml)) (key : String) (default : Bool) : Option Bool :=
  match field? entries key with
  | some node => node.bool?
  | none => some default

def textField? (entries : List (Text × Yaml)) (key : String) (default : Text) : Option Text :=
  match field? entries key with
  | some node => node.text?
  | none => some default

/-- A field with a text that can be null or missing. -/
def optionalField? (entries : List (Text × Yaml)) (key : String) : Option (Option Text) :=
  match field? entries key with
  | some node => if node.isMissing then some none else node.text?.map some
  | none => some none

def ofFields? (fields : List (Text × Yaml)) : Option Config := do
  let version ← (← field? fields "version").text?
  let includeHeader ← boolField? fields "include_header" true
  let force ← boolField? fields "force" false
  let outputDir ← optionalField? fields "output_dir"
  let outputFile ← textField? fields "output_file" "migration.sql".toList
  some { version, includeHeader, force, outputDir, outputFile }

/--
The fields among the entries of a mapping.

Every key is a text, no field is given twice, and what is passed over is sound.
-/
def fieldsOf? (entries : List Yaml.Entry) : Option (List (Text × Yaml)) := do
  let named ← entries.mapM fun entry => entry.key.text?.map (·, entry)
  let (fields, others) := named.partition fun (name, _) => fieldNames.contains name
  if (fields.map (·.1)).Nodup ∧ others.all (·.2.sound) then
    some (fields.map fun (name, entry) => (name, entry.value))
  else none

def read? (text : Text) : Option Config := do
  let root ← Yaml.read? text
  let entries ← root.entries?
  let fields ← fieldsOf? entries
  ofFields? fields

/-- One entry of a mapping on a line of its own. -/
def entryLine (key : String) (value : Text) : Text :=
  key.toList ++ ": ".toList ++ value ++ ['\n']

/-- The keys of the settings and their values, of which `scalar` writes those that are texts. -/
def writtenEntries (scalar : Text → Text) (config : Config) : List (String × Text) :=
  [("version", scalar config.version), ("include_header", Yaml.writeBool config.includeHeader),
      ("force", Yaml.writeBool config.force)] ++
    (config.outputDir.map fun dir => ("output_dir", scalar dir)).toList ++
    [("output_file", scalar config.outputFile)]

/-- Write settings with `scalar` for the texts; a directory that is not set is left out. -/
def writeWith (scalar : Text → Text) (config : Config) : Text :=
  (config.writtenEntries scalar).flatMap fun (key, value) => entryLine key value

def write (config : Config) : Text :=
  config.writeWith Yaml.writeText

end AuroraMigration.Config
