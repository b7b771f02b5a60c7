import AuroraMigration.CommandLine.Reader
import AuroraMigration.Config.File
import AuroraMigration.Json
import AuroraMigration.Migration
import AuroraMigration.Project.FileTree
import AuroraMigration.Schema.Check
import AuroraMigration.Style

/-!
# Runs of the program

A run reads what its command needs, decides what to print and whether to save a
file, and saves at most that one file. What it decides is a function of what it
reads, so a run that fails before saving leaves every file as it was.
-/

namespace AuroraMigration

def programName : Text :=
  "dsql-migrate".toList

def configFileName : Path :=
  ".dsql-migrate.yaml".toList

/-- What a run finds around it. -/
structure Surroundings where
  /-- The absolute path of the directory that the program runs in. -/
  project : Path
  color : Bool
  now : Instant
  input : ByteArray

inductive RunError where
  | fileNotFound (path : Path)
  | fileRead (path : Path) (cause : FileError)
  | inputRead (cause : FileError)
  | configRead (path : Path) (cause : FileError)
  | configParse
  | configInvalid (path : Path) (cause : ConfigError)
  | unsupported (color : Bool) (statements : List Text)
  | outputDirectory (path : Path) (cause : FileError)
  | fileWrite (path : Path) (cause : FileError)
  | configExists (path : Path)
  | configDirectory (path : Path) (cause : FileError)
  | configWrite (path : Path) (cause : FileError)
  /-- The schema has errors; the report is part of the message. -/
  | invalidSchema (report : Text) (errors : Nat)
  deriving DecidableEq, Repr

def RunError.message : RunError → Text
  | .fileNotFound path => "File not found: ".toList ++ path
  | .fileRead path cause =>
      "Failed to read file: ".toList ++ path ++ " (cause: ".toList ++ cause.message ++ [')']
  | .inputRead cause => "Failed to read SQL from stdin: ".toList ++ cause.message
  | .configRead path cause =>
      "Failed to read config file: ".toList ++ Path.quoted path ++ ": ".toList ++ cause.message
  | .configParse => "Failed to parse config file".toList
  | .configInvalid path cause =>
      "Invalid config file: ".toList ++ Path.quoted path ++ ": ".toList ++ cause.message
  | .unsupported color statements =>
      unsupportedError color statements (programName ++ " transform".toList) ++ ": ".toList ++
        Text.ofNat statements.length ++
        (" unsupported statement(s) found. " ++
          "Re-run with --force to drop them and continue").toList
  | .outputDirectory path cause =>
      "Failed to create output directory: ".toList ++ Path.quoted path ++ ": ".toList ++
        cause.message
  | .fileWrite path cause =>
      "Failed to write file: ".toList ++ path ++ " (cause: ".toList ++ cause.message ++ [')']
  | .configExists path =>
      "Config file already exists: ".toList ++ Path.quoted path ++
        ". Use --force option to overwrite it.".toList
  | .configDirectory path cause =>
      "Failed to create directory: ".toList ++ Path.quoted path ++ ": ".toList ++ cause.message
  | .configWrite path cause =>
      "Failed to write config file: ".toList ++ Path.quoted path ++ ": ".toList ++ cause.message
  | .invalidSchema report errors =>
      report ++ "\nSchema check failed with ".toList ++ Text.ofNat errors ++ " error(s)".toList

structure Printed where
  result : Text
  warning : Text := []

inductive Plan where
  | print (printed : Printed)
  /-- Save a file, then print. -/
  | save (path : Path) (content : Text) (failure : SaveError → RunError) (printed : Printed)

structure Outcome where
  exitCode : Nat
  stdout : Text
  stderr : Text
  deriving DecidableEq, Repr

/-- The end of a run: a result that is not empty ends in a line feed, and an error gives code 1. -/
def Outcome.of : Except RunError Printed → Outcome
  | .ok printed =>
      { exitCode := 0
        stdout := if printed.result.isEmpty then [] else printed.result ++ ['\n']
        stderr := printed.warning }
  | .error error =>
      { exitCode := 1, stdout := [], stderr := "Error: ".toList ++ error.message ++ ['\n'] }

/-- How texts are found at paths. -/
abbrev Lookup := Path → Except ReadError Text

def requireFile (look : Lookup) (path : Path) : Except RunError Text :=
  match look path with
  | .ok text => .ok text
  | .error (.missing _) => .error (.fileNotFound path)
  | .error (.unreadable cause) => .error (.fileRead path cause)

def configOfText (path : Path) (text : Text) : Except RunError Config :=
  match Config.read? text with
  | none => .error .configParse
  | some config =>
      match config.error? with
      | some cause => .error (.configInvalid path cause)
      | none => .ok config

/-- The path of the configuration file: the one that is asked for, or the project's own. -/
def configPath (project : Path) (config : Option Path) : Path :=
  Path.join project (config.getD configFileName)

/-- The settings of a run; the project's own configuration file may be missing. -/
def loadConfig (look : Lookup) (project : Path) (config : Option Path) : Except RunError Config :=
  let path := configPath project config
  match look path with
  | .ok text => configOfText path text
  | .error (.missing cause) => if config.isNone then .ok {} else .error (.configRead path cause)
  | .error (.unreadable cause) => .error (.configRead path cause)

def readMigration (around : Surroundings) (look : Lookup) (input : Option Path) :
    Except RunError Text :=
  match input.filter (!Path.isDash ·) with
  | some path => requireFile look (Path.join around.project path)
  | none =>
      match decodeText? around.input with
      | some text => .ok text
      | none => .error (.inputRead .invalidText)

namespace Migration

def members (result : Migration) : List (Text × JsonValue) :=
  [("sql".toList, .string result.sql),
    ("stats".toList,
      .object [("statements_processed".toList, .number result.stats.statements),
        ("indexes_converted".toList, .number result.stats.indexes),
        ("foreign_keys_removed".toList, .number result.stats.foreignKeys)]),
    ("warnings".toList, .strings result.warnings),
    ("unsupported_statements".toList, .strings result.unsupported)]

def report (result : Migration) (format : Format) (output : Option Path) (warning : Text) : Text :=
  match format, output with
  | .text, none => Text.trimEnd result.sql
  | .text, some path =>
      Text.join ['\n']
        ((if result.hasUnsupported then [Text.trimEnd warning] else []) ++ result.summaryLines ++
          ["Transformed migration written to ".toList ++ path])
  | .json, none => (JsonValue.object result.members).render
  | .json, some path =>
      (JsonValue.object (result.members ++ [("output_path".toList, .string path)])).render

end Migration

def RunError.ofScript (path : Path) : SaveError → RunError
  | .directory parent cause => .outputDirectory parent cause
  | .file cause => .fileWrite path cause

def RunError.ofConfig (path : Path) : SaveError → RunError
  | .directory parent cause => .configDirectory parent cause
  | .file cause => .configWrite path cause

def scriptOptions (config : Config) (force noHeader : Bool) (now : Instant) : ScriptOptions :=
  { header := config.includeHeader && !noHeader
    force := config.force || force
    generatedAt := some now }

/-- The path of the script: the one that is asked for, or the one in the settings. -/
def scriptPath? (project : Path) (config : Config) (output : Option Path) : Option Path :=
  (output.or config.outputPath?).map (Path.join project)

def planScript (result : Migration) (options : ScriptOptions) (color : Bool) (format : Format)
    (output : Option Path) : Except RunError Plan :=
  if result.hasUnsupported && !options.force then
    .error (.unsupported color result.unsupported)
  else
    let warning := if result.hasUnsupported then unsupportedWarning color result.unsupported else []
    let text := result.report format output warning
    match output with
    | some path => .ok (.save path result.sql (.ofScript path) { result := text })
    | none => .ok (.print { result := text, warning })

def planTransform (around : Surroundings) (look : Lookup) (invocation : Invocation)
    (input output : Option Path) (force noHeader : Bool) : Except RunError Plan := do
  let sql ← readMigration around look input
  let config ← loadConfig look around.project invocation.config
  let options := scriptOptions config force noHeader around.now
  planScript (Migration.transform sql options) options (around.color && !invocation.noColor)
    invocation.format (scriptPath? around.project config output)

namespace SchemaReport

def renderText (report : SchemaReport) (file : Path) (color : Bool) : Text :=
  let mark :=
    if report.valid then Style.green.apply color "✓".toList else Style.red.apply color "✗".toList
  let summary :=
    mark ++ [' '] ++ file ++ ": ".toList ++ Text.ofNat (report.count .error) ++
      " error(s), ".toList ++ Text.ofNat (report.count .warning) ++ " warning(s)".toList
  let line := fun (issue : Issue) =>
    let style := match issue.severity with
      | .error => Style.red
      | .warning => Style.yellow
    "  ".toList ++ style.apply color issue.render
  Text.join ['\n'] (summary :: report.issues.map line)

def issueValue (issue : Issue) : JsonValue :=
  .object
    ([("type".toList, .string issue.severity.label), ("message".toList, .string issue.message)] ++
      match issue.line with
      | some line => [("line".toList, .number line)]
      | none => [])

def render (report : SchemaReport) (file : Path) (color : Bool) (format : Format) : Text :=
  match format with
  | .text => report.renderText file color
  | .json =>
      (JsonValue.object
        [("file".toList, .string file), ("valid".toList, .bool report.valid),
          ("issues".toList, .array (report.issues.map issueValue))]).render

end SchemaReport

def planCheck (around : Surroundings) (look : Lookup) (invocation : Invocation) (schema : Path) :
    Except RunError Plan := do
  let text ← requireFile look (Path.join around.project schema)
  let report := checkSchema text
  let rendered :=
    report.render schema (around.color && !invocation.noColor) invocation.format
  if report.valid then .ok (.print { result := rendered })
  else .error (.invalidSchema rendered (report.count .error))

def planInit (around : Surroundings) (look : Lookup) (invocation : Invocation) (force : Bool) :
    Except RunError Plan :=
  let path := configPath around.project invocation.config
  let free := match look path with
    | .error (.missing _) => true
    | _ => false
  if free || force then
    .ok (.save path (Config.write {}) (.ofConfig path)
      { result := "Created config file: ".toList ++ path })
  else .error (.configExists path)

def plan (around : Surroundings) (look : Lookup) (invocation : Invocation) :
    Except RunError Plan :=
  match invocation.command with
  | .transform input output force noHeader =>
      planTransform around look invocation input output force noHeader
  | .check schema => planCheck around look invocation schema
  | .init force => planInit around look invocation force

def Invocation.lookedAt (invocation : Invocation) (project : Path) : List Path :=
  match invocation.command with
  | .transform input _ _ _ =>
      (input.toList.map (Path.join project ·)) ++ [configPath project invocation.config]
  | .check schema => [Path.join project schema]
  | .init _ => [configPath project invocation.config]

def carryOut (tree : FileTree) : Except RunError Plan → FileTree × Outcome
  | .error error => (tree, .of (.error error))
  | .ok (.print printed) => (tree, .of (.ok printed))
  | .ok (.save path content failure printed) =>
      match tree.save path (encodeText content) with
      | (saved, .ok ()) => (saved, .of (.ok printed))
      | (saved, .error error) => (saved, .of (.error (failure error)))

def run (tree : FileTree) (around : Surroundings) (words : List Text) :
    FileTree × Except UsageError Outcome :=
  match parseArguments words with
  | .error error => (tree, .error error)
  | .ok invocation =>
      let (after, outcome) := carryOut tree (plan around tree.readText invocation)
      (after, .ok outcome)

end AuroraMigration
