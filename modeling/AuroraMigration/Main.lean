import AuroraMigration.Project.Run
import Std.Time.DateTime

/-!
# The program

Reads the arguments, standard input and the files that a command looks at, lets
the plan decide, and saves and prints what the plan says.
-/

namespace AuroraMigration

def FileError.ofSystem : IO.Error → FileError
  | .noFileOrDirectory .. => .notFound
  | .alreadyExists .. => .alreadyExists
  | .inappropriateType _ 20 _ => .notDirectory
  | .inappropriateType _ 21 _ => .isDirectory
  | error => .other (toString error).toList

def readSystemFile (path : Path) : IO (Except ReadError Text) := do
  try
    let bytes ← IO.FS.readBinFile (String.ofList path)
    match decodeText? bytes with
    | some text => return .ok text
    | none => return .error (.unreadable .invalidText)
  catch error =>
    match FileError.ofSystem error with
    | .notFound => return .error (.missing .notFound)
    | .notDirectory => return .error (.missing .notDirectory)
    | cause => return .error (.unreadable cause)

def readSystemFiles : List Path → IO (List (Path × Except ReadError Text))
  | [] => return []
  | path :: rest => do
      let found ← readSystemFile path
      return (path, found) :: (← readSystemFiles rest)

/-- The absolute path that names lead to; the names are given from the last to the first. -/
def systemPath (names : List Text) : String :=
  String.ofList ('/' :: Text.join ['/'] names.reverse)

def makeSystemDirectory (path : String) : IO (Except FileError Unit) := do
  try
    IO.FS.createDir path
    return .ok ()
  catch error => return .error (.ofSystem error)

def isSystemDirectory (path : String) : IO Bool := do
  ((← IO.currentDir) / path).isDir

/-- Make a directory and those above it as needed; names are given from the last to the first. -/
def makeSystemDirectories : List Text → IO (Except FileError Unit)
  | [] => return .ok ()
  | name :: above => do
      let path := systemPath (name :: above)
      match ← makeSystemDirectory path with
      | .ok () => return .ok ()
      | .error .notFound =>
          match ← makeSystemDirectories above with
          | .error error => return .error error
          | .ok () => makeSystemDirectory path
      | .error error => if ← isSystemDirectory path then return .ok () else return .error error

def saveSystemFile (path : Path) (content : Text) : IO (Except SaveError Unit) := do
  let directory : Path := (Path.parent? path).getD ['/']
  if let .error cause ← makeSystemDirectories (Path.names directory).reverse then
    return .error (.directory directory cause)
  try
    IO.FS.writeBinFile (String.ofList path) (encodeText content)
  catch error => return .error (.file (.ofSystem error))
  return .ok ()

def carryOutSystem : Except RunError Plan → IO Outcome
  | .error error => return .of (.error error)
  | .ok (.print printed) => return .of (.ok printed)
  | .ok (.save path content failure printed) => do
      match ← saveSystemFile path content with
      | .ok () => return .of (.ok printed)
      | .error error => return .of (.error (failure error))

def isSet (name : String) : IO Bool := do
  return ((← IO.getEnv name).getD "0") != "0"

/-- Whether to use colours: when forced to, or on a terminal unless told not to. -/
def wantsColor : IO Bool := do
  if ← isSet "CLICOLOR_FORCE" then return true
  if (← IO.getEnv "NO_COLOR").isSome then return false
  if (← IO.getEnv "CLICOLOR") == some "0" then return false
  (← IO.getStdout).isTty

def presentTime : IO Instant := do
  let now ← Std.Time.Timestamp.now
  return ⟨now.toSecondsSinceUnixEpoch.val, 0⟩

def readInput (invocation : Invocation) : IO ByteArray := do
  match invocation.command with
  | .transform input _ _ _ =>
      if (input.filter (!Path.isDash ·)).isNone then (← IO.getStdin).readBinToEnd
      else return ByteArray.empty
  | _ => return ByteArray.empty

def runSystem (invocation : Invocation) : IO UInt32 := do
  let project := (← IO.currentDir).toString.toList
  let around : Surroundings :=
    { project, color := ← wantsColor, now := ← presentTime, input := ← readInput invocation }
  let found ← readSystemFiles (invocation.lookedAt project)
  let look : Lookup := fun path => (found.lookup path).getD (.error (.missing .notFound))
  let outcome ← carryOutSystem (plan around look invocation)
  IO.eprint (String.ofList outcome.stderr)
  IO.print (String.ofList outcome.stdout)
  return UInt32.ofNat outcome.exitCode

def usageText : UsageError → String
  | .displayVersion => "dsql-migrate 0.1.0"
  | _ => "Usage: dsql-migrate [OPTIONS] <transform|check|init>"

def refuse (error : UsageError) : IO UInt32 := do
  if error.exitCode = 0 then IO.println (usageText error) else IO.eprintln (usageText error)
  return UInt32.ofNat error.exitCode

end AuroraMigration

def main (words : List String) : IO UInt32 := do
  match AuroraMigration.parseArguments (words.map String.toList) with
  | .ok invocation => AuroraMigration.runSystem invocation
  | .error error => AuroraMigration.refuse error
