import AuroraMigration.Path

/-!
# Directories and files

A tree of directories and files, addressed by the names on the way from the root
to them. Paths are followed segment by segment, so that two dots go up from the
directory that has been reached and every name but the last must be that of a
directory. A write stores a whole file or leaves the tree as it is.
-/

namespace AuroraMigration

inductive FileError where
  | notFound
  | alreadyExists
  | notDirectory
  | isDirectory
  /-- The bytes are no text. -/
  | invalidText
  | other (message : Text)
  deriving DecidableEq, Repr

def FileError.message : FileError → Text
  | .notFound => "No such file or directory (os error 2)".toList
  | .alreadyExists => "File exists (os error 17)".toList
  | .notDirectory => "Not a directory (os error 20)".toList
  | .isDirectory => "Is a directory (os error 21)".toList
  | .invalidText => "stream did not contain valid UTF-8".toList
  | .other message => message

inductive ReadError where
  | missing (cause : FileError)
  /-- There is something that cannot be read as text. -/
  | unreadable (cause : FileError)
  deriving DecidableEq, Repr

def ReadError.cause : ReadError → FileError
  | .missing cause => cause
  | .unreadable cause => cause

inductive SaveError where
  | directory (path : Path) (cause : FileError)
  | file (cause : FileError)
  deriving DecidableEq, Repr

def decodeText? (bytes : ByteArray) : Option Text :=
  (String.fromUTF8? bytes).map String.toList

def encodeText (text : Text) : ByteArray :=
  (String.ofList text).toUTF8

/-- The names on the way from the root. -/
abbrev Location := List Text

inductive Entry where
  | directory
  | file (content : ByteArray)

structure FileTree where
  directories : List Location := []
  files : List (Location × ByteArray) := []
  /-- The locations where the system stores no file, and the reason that it gives. -/
  refusals : List (Location × FileError) := []

namespace FileTree

/-- What is at a location; the root is a directory. -/
def entry? (tree : FileTree) (location : Location) : Option Entry :=
  match tree.files.lookup location with
  | some content => some (.file content)
  | none =>
      if location.isEmpty || tree.directories.contains location then some .directory else none

/-- Follow names from a location; each but the last result must be a directory. -/
def walk (tree : FileTree) (location : Location) : List Text → Except FileError Location
  | [] => .ok location
  | name :: rest =>
      match tree.entry? location with
      | none => .error .notFound
      | some (.file _) => .error .notDirectory
      | some .directory =>
          tree.walk (if name = "..".toList then location.dropLast else location ++ [name]) rest

def find (tree : FileTree) (path : Path) : Except FileError Entry :=
  match tree.walk [] (Path.names path) with
  | .error error => .error error
  | .ok location =>
      match tree.entry? location with
      | none => .error .notFound
      | some .directory => .ok .directory
      | some (.file content) =>
          if Path.asksDirectory path then .error .notDirectory else .ok (.file content)

def readText (tree : FileTree) (path : Path) : Except ReadError Text :=
  match tree.find path with
  | .error cause => .error (.missing cause)
  | .ok .directory => .error (.unreadable .isDirectory)
  | .ok (.file content) =>
      match decodeText? content with
      | some text => .ok text
      | none => .error (.unreadable .invalidText)

/-- Make the directory `name` in the directory that `above` leads to. -/
def makeDirectory (tree : FileTree) (above : List Text) (name : Text) :
    Except FileError FileTree :=
  match tree.walk [] (above ++ [name]) with
  | .error error => .error error
  | .ok location =>
      match tree.entry? location with
      | some _ => .error .alreadyExists
      | none => .ok { tree with directories := tree.directories ++ [location] }

def isDirectory (tree : FileTree) (names : List Text) : Bool :=
  match tree.walk [] names with
  | .error _ => false
  | .ok location =>
      match tree.entry? location with
      | some .directory => true
      | _ => false

/-- Make a directory and those above it as needed; names are given from the last to the first. -/
def makeDirectories (tree : FileTree) : List Text → Except FileError FileTree
  | [] => .ok tree
  | name :: above =>
      match tree.makeDirectory above.reverse name with
      | .ok made => .ok made
      | .error .alreadyExists =>
          if tree.isDirectory (name :: above).reverse then .ok tree else .error .alreadyExists
      | .error .notFound =>
          match tree.makeDirectories above with
          | .error error => .error error
          | .ok made =>
              match made.makeDirectory above.reverse name with
              | .ok last => .ok last
              | .error error =>
                  if made.isDirectory (name :: above).reverse then .ok made else .error error
      | .error error => .error error

def put (tree : FileTree) (location : Location) (content : ByteArray) : FileTree :=
  { tree with files := (location, content) :: tree.files.filter (·.1 != location) }

/-- Write a file whose directory exists. -/
def write (tree : FileTree) (path : Path) (content : ByteArray) : Except FileError FileTree :=
  match tree.walk [] (Path.names path) with
  | .error error => .error error
  | .ok location =>
      match tree.entry? location with
      | some .directory => .error .isDirectory
      | _ =>
          if Path.asksDirectory path then .error .isDirectory
          else
            match tree.refusals.lookup location with
            | some cause => .error cause
            | none => .ok (tree.put location content)

/-- Write a file after making its directory. -/
def save (tree : FileTree) (path : Path) (content : ByteArray) :
    FileTree × Except SaveError Unit :=
  match Path.parent? path with
  | none =>
      match tree.write path content with
      | .error cause => (tree, .error (.file cause))
      | .ok written => (written, .ok ())
  | some parent =>
      match tree.makeDirectories (Path.names parent).reverse with
      | .error cause => (tree, .error (.directory parent cause))
      | .ok made =>
          match made.write path content with
          | .error cause => (made, .error (.file cause))
          | .ok written => (written, .ok ())

end FileTree

end AuroraMigration
