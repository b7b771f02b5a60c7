import AuroraMigration.CommandLine

/-!
# Reading command lines

A command line is read word by word at two levels: the program's own options up
to the command's name, and the command's options after it. An option stands once
at each level. A value in a word of its own is taken as it comes and looked at
only when the next option or the end of the level settles it, so an unknown word
right after a wrong value is the error that is reported.
-/

namespace AuroraMigration

inductive CommandName where
  | transform
  | check
  | init
  deriving DecidableEq, Repr

def CommandName.ofText? (word : Text) : Option CommandName :=
  [("transform".toList, .transform), ("check".toList, .check), ("init".toList, .init)].lookup word

def namesCommand (word : Text) : Bool :=
  (CommandName.ofText? word).isSome || word == "help".toList

inductive Setting where
  | config
  | verbose
  | noColor
  | format
  | output
  | force
  | noHeader
  /-- The word that is no option. -/
  | operand
  | help
  | version
  deriving DecidableEq, Repr

namespace Setting

def long? : Setting → Option Text
  | .config => some "config".toList
  | .verbose => some "verbose".toList
  | .noColor => some "no-color".toList
  | .format => some "format".toList
  | .output => some "output".toList
  | .force => some "force".toList
  | .noHeader => some "no-header".toList
  | .operand => none
  | .help => some "help".toList
  | .version => some "version".toList

def short? : Setting → Option Char
  | .config => some 'c'
  | .verbose => some 'v'
  | .output => some 'o'
  | .force => some 'f'
  | .help => some 'h'
  | .version => some 'V'
  | _ => none

def takesValue : Setting → Bool
  | .config => true
  | .format => true
  | .output => true
  | .operand => true
  | _ => false

end Setting

def Format.ofText? (value : Text) : Option Format :=
  [("text".toList, .text), ("json".toList, .json)].lookup value

/-- Whether a setting can have this value: paths are not empty, and formats have names. -/
def Setting.accepts (setting : Setting) (value : Text) : Bool :=
  match setting with
  | .format => (Format.ofText? value).isSome
  | .config => !value.isEmpty
  | .output => !value.isEmpty
  | .operand => !value.isEmpty
  | _ => true

structure Level where
  options : List Setting
  /-- Whether a word that is no option may stand there. -/
  operand : Bool
  /-- Whether commands are named there. -/
  commands : Bool

/-- The options that can stand before and after a command's name. -/
def sharedOptions : List Setting :=
  [.config, .verbose, .noColor, .format, .help, .version]

def Level.program : Level :=
  { options := sharedOptions, operand := false, commands := true }

def CommandName.level : CommandName → Level
  | .transform =>
      { options := sharedOptions ++ [.output, .force, .noHeader], operand := true,
        commands := false }
  | .check => { options := sharedOptions, operand := true, commands := false }
  | .init => { options := sharedOptions ++ [.force], operand := false, commands := false }

structure Reader where
  given : List (Setting × Text) := []
  /-- A setting that is not settled yet, with its value once that is read. -/
  pending : Option (Setting × Option Text) := none
  deriving DecidableEq, Repr

namespace Reader

/-- Settle a setting: it must not be given before, and its value must be usable. -/
def give (reader : Reader) (setting : Setting) (value : Text) : Except UsageError Reader :=
  if reader.given.any (·.1 == setting) then .error .repeatedOption
  else if !setting.accepts value then .error .invalidValue
  else .ok { given := reader.given ++ [(setting, value)] }

def settle (reader : Reader) : Except UsageError Reader :=
  match reader.pending with
  | none => .ok reader
  | some (_, none) => .error .invalidValue
  | some (setting, some value) => reader.give setting value

def isWaiting (reader : Reader) : Bool :=
  match reader.pending with
  | some (_, none) => true
  | _ => false

def hasOperand (reader : Reader) : Bool :=
  reader.given.any (·.1 == .operand) || reader.pending.any (·.1 == .operand)

def readFlag (reader : Reader) (setting : Setting) : Except UsageError Reader := do
  let reader ← reader.settle
  match setting with
  | .help => .error .displayHelp
  | .version => .error .displayVersion
  | _ => reader.give setting []

/-- Read an option with the value in the same word, or wait for it. -/
def readValued (reader : Reader) (setting : Setting) (value : Option Text) :
    Except UsageError Reader := do
  let reader ← reader.settle
  match value with
  | some value => reader.give setting value
  | none => .ok { reader with pending := some (setting, none) }

/-- Read `--name` or `--name=value`, without the dashes. -/
def readLong (level : Level) (reader : Reader) (word : Text) : Except UsageError Reader :=
  let name := word.takeWhile (· != '=')
  let value := match word.drop name.length with
    | [] => none
    | _ :: value => some value
  match level.options.find? (·.long? == some name) with
  | none => .error .unknownArgument
  | some setting =>
      if setting.takesValue then reader.readValued setting value
      else if value.isSome then .error .unexpectedValue
      else reader.readFlag setting

/-- Read letters after one dash; the rest of the word is the value of one that takes a value. -/
def readShort (level : Level) (reader : Reader) : Text → Except UsageError Reader
  | [] => .ok reader
  | letter :: rest =>
      match level.options.find? (·.short? == some letter) with
      | none => .error .unknownArgument
      | some setting =>
          if setting.takesValue then
            reader.readValued setting
              (match rest with
                | [] => none
                | '=' :: value => some value
                | value => some value)
          else
            match reader.readFlag setting with
            | .error error => .error error
            | .ok reader => readShort level reader rest

/--
Read a word that is neither option nor value.

Where commands are named, it can only be meant as one; but after `--` a word that
does name one is no command any more.
-/
def readOperand (level : Level) (afterDashes : Bool) (reader : Reader) (word : Text) :
    Except UsageError Reader :=
  if level.operand && !reader.hasOperand then do
    let reader ← reader.settle
    .ok { reader with pending := some (.operand, some word) }
  else if level.commands && !(afterDashes && namesCommand word) then .error .unknownCommand
  else .error .unknownArgument

def readWord (level : Level) (reader : Reader) (word : Text) : Except UsageError Reader :=
  match word with
  | '-' :: '-' :: name => reader.readLong level name
  | '-' :: letter :: letters => reader.readShort level (letter :: letters)
  | _ =>
      match reader.pending with
      | some (setting, none) => .ok { reader with pending := some (setting, some word) }
      | _ => reader.readOperand level false word

def value? (reader : Reader) (setting : Setting) : Option Text :=
  reader.given.lookup setting

def isGiven (reader : Reader) (setting : Setting) : Bool :=
  (reader.value? setting).isSome

end Reader

/-- Where reading a level has stopped: at its end, or at the name of a command. -/
structure LevelEnd where
  reader : Reader
  command : Option (Text × List Text) := none

/-- Read the words after `--`, none of which is an option. -/
def readOperands (level : Level) (reader : Reader) : List Text → Except UsageError Reader
  | [] => .ok reader
  | word :: rest =>
      match reader.readOperand level true word with
      | .error error => .error error
      | .ok reader => readOperands level reader rest

def readLevel (level : Level) (reader : Reader) : List Text → Except UsageError LevelEnd
  | [] => .ok { reader }
  | word :: rest =>
      if level.commands && !reader.isWaiting && namesCommand word then
        .ok { reader, command := some (word, rest) }
      else if word == "--".toList then
        match readOperands level reader rest with
        | .error error => .error error
        | .ok reader => .ok { reader }
      else
        match reader.readWord level word with
        | .error error => .error error
        | .ok reader => readLevel level reader rest

def helpError (topics : List Text) : UsageError :=
  match topics with
  | [] => .displayHelp
  | [topic] => if namesCommand topic then .displayHelp else .unknownCommand
  | _ => .unknownCommand

def CommandName.command (name : CommandName) (reader : Reader) : Except UsageError Command :=
  match name with
  | .transform =>
      .ok (.transform (reader.value? .operand) (reader.value? .output) (reader.isGiven .force)
        (reader.isGiven .noHeader))
  | .check =>
      match reader.value? .operand with
      | some schema => .ok (.check schema)
      | none => .error .missingArgument
  | .init => .ok (.init (reader.isGiven .force))

/-- Join the options before a command's name with those after it, of which the latter win. -/
def Invocation.ofReaders (outer inner : Reader) (command : Command) : Invocation :=
  { config := (inner.value? .config).or (outer.value? .config)
    verbose := inner.isGiven .verbose || outer.isGiven .verbose
    noColor := inner.isGiven .noColor || outer.isGiven .noColor
    format :=
      (((inner.value? .format).or (outer.value? .format)).bind Format.ofText?).getD .text
    command }

def readCommand (name : CommandName) (words : List Text) :
    Except UsageError (Reader × Command) := do
  let stopped ← readLevel name.level {} words
  let inner ← stopped.reader.settle
  let command ← name.command inner
  .ok (inner, command)

/-- Read the words of a command line after the program's name. -/
def parseArguments (words : List Text) : Except UsageError Invocation := do
  let stopped ← readLevel .program {} words
  match stopped.command with
  | none =>
      let outer ← stopped.reader.settle
      if outer.given.isEmpty then .error .nothingGiven else .error .missingCommand
  | some (word, rest) =>
      match CommandName.ofText? word with
      | none => .error (helpError rest)
      | some name =>
          let (inner, command) ← readCommand name rest
          let outer ← stopped.reader.settle
          .ok (.ofReaders outer inner command)

end AuroraMigration
