import AuroraMigration.Text

/-!
# Coloured text for terminals

A style is the code that switches it on. Styled text is the code, the text and
the code that switches all styles off; wherever the text itself switches styles
off, the outer style is switched on again.

Statements that cannot run are listed in colours, either as the reason why a run
stops, with the ways out, or as a warning when they were left out on request.
-/

namespace AuroraMigration

inductive Style where
  | red
  | green
  | yellow
  | boldRed
  | boldYellow
  deriving DecidableEq, Repr

def Style.code : Style → Text
  | .red => "\x1b[31m".toList
  | .green => "\x1b[32m".toList
  | .yellow => "\x1b[33m".toList
  | .boldRed => "\x1b[1;31m".toList
  | .boldYellow => "\x1b[1;33m".toList

def styleReset : Text :=
  "\x1b[0m".toList

/--
Write `code` after each occurrence of the reset code.

`pending` is what is still to be passed of an occurrence before `code` is due.
-/
def restyle (code : Text) : (pending : Nat) → Text → Text
  | _, [] => []
  | 0, c :: rest =>
      if styleReset.isPrefixOf (c :: rest) then c :: restyle code 3 rest
      else c :: restyle code 0 rest
  | 1, c :: rest => c :: code ++ restyle code 0 rest
  | pending + 2, c :: rest => c :: restyle code (pending + 1) rest

def Style.apply (style : Style) (color : Bool) (text : Text) : Text :=
  if color then style.code ++ restyle style.code 0 text ++ styleReset else text

/-! ## Unsupported statements -/

def listItem (statement : Text) : Text :=
  "  - ".toList ++ statement

def unsupportedError (color : Bool) (statements : List Text) (command : Text) : Text :=
  Style.boldRed.apply color "Unsupported statements detected".toList ++ "\n\n".toList ++
    statements.flatMap (fun statement => Style.red.apply color (listItem statement) ++ ['\n']) ++
    ("\nAurora DSQL cannot execute these statements. " ++
      "To proceed, choose one of the following:\n").toList ++
    "  1. Drop them from the output: ".toList ++ command ++ " --force\n".toList ++
    "  2. Rewrite the migration so the constraint is not dropped\n".toList

def unsupportedWarning (color : Bool) (statements : List Text) : Text :=
  Style.boldYellow.apply color "Warning: Unsupported statements were dropped".toList ++ ['\n'] ++
    (if statements.isEmpty then "  No unsupported statements were listed.\n".toList
    else
      statements.flatMap fun statement =>
        "  ".toList ++ Style.yellow.apply color (listItem statement) ++ ['\n'])

end AuroraMigration
