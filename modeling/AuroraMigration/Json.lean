import AuroraMigration.Text

/-!
# JSON output

Values of JSON, with the members of an object in the order in which they are
given, and their text with each item and member on a line of its own.
-/

namespace AuroraMigration

/-- A value of JSON without fractions. -/
inductive JsonValue where
  | bool (value : Bool)
  | number (value : Nat)
  | string (value : Text)
  | array (items : List JsonValue)
  | object (members : List (Text × JsonValue))

namespace JsonValue

/-- A character of a string; quotes, backslashes and control characters are escaped. -/
def escapeChar (c : Char) : Text :=
  if c = '"' ∨ c = '\\' then ['\\', c]
  else if c = '\x08' then ['\\', 'b']
  else if c = '\t' then ['\\', 't']
  else if c = '\n' then ['\\', 'n']
  else if c = '\x0c' then ['\\', 'f']
  else if c = '\r' then ['\\', 'r']
  else if c.toNat < 0x20 then
    "\\u00".toList ++ (if c.toNat < 0x10 then ['0'] else []) ++ Nat.toDigits 16 c.toNat
  else [c]

def quote (s : Text) : Text :=
  '"' :: s.flatMap escapeChar ++ ['"']

/-- A line feed and the blanks at the start of a line at a level of nesting. -/
def newLine (level : Nat) : Text :=
  '\n' :: List.replicate (2 * level) ' '

mutual

def renderAt (level : Nat) : JsonValue → Text
  | .bool value => if value then "true".toList else "false".toList
  | .number value => Text.ofNat value
  | .string value => quote value
  | .array [] => "[]".toList
  | .array (item :: items) =>
      '[' :: newLine (level + 1) ++ renderAt (level + 1) item ++ renderItems level items
  | .object [] => "\x7b\x7d".toList
  | .object ((name, value) :: members) =>
      '\x7b' :: newLine (level + 1) ++ quote name ++ ": ".toList ++ renderAt (level + 1) value ++
        renderMembers level members

/-- The items after the first one, up to the closing bracket. -/
def renderItems (level : Nat) : List JsonValue → Text
  | [] => newLine level ++ [']']
  | item :: items =>
      ',' :: newLine (level + 1) ++ renderAt (level + 1) item ++ renderItems level items

/-- The members after the first one, up to the closing brace. -/
def renderMembers (level : Nat) : List (Text × JsonValue) → Text
  | [] => newLine level ++ ['\x7d']
  | (name, value) :: members =>
      ',' :: newLine (level + 1) ++ quote name ++ ": ".toList ++ renderAt (level + 1) value ++
        renderMembers level members

end

def render (value : JsonValue) : Text :=
  renderAt 0 value

def strings (items : List Text) : JsonValue :=
  .array (items.map .string)

end JsonValue

end AuroraMigration
