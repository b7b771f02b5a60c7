import AuroraMigration.Text
import AuroraMigration.Yaml.Token

/-!
# Nodes of YAML

A node is a scalar, a list or a mapping. What a scalar stands for depends on who
asks: the same scalar may be read as a text, as a truth value or as null.
-/

namespace AuroraMigration

inductive Yaml where
  | scalar (style : Yaml.ScalarStyle) (tag : Option Text) (text : Text)
  | list (items : List Yaml)
  | map (entries : List (Yaml × Yaml))

namespace Yaml

def absent : Yaml :=
  .scalar .plain none ['~']

def isNullText (text : Text) : Bool :=
  text.isEmpty || text == ['~'] || Text.asciiLower text == "null".toList

/-- Whether a tag makes a scalar a text whatever it looks like. -/
def isTextTag (tag : Option Text) : Bool :=
  tag == some (coreTag "str")

/-- Whether a tag says nothing against reading a scalar as a text. -/
def allowsText (tag : Option Text) : Bool :=
  tag.all fun name => name == coreTag "str" || !(coreTag "").isPrefixOf name

/-- Whether a node is null where a text has to stand. -/
def isNull : Yaml → Bool
  | .scalar .plain tag text => isNullText text && !isTextTag tag
  | _ => false

/-- Whether a node is null where a text may be missing: there, an empty block is null too. -/
def isMissing : Yaml → Bool
  | .scalar style tag text =>
      tag == some (coreTag "null") || isNull (.scalar style tag text) ||
        (style == .block && text.isEmpty && !isTextTag tag)
  | _ => false

def text? : Yaml → Option Text
  | .scalar style tag text =>
      if isNull (.scalar style tag text) || !allowsText tag then none else some text
  | _ => none

def trueWords : List Text :=
  ["true".toList, "yes".toList, "y".toList, "on".toList]

def falseWords : List Text :=
  ["false".toList, "no".toList, "n".toList, "off".toList]

/-- The truth value of a word, in capital or small letters and with blanks around it. -/
def boolOfText? (text : Text) : Option Bool :=
  let word := Text.asciiLower (Text.trim text)
  if trueWords.contains word then some true
  else if falseWords.contains word then some false
  else none

def bool? : Yaml → Option Bool
  | .scalar _ _ text => boolOfText? text
  | _ => none

mutual

/-- Whether two keys are the same, however their scalars are written. -/
def sameKey : Yaml → Yaml → Bool
  | .scalar _ tag₁ text₁, .scalar _ tag₂ text₂ => tag₁ == tag₂ && text₁ == text₂
  | .list items₁, .list items₂ => sameKeys items₁ items₂
  | .map entries₁, .map entries₂ => sameEntries entries₁ entries₂
  | _, _ => false

def sameKeys : List Yaml → List Yaml → Bool
  | [], [] => true
  | item₁ :: rest₁, item₂ :: rest₂ => sameKey item₁ item₂ && sameKeys rest₁ rest₂
  | _, _ => false

def sameEntries : List (Yaml × Yaml) → List (Yaml × Yaml) → Bool
  | [], [] => true
  | (key₁, value₁) :: rest₁, (key₂, value₂) :: rest₂ =>
      sameKey key₁ key₂ && sameKey value₁ value₂ && sameEntries rest₁ rest₂
  | _, _ => false

end

end Yaml

end AuroraMigration
