import AuroraMigration.Text
import AuroraMigration.Text.Lowercase

/-!
# Names of constraints

Two spellings name the same constraint when their normal forms agree. A quoted
spelling stands for the characters between its quotes, with a doubled quote for
a single one; any other spelling is read in lower case.
-/

namespace AuroraMigration

structure ConstraintName where
  raw : Text
  /-- The form by which names are compared. -/
  normal : Text
  deriving DecidableEq, Repr

/-- The text between a quote at its start and another one at its end. -/
def unquoted? (raw : Text) : Option Text :=
  match raw with
  | '"' :: inner => if inner.getLast? = some '"' then some inner.dropLast else none
  | _ => none

def quoteName (name : Text) : Text :=
  '"' :: name.flatMap (fun c => if c = '"' then [c, c] else [c]) ++ ['"']

namespace ConstraintName

def ofSpelling (raw : Text) : ConstraintName :=
  { raw
    normal :=
      match unquoted? raw with
      | some inner => Text.collapsePairs '"' inner
      | none => Text.lower raw }

/-- Whether a name follows one of the usual patterns for foreign keys. -/
def looksLikeForeignKey (name : ConstraintName) : Bool :=
  let lowered := Text.lower name.normal
  "_fkey".toList.isSuffixOf lowered || "_fk".toList.isSuffixOf lowered ||
    "fk_".toList.isPrefixOf lowered

end ConstraintName

end AuroraMigration
