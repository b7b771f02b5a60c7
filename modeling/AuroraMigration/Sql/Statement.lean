import AuroraMigration.Sql.Fragment

/-!
# Statements of a migration

The statements of a migration are its fragments without the transaction markers
`BEGIN` and `COMMIT` in their spellings. A statement remembers whether it stood
in a transaction, and takes over the comment that stood above a begin marker.
-/

namespace AuroraMigration

/-- A fragment that opens or closes a transaction. -/
inductive Marker where
  | begin
  | commit
  deriving DecidableEq, Repr

def Marker.forms : List (List Text × Marker) :=
  [(["BEGIN".toList], .begin),
    (["BEGIN".toList, "TRANSACTION".toList], .begin),
    (["BEGIN".toList, "WORK".toList], .begin),
    (["START".toList, "TRANSACTION".toList], .begin),
    (["COMMIT".toList], .commit),
    (["COMMIT".toList, "TRANSACTION".toList], .commit),
    (["COMMIT".toList, "WORK".toList], .commit),
    (["END".toList], .commit),
    (["END".toList, "TRANSACTION".toList], .commit)]

/-- The marker that a list of tokens spells, in capital or small letters. -/
def Marker.ofTokens? (tokens : List Token) : Option Marker :=
  if tokens.all (·.kind == .word) then
    Marker.forms.lookup (tokens.map fun token => Text.asciiUpper token.text)
  else none

def Fragment.marker? (fragment : Fragment) : Option Marker :=
  Marker.ofTokens? (tokenize fragment.body)

structure Statement where
  comment : List Text
  body : Text
  /-- Whether the statement stood between a begin and a commit marker. -/
  wrapped : Bool
  deriving DecidableEq, Repr

/--
The statements among fragments, where `opened` says whether a begin marker is
still without its commit, and `carried` is the comment of begin markers that no
statement has taken over yet.
-/
def statementsFrom (opened : Bool) (carried : List Text) : List Fragment → List Statement
  | [] => []
  | fragment :: rest =>
      match fragment.marker? with
      | some .begin => statementsFrom true (carried ++ fragment.comment) rest
      | some .commit => statementsFrom false carried rest
      | none =>
          { comment := carried ++ fragment.comment
            body := fragment.body
            wrapped := opened && rest.any (·.marker? == some .commit) } ::
            statementsFrom opened [] rest

def statements (sql : Text) : List Statement :=
  statementsFrom false [] (fragments sql)

end AuroraMigration
