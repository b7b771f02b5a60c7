import AuroraMigration.Sql.AlterTable

/-!
# Kinds of statements

The first tokens of a body decide its kind. Quoted names and strings are never
taken for keywords, so a table called `"references"` is only a table.
-/

namespace AuroraMigration

inductive StatementKind where
  | createTable
  /-- `CREATE [UNIQUE] INDEX`, already built asynchronously or not. -/
  | createIndex (unique async : Bool)
  | alterTable (alter : AlterTable)
  /-- `DROP TABLE` or `DROP INDEX`. -/
  | drop
  | other
  deriving DecidableEq, Repr

namespace StatementKind

def label : StatementKind → Text
  | .createTable => "create-table".toList
  | .createIndex false _ => "create-index".toList
  | .createIndex true _ => "create-unique-index".toList
  | .alterTable _ => "alter-table".toList
  | .drop => "drop-statement".toList
  | .other => "other".toList

/-- Whether a token is one of the words allowed between `CREATE` and `TABLE`. -/
def isTableModifier (token : Token) : Bool :=
  ["GLOBAL", "LOCAL", "TEMP", "TEMPORARY", "UNLOGGED"].any (Token.isKeyword · token)

def ofCreated (tokens : List Token) : StatementKind :=
  if startsWith ["UNIQUE"] tokens then
    if startsWith ["UNIQUE", "INDEX"] tokens then
      .createIndex true (startsWith ["ASYNC"] (tokens.drop 2))
    else .other
  else if startsWith ["INDEX"] tokens then .createIndex false (startsWith ["ASYNC"] (tokens.drop 1))
  else if startsWith ["TABLE"] (tokens.dropWhile isTableModifier) then .createTable
  else .other

def ofBody (body : Text) : StatementKind :=
  let tokens := tokenize body
  if startsWith ["CREATE"] tokens then ofCreated (tokens.drop 1)
  else if startsWith ["ALTER", "TABLE"] tokens then
    match AlterTable.ofTokens? body (tokens.drop 2) with
    | some alter => .alterTable alter
    | none => .other
  else if startsWith ["DROP", "TABLE"] tokens || startsWith ["DROP", "INDEX"] tokens then .drop
  else .other

end StatementKind

end AuroraMigration
