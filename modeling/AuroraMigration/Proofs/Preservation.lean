import AuroraMigration.Proofs.Transactions

/-!
# No silent loss

A migration that reports neither unsupported statements nor removed foreign keys
keeps every statement. The tokens of its script are those of its text, with the
word `ASYNC` in the statements that build indexes.
-/

namespace AuroraMigration

theorem total_eq_zero {count : Adaptation → Nat} {adapted : List (Statement × Adaptation)}
    (h : Migration.total count adapted = 0) : ∀ pair ∈ adapted, count pair.2 = 0 := by
  induction adapted with
  | nil => simp
  | cons pair rest ih =>
      obtain ⟨statement, adaptation⟩ := pair
      rw [Migration.total] at h
      intro other hother
      rcases List.mem_cons.1 hother with rfl | hother
      · dsimp only
        omega
      · exact ih (by omega) other hother

/-- Blocks for all statements, each with its tokens up to `ASYNC`. -/
theorem blocks_of_kept {found : List Statement}
    (h : ∀ statement ∈ found, ∃ out, (Adaptation.ofBody statement.body).body = some out ∧
      lexemes (scan out) = asyncLexemes (lexemes (scan statement.body))) :
    (Migration.blocks (found.map fun statement =>
        (statement, Adaptation.ofBody statement.body))).map
          (fun block => lexemes (scan block.body)) =
      found.map fun statement => asyncLexemes (lexemes (scan statement.body)) := by
  induction found with
  | nil => rfl
  | cons statement rest ih =>
      obtain ⟨out, hout, hlex⟩ := h statement List.mem_cons_self
      have ih := ih fun x hx => h x (List.mem_cons_of_mem statement hx)
      unfold Migration.blocks at ih ⊢
      rw [List.map_cons, List.filterMap_cons]
      simp only [hout, Option.map_some, List.map_cons, hlex, ih]

theorem statements_kept {sql : Text} (hsql : Complete sql) {options : ScriptOptions}
    (hunsupported : (Migration.transform sql options).unsupported = [])
    (hkeys : (Migration.transform sql options).stats.foreignKeys = 0) :
    ∀ statement ∈ statements sql, ∃ out, (Adaptation.ofBody statement.body).body = some out ∧
      lexemes (scan out) = asyncLexemes (lexemes (scan statement.body)) := by
  intro statement hstatement
  obtain ⟨-, hstats, hlist⟩ := ofAdapted_fields
    ((statements sql).map fun statement => (statement, .ofBody statement.body)) options
  have hpair : (statement, Adaptation.ofBody statement.body) ∈
      (statements sql).map fun statement => (statement, Adaptation.ofBody statement.body) :=
    List.mem_map.2 ⟨statement, hstatement, rfl⟩
  rw [Migration.transform, hlist, List.flatMap_eq_nil_iff] at hunsupported
  rw [Migration.transform, hstats] at hkeys
  obtain ⟨htidy, hclosed, -⟩ := statement_closed hsql hstatement
  exact emitted_lexemes htidy hclosed (hunsupported _ hpair) (total_eq_zero hkeys _ hpair)

/-- Nothing is lost unless it is reported. -/
theorem nothing_lost_unreported {sql : Text} (hreturn : '\r' ∉ sql) (hsql : Complete sql)
    {options : ScriptOptions}
    (hunsupported : (Migration.transform sql options).unsupported = [])
    (hkeys : (Migration.transform sql options).stats.foreignKeys = 0) :
    (Migration.transform sql options).stats.statements = (statements sql).length ∧
      (emitted sql).map (fun block => (tokenize block.body).map Token.lexeme) =
        (statementGroups sql).map fun group => asyncLexemes (group.map Token.lexeme) := by
  have hblocks := blocks_of_kept (statements_kept hsql hunsupported hkeys)
  have hgroups : (statements sql).map (fun statement => lexemes (scan statement.body)) =
      (statementGroups sql).map (List.map Token.lexeme) := by
    rw [statementGroups_lexemes, statements_lexemes hreturn hsql.1]
  constructor
  · rw [transform_statements]
    simpa [emitted] using congrArg List.length hblocks
  · have hasync := congrArg (List.map asyncLexemes) hgroups
    rw [List.map_map, List.map_map] at hasync
    simp only [tokenize_lexemes]
    exact hblocks.trans hasync

/-- An index built with `CONCURRENTLY` and a table are both kept. -/
theorem nothing_lost_unreported_index :
    (Migration.transform "CREATE INDEX CONCURRENTLY i ON t (a); CREATE TABLE u (b INT)".toList
        {}).stats.statements =
      (statements "CREATE INDEX CONCURRENTLY i ON t (a); CREATE TABLE u (b INT)".toList).length :=
  (nothing_lost_unreported (by decide) (by decide +kernel)
    (show (Migration.transform _ {}).unsupported = [] by decide +kernel)
    (by decide +kernel)).1

end AuroraMigration
