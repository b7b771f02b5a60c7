import AuroraMigration.Proofs.Fragment
import AuroraMigration.Proofs.Pieces
import AuroraMigration.Proofs.Recognition

/-!
# Splitting keeps tokens

The statements of a migration hold the tokens of the text between its
semicolons, group by group and in order. Only separators, empty groups and
transaction markers are left out.
-/

namespace AuroraMigration

/-! ## Pieces between semicolons -/

theorem fragments_eq (sql : Text) :
    fragments sql =
      (pieceSteps ';' sql).filterMap fun part => Fragment.ofPiece? (stepsText part) := by
  unfold fragments piecesAt pieceSteps
  rw [List.filterMap_map, Function.comp_def]

theorem fragmentOf_of_mem {sql : Text} (hend : (scanEnd sql).mode.isQuoted = false)
    {fragment : Fragment} (h : fragment ∈ fragments sql) :
    ∃ part, PieceOf ';' sql part ∧ FragmentOf (stepsText part) fragment := by
  rw [fragments_eq] at h
  obtain ⟨part, hpart, hsome⟩ := List.mem_filterMap.1 h
  have hpiece := pieceOf_of_mem (by decide) hpart
  rcases Fragment.ofPiece?_spec (hpiece.unquoted hend) with ⟨hnone, -⟩ | ⟨fragment', hsome', hof⟩
  · rw [hnone] at hsome
    cases hsome
  · rw [hsome'] at hsome
    obtain rfl := Option.some.inj hsome
    exact ⟨part, hpiece, hof⟩

/-- Fragments hold the tokens of the pieces that have any, up to carriage returns in quotes. -/
theorem fragments_lexemes {sql : Text} (hend : (scanEnd sql).mode.isQuoted = false) :
    (fragments sql).map (fun fragment => lexemes (scan fragment.body)) =
      (((pieceSteps ';' sql).map lexemes).filter (!·.isEmpty)).map
        (List.map Lexeme.dropReturns) := by
  have hpieces : ∀ part ∈ pieceSteps ';' sql, PieceOf ';' sql part :=
    fun part => pieceOf_of_mem (by decide)
  rw [fragments_eq]
  generalize pieceSteps ';' sql = parts at hpieces ⊢
  induction parts with
  | nil => rfl
  | cons part parts ih =>
      have hpiece := hpieces part List.mem_cons_self
      have ih := ih fun x hx => hpieces x (List.mem_cons_of_mem part hx)
      rcases Fragment.ofPiece?_spec (hpiece.unquoted hend) with ⟨hnone, hlex⟩ |
        ⟨fragment, hsome, hof⟩
      · rw [hpiece.scan] at hlex
        simp only [List.filterMap_cons, hnone]
        rw [ih, List.map_cons, List.filter_cons_of_neg]
        simp [hlex]
      · have hlex := hof.lexemes
        have htokens := hof.body.tokens
        rw [hpiece.scan] at hlex
        rw [hlex] at htokens
        simp only [List.filterMap_cons, hsome]
        rw [List.map_cons, ih, hlex, List.map_cons, List.filter_cons_of_pos, List.map_cons]
        simpa using htokens

/-- Pieces of a text without carriage returns have none to lose. -/
theorem PieceOf.lexemes_dropReturns {separator : Char} {sql : Text} {part : List Step}
    (h : PieceOf separator sql part) (hreturn : '\r' ∉ sql) :
    (lexemes part).map Lexeme.dropReturns = lexemes part := by
  have hclean : '\r' ∉ stepsText part := fun hmem => hreturn (h.chars _ hmem)
  rw [← lexemes_dropReturnSteps h.trace wellTagged_start, dropReturnSteps_eq_self hclean]

theorem fragments_lexemes_of_clean {sql : Text} (hreturn : '\r' ∉ sql)
    (hend : (scanEnd sql).mode.isQuoted = false) :
    (fragments sql).map (fun fragment => lexemes (scan fragment.body)) =
      ((pieceSteps ';' sql).map lexemes).filter (!·.isEmpty) := by
  rw [fragments_lexemes hend]
  conv_rhs => rw [← List.map_id (((pieceSteps ';' sql).map lexemes).filter _)]
  apply List.map_congr_left
  intro group hgroup
  obtain ⟨part, hpart, rfl⟩ := List.mem_map.1 (List.mem_filter.1 hgroup).1
  exact (pieceOf_of_mem (by decide) hpart).lexemes_dropReturns hreturn

/-! ## Statements among fragments -/

theorem statementsFrom_bodies (opened : Bool) (carried : List Text) (found : List Fragment) :
    (statementsFrom opened carried found).map Statement.body =
      (found.filter (·.marker?.isNone)).map Fragment.body := by
  induction found generalizing opened carried with
  | nil => rfl
  | cons fragment rest ih =>
      simp only [statementsFrom]
      split
      · rename_i hmarker
        rw [ih, List.filter_cons_of_neg (by simp [hmarker])]
      · rename_i hmarker
        rw [ih, List.filter_cons_of_neg (by simp [hmarker])]
      · rename_i hmarker
        rw [List.map_cons, ih, List.filter_cons_of_pos (by simp [hmarker]), List.map_cons]

/-- The marker that lexemes spell. -/
def Marker.ofLexemes? (found : List Lexeme) : Option Marker :=
  Marker.ofTokens? (found.map Lexeme.token)

theorem markerOfLexemes_map (tokens : List Token) :
    Marker.ofLexemes? (tokens.map Token.lexeme) = Marker.ofTokens? tokens :=
  markerOfTokens_congr (alike_token tokens)

theorem marker?_eq (fragment : Fragment) :
    fragment.marker? = Marker.ofLexemes? (lexemes (scan fragment.body)) := by
  rw [← tokenize_lexemes, markerOfLexemes_map]
  rfl

/-- Statements hold the tokens of the pieces that have any and are no markers. -/
theorem statements_lexemes {sql : Text} (hreturn : '\r' ∉ sql)
    (hend : (scanEnd sql).mode.isQuoted = false) :
    (statements sql).map (fun statement => lexemes (scan statement.body)) =
      (((pieceSteps ';' sql).map lexemes).filter (!·.isEmpty)).filter
        fun group => (Marker.ofLexemes? group).isNone := by
  have hbodies := congrArg (List.map fun body => lexemes (scan body))
    (statementsFrom_bodies false [] (fragments sql))
  rw [List.map_map, List.map_map] at hbodies
  rw [← fragments_lexemes_of_clean hreturn hend, List.filter_map]
  refine hbodies.trans ?_
  congr 1
  apply List.filter_congr
  intro fragment _
  rw [marker?_eq]
  rfl

/-- The groups of tokens between semicolons that are neither empty nor a transaction marker. -/
def statementGroups (sql : Text) : List (List Token) :=
  (tokenGroups ';' sql).filter fun group => !group.isEmpty && (Marker.ofTokens? group).isNone

theorem statementGroups_lexemes (sql : Text) :
    (statementGroups sql).map (List.map Token.lexeme) =
      (((pieceSteps ';' sql).map lexemes).filter (!·.isEmpty)).filter
        fun group => (Marker.ofLexemes? group).isNone := by
  have hgroups := tokenGroups_lexemes (c := ';') (by decide) sql
  rw [← hgroups, List.filter_filter, List.filter_map, statementGroups]
  congr 1
  apply List.filter_congr
  intro group _
  simp only [Function.comp_apply, markerOfLexemes_map, List.isEmpty_map]
  rw [Bool.and_comm]

/-- Splitting neither loses, duplicates, merges nor reorders tokens. -/
theorem statements_hold_groups {sql : Text} (hreturn : '\r' ∉ sql)
    (hend : (scanEnd sql).mode.isQuoted = false) :
    (statements sql).map (fun statement => (tokenize statement.body).map Token.lexeme) =
      (statementGroups sql).map (List.map Token.lexeme) := by
  rw [statementGroups_lexemes, ← statements_lexemes hreturn hend]
  simp only [tokenize_lexemes]

/-- A marker in small letters, a semicolon in quotes and one in a comment. -/
theorem statements_hold_groups_quoted :
    '\r' ∉ "begin; SELECT ';' -- ;\n; COMMIT".toList ∧
      (scanEnd "begin; SELECT ';' -- ;\n; COMMIT".toList).mode.isQuoted = false ∧
      (statements "begin; SELECT ';' -- ;\n; COMMIT".toList).map
          (fun statement => (tokenize statement.body).map Token.lexeme) =
        (statementGroups "begin; SELECT ';' -- ;\n; COMMIT".toList).map (List.map Token.lexeme) :=
  ⟨by decide, by decide +kernel, statements_hold_groups (by decide) (by decide +kernel)⟩

end AuroraMigration
