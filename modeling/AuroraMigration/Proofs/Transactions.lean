import AuroraMigration.Proofs.Adaptation
import AuroraMigration.Proofs.Script
import AuroraMigration.Migration

/-!
# One statement for each transaction

The script of a migration, cut at its semicolons, is `BEGIN`, a statement and
`COMMIT` over and over. No comment, header or body changes that, as each of them
is passed over or closed when the script is scanned.
-/

namespace AuroraMigration

/-! ## Emitted blocks -/

/-- The blocks that the script of a migration is composed of. -/
def emitted (sql : Text) : List Block :=
  Migration.blocks ((statements sql).map fun statement => (statement, .ofBody statement.body))

/-- A block with whole comment lines and a closed body. -/
structure Block.Sound (block : Block) : Prop where
  comment : ∀ line ∈ block.comment, CommentLine line
  body : ClosedBody block.body

theorem ofAdapted_fields (adapted : List (Statement × Adaptation)) (options : ScriptOptions) :
    (Migration.ofAdapted adapted options).sql = compose (Migration.blocks adapted) options ∧
      (Migration.ofAdapted adapted options).stats =
        { statements := (Migration.blocks adapted).length
          indexes := Migration.total Adaptation.indexesConverted adapted
          foreignKeys := Migration.total Adaptation.foreignKeysRemoved adapted } ∧
      (Migration.ofAdapted adapted options).unsupported = adapted.flatMap (·.2.unsupported) := by
  simp only [Migration.ofAdapted]
  split
  · exact ⟨rfl, rfl, rfl⟩
  · simp only [Migration.warn]
    split <;> exact ⟨rfl, rfl, rfl⟩

theorem transform_sql (sql : Text) (options : ScriptOptions) :
    (Migration.transform sql options).sql = compose (emitted sql) options :=
  (ofAdapted_fields _ options).1

theorem transform_statements (sql : Text) (options : ScriptOptions) :
    (Migration.transform sql options).stats.statements = (emitted sql).length := by
  rw [Migration.transform, (ofAdapted_fields _ options).2.1]
  rfl

theorem mem_emitted {sql : Text} {block : Block} (h : block ∈ emitted sql) :
    ∃ statement ∈ statements sql, block.comment = statement.comment ∧
      (Adaptation.ofBody statement.body).body = some block.body := by
  obtain ⟨⟨statement, adaptation⟩, hmem, hblock⟩ := List.mem_filterMap.1 h
  obtain ⟨found, hfound, heq⟩ := List.mem_map.1 hmem
  obtain ⟨rfl, rfl⟩ := Prod.mk.inj heq
  obtain ⟨body, hbody, rfl⟩ := Option.map_eq_some_iff.1 hblock
  exact ⟨found, hfound, rfl, hbody⟩

theorem emitted_sound {sql : Text} (hsql : Complete sql) {block : Block}
    (h : block ∈ emitted sql) : block.Sound := by
  obtain ⟨statement, hstatement, hcomment, hbody⟩ := mem_emitted h
  obtain ⟨htidy, hclosed, hlines⟩ := statement_closed hsql hstatement
  refine ⟨?_, (emitted_spec htidy hclosed hbody).1⟩
  rw [hcomment]
  exact hlines

/-! ## Lexemes of the pieces of a script -/

/-- The word `BEGIN`. -/
def beginWord : Lexeme :=
  ⟨.word, "BEGIN".toList⟩

/-- The word `COMMIT`. -/
def commitWord : Lexeme :=
  ⟨.word, "COMMIT".toList⟩

theorem skipped_scriptLead (options : ScriptOptions) :
    ∃ steps, Skipped (scriptLead options) steps := by
  unfold scriptLead
  split
  · obtain ⟨steps, hsteps⟩ := skipped_lineBlock (commentLine_header options.generatedAt)
    exact ⟨_, hsteps.append (skipped_blank (List.all_eq_true.1 (by decide)))⟩
  · exact ⟨[], skipped_nil⟩

theorem closedPiece_begin : ClosedPiece "BEGIN".toList :=
  ⟨by decide, by decide⟩

theorem closedPiece_commit : ClosedPiece "\nCOMMIT".toList :=
  ⟨by decide, by decide⟩

theorem Block.Sound.closedPiece {block : Block} (h : block.Sound) :
    ClosedPiece (Text.trimEnd block.body) where
  ends := h.body.scanEnd_trimEnd
  separators := by
    rw [h.body.scan_trimEnd]
    exact fun step hstep => h.body.separators step (mem_significantPart hstep)

theorem Block.Sound.pieces {block : Block} (h : block.Sound) {lead : Text} {steps : List Step}
    (hlead : Skipped lead steps) :
    (∀ piece ∈ block.pieces lead, ClosedPiece piece) ∧
      (block.pieces lead).map (fun piece => lexemes (scan piece)) =
        [[beginWord], lexemes (scan block.body), [commitWord]] := by
  obtain ⟨comment, hcomment⟩ := skipped_lineBlock h.comment
  obtain ⟨hmark, hmarkLex⟩ := closedPiece_begin.skip hcomment
  obtain ⟨hfirst, hfirstLex⟩ := hmark.skip hlead
  have hfeed : Skipped ['\n'] ((['\n'] : Text).map (codeStep 0)) :=
    skipped_blank (List.all_eq_true.1 (by decide))
  obtain ⟨hsecond, hsecondLex⟩ := h.closedPiece.skip hfeed
  constructor
  · intro piece hpiece
    simp only [Block.pieces, List.mem_cons, List.not_mem_nil, or_false] at hpiece
    rcases hpiece with rfl | rfl | rfl
    · exact hfirst
    · exact hsecond
    · exact closedPiece_commit
  · have hbegin : lexemes (scan "BEGIN".toList) = [beginWord] := by decide
    have hcommit : lexemes (scan "\nCOMMIT".toList) = [commitWord] := by decide
    simp only [Block.pieces, List.map_cons, List.map_nil, hfirstLex, hmarkLex, hbegin, hsecondLex,
      h.body.lexemes_trimEnd, hcommit]

theorem scriptPieces_spec {blocks : List Block} (h : ∀ block ∈ blocks, block.Sound) {lead : Text}
    {steps : List Step} (hlead : Skipped lead steps) :
    (∀ piece ∈ scriptPieces lead blocks, ClosedPiece piece) ∧
      (scriptPieces lead blocks).map (fun piece => lexemes (scan piece)) =
        blocks.flatMap fun block => [[beginWord], lexemes (scan block.body), [commitWord]] := by
  induction blocks generalizing lead steps with
  | nil => simp [scriptPieces]
  | cons block rest ih =>
      have hgap : Skipped "\n\n".toList ("\n\n".toList.map (codeStep 0)) :=
        skipped_blank (List.all_eq_true.1 (by decide))
      obtain ⟨hclosed, hlex⟩ := (h block List.mem_cons_self).pieces hlead
      obtain ⟨hrest, hrestLex⟩ := ih (fun x hx => h x (List.mem_cons_of_mem block hx)) hgap
      constructor
      · intro piece hpiece
        rcases List.mem_append.1 hpiece with hpiece | hpiece
        · exact hclosed piece hpiece
        · exact hrest piece hpiece
      · rw [scriptPieces, List.map_append, hlex, hrestLex, List.flatMap_cons]

/-- The tokens of the pieces of a script that have any. -/
def scriptGroups (script : Text) : List (List Token) :=
  ((piecesAt ';' script).map tokenize).filter (!·.isEmpty)

theorem compose_groups {blocks : List Block} (h : ∀ block ∈ blocks, block.Sound)
    (options : ScriptOptions) :
    (scriptGroups (compose blocks options)).map (List.map Token.lexeme) =
      blocks.flatMap fun block => [[beginWord], lexemes (scan block.body), [commitWord]] := by
  have hgroups : ∀ script : Text, (scriptGroups script).map (List.map Token.lexeme) =
      ((piecesAt ';' script).map fun piece => lexemes (scan piece)).filter (!·.isEmpty) := by
    intro script
    simp only [scriptGroups, List.filter_map, List.map_map, Function.comp_def, ← tokenize_lexemes,
      List.isEmpty_map]
  rw [hgroups]
  by_cases hnil : blocks = []
  · subst hnil
    rw [compose_nil]
    decide
  · obtain ⟨steps, hlead⟩ := skipped_scriptLead options
    obtain ⟨hclosed, hlex⟩ := scriptPieces_spec h hlead
    have hlast : ∀ step ∈ scan ['\n'], step.isTopLevel ';' = false := by decide
    have hempty : lexemes (scan ['\n']) = [] := by decide
    rw [compose_pieces hnil (fun block hblock => (h block hblock).body) options,
      piecesAt_withSeparators hclosed hlast, List.map_append, hlex, List.filter_append,
      List.map_singleton, hempty]
    simp only [List.filter_cons, List.isEmpty_nil, Bool.not_true, Bool.false_eq_true, if_false,
      List.filter_nil, List.append_nil]
    rw [List.filter_eq_self]
    intro group hgroup
    obtain ⟨block, hblock, hmem⟩ := List.mem_flatMap.1 hgroup
    simp only [List.mem_cons, List.not_mem_nil, or_false] at hmem
    rcases hmem with rfl | rfl | rfl
    · rfl
    · simpa using (h block hblock).body.tokens
    · rfl

/-- A script runs each emitted statement in a transaction of its own, and nothing else. -/
theorem one_statement_per_transaction {sql : Text} (hsql : Complete sql)
    (options : ScriptOptions) :
    (scriptGroups (Migration.transform sql options).sql).map (List.map Token.lexeme) =
        (emitted sql).flatMap (fun block =>
          [[beginWord], (tokenize block.body).map Token.lexeme, [commitWord]]) ∧
      (scriptGroups (Migration.transform sql options).sql).length =
        3 * (Migration.transform sql options).stats.statements ∧
      ∀ block ∈ emitted sql,
        tokenize block.body ≠ [] ∧ Marker.ofTokens? (tokenize block.body) = none := by
  have hsound : ∀ block ∈ emitted sql, block.Sound := fun block => emitted_sound hsql
  have hgroups := compose_groups hsound options
  rw [← transform_sql] at hgroups
  refine ⟨?_, ?_, ?_⟩
  · rw [hgroups]
    simp only [tokenize_lexemes]
  · have hlength := congrArg List.length hgroups
    rw [List.length_map] at hlength
    rw [hlength, transform_statements, List.length_flatMap]
    simp [Nat.mul_comm]
  · intro block hblock
    have hbody := (hsound block hblock).body
    have htokens := hbody.tokens
    rw [← tokenize_lexemes] at htokens
    refine ⟨by simpa using htokens, ?_⟩
    rw [← markerOfLexemes_map, tokenize_lexemes]
    exact hbody.marker

/-- A comment and a string that hold semicolons open no transaction. -/
theorem one_statement_per_transaction_comment :
    Complete "SELECT 1; -- a; b\nSELECT ';'".toList ∧
      (scriptGroups (Migration.transform "SELECT 1; -- a; b\nSELECT ';'".toList {}).sql).length =
        3 * (Migration.transform "SELECT 1; -- a; b\nSELECT ';'".toList {}).stats.statements :=
  ⟨by decide +kernel, (one_statement_per_transaction (by decide +kernel) {}).2.1⟩

end AuroraMigration
