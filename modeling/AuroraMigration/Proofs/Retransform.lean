import AuroraMigration.Proofs.SplitAgain

/-!
# Transforming a script again

The script of a migration is a migration too. Read back, its pieces are begin
markers with the comments of the blocks, the bodies, and commit markers, so its
statements are the blocks again. Adapting them changes nothing, and the script
that comes out is the one written with the new options.
-/

namespace AuroraMigration

/-! ## Reading the pieces of a script -/

theorem detached_scriptLead (options : ScriptOptions) : Detached (scriptLead options) := by
  intro rest
  unfold scriptLead
  split
  · rw [List.append_assoc, leadingComment_lineBlock [] (commentLine_header options.generatedAt),
      List.singleton_append, leadingComment_feed]
  · rfl

theorem detached_gap : Detached "\n\n".toList := by
  intro rest
  exact (detached_feed ('\n' :: rest)).trans (detached_feed rest)

theorem ofPiece?_begin {lead : Text} (hlead : Detached lead) {comment : List Text}
    (hcomment : ∀ line ∈ comment, CommentLine line) :
    Fragment.ofPiece? (lead ++ (lineBlock comment ++ "BEGIN".toList)) =
      some { comment, body := "BEGIN".toList } := by
  have hread : leadingComment [] (Text.lines (lead ++ (lineBlock comment ++ "BEGIN".toList))) =
      (comment, ["BEGIN".toList]) := by
    rw [hlead, leadingComment_lineBlock [] hcomment]
    rfl
  have hbody : tidyBody (Text.join ['\n']
      (leadingComment [] (Text.lines (lead ++ (lineBlock comment ++ "BEGIN".toList)))).2) =
        "BEGIN".toList := by
    have hword : tidyBody (Text.join ['\n'] ["BEGIN".toList]) = "BEGIN".toList := by decide
    rw [hread]
    exact hword
  rw [Fragment.ofPiece?_of_body hbody, if_neg (by decide), hread]

theorem ofPiece?_commit :
    Fragment.ofPiece? "\nCOMMIT".toList = some { comment := [], body := "COMMIT".toList } := by
  decide

theorem marker?_begin (comment : List Text) :
    Fragment.marker? { comment, body := "BEGIN".toList } = some .begin :=
  (by decide : Marker.ofTokens? (tokenize "BEGIN".toList) = some .begin)

theorem marker?_commit (comment : List Text) :
    Fragment.marker? { comment, body := "COMMIT".toList } = some .commit :=
  (by decide : Marker.ofTokens? (tokenize "COMMIT".toList) = some .commit)

/-! ## Statements of a script -/

/-- A block that is read back from a script as it is. -/
structure Block.Readable (block : Block) : Prop extends Block.Sound block where
  tidy : TidyBody (Text.trimEnd block.body)
  noReturn : '\r' ∉ Text.trimEnd block.body

/-- The fragments that a block is written as. -/
def Block.fragments (block : Block) : List Fragment :=
  [{ comment := block.comment, body := "BEGIN".toList },
    { comment := [], body := Text.trimEnd block.body },
    { comment := [], body := "COMMIT".toList }]

theorem Block.Readable.ofPieces {block : Block} (h : block.Readable) {lead : Text}
    (hlead : Detached lead) :
    (block.pieces lead).filterMap Fragment.ofPiece? = block.fragments := by
  simp only [Block.pieces, Block.fragments, List.filterMap_cons, List.filterMap_nil,
    ofPiece?_begin hlead h.comment, h.tidy.normal.ofPiece? h.noReturn detached_feed,
    ofPiece?_commit]

theorem scriptPieces_fragments {blocks : List Block} (h : ∀ block ∈ blocks, block.Readable)
    {lead : Text} (hlead : Detached lead) :
    (scriptPieces lead blocks).filterMap Fragment.ofPiece? = blocks.flatMap Block.fragments := by
  induction blocks generalizing lead with
  | nil => rfl
  | cons block rest ih =>
      have ih := ih (fun x hx => h x (List.mem_cons_of_mem block hx)) detached_gap
      rw [scriptPieces, List.filterMap_append, (h block List.mem_cons_self).ofPieces hlead, ih,
        List.flatMap_cons]

theorem fragments_compose {blocks : List Block} (h : ∀ block ∈ blocks, block.Readable)
    (options : ScriptOptions) :
    fragments (compose blocks options) = blocks.flatMap Block.fragments := by
  by_cases hnil : blocks = []
  · subst hnil
    rw [compose_nil]
    decide
  · obtain ⟨steps, hlead⟩ := skipped_scriptLead options
    have hsound : ∀ block ∈ blocks, block.Sound := fun block hblock => (h block hblock).toSound
    have hclosed := (scriptPieces_spec hsound hlead).1
    have hlast : ∀ step ∈ scan ['\n'], step.isTopLevel ';' = false := by decide
    have hempty : Fragment.ofPiece? ['\n'] = none := by decide
    rw [fragments, compose_pieces hnil (fun block hblock => (hsound block hblock).body) options,
      piecesAt_withSeparators hclosed hlast, List.filterMap_append,
      scriptPieces_fragments h (detached_scriptLead options), List.filterMap_cons_none hempty]
    simp

/-- A block as a statement of its script. -/
def Block.statement (block : Block) : Statement :=
  { comment := block.comment, body := Text.trimEnd block.body, wrapped := true }

theorem statementsFrom_blocks {blocks : List Block} (h : ∀ block ∈ blocks, block.Readable) :
    statementsFrom false [] (blocks.flatMap Block.fragments) = blocks.map Block.statement := by
  induction blocks with
  | nil => rfl
  | cons block rest ih =>
      have ih := ih fun x hx => h x (List.mem_cons_of_mem block hx)
      have hbody : Fragment.marker? { comment := [], body := Text.trimEnd block.body } = none := by
        have hclosed := (h block List.mem_cons_self).body
        rw [marker?_eq]
        dsimp only
        rw [hclosed.lexemes_trimEnd, hclosed.marker]
      rw [List.flatMap_cons, Block.fragments]
      simp only [List.cons_append, List.nil_append, statementsFrom, marker?_begin, hbody,
        marker?_commit, ih, List.map_cons, List.any_cons, List.append_nil]
      simp [Block.statement]

theorem statements_compose {blocks : List Block} (h : ∀ block ∈ blocks, block.Readable)
    (options : ScriptOptions) :
    statements (compose blocks options) = blocks.map Block.statement := by
  rw [statements, fragments_compose h options, statementsFrom_blocks h]

/-- A block whose body is one statement and whose comment lines are whole is read back as it is. -/
theorem Block.readable_of_statement {block : Block} (hreturn : '\r' ∉ block.body)
    (hcomplete : Complete block.body)
    (hbody : statements block.body = [{ comment := [], body := block.body, wrapped := false }])
    (hcomment : ∀ line ∈ block.comment, CommentLine line) :
    block.Readable ∧ Text.trimEnd block.body = block.body := by
  have hmem : { comment := [], body := block.body, wrapped := false } ∈ statements block.body := by
    rw [hbody]
    exact List.mem_singleton_self _
  obtain ⟨htidy, hclosed, -⟩ := statement_closed hcomplete hmem
  have htrim : Text.trimEnd block.body = block.body := htidy.trimEnd
  refine ⟨{ comment := hcomment, body := hclosed, tidy := ?_, noReturn := ?_ }, htrim⟩
  · rw [htrim]
    exact htidy
  · rw [htrim]
    exact hreturn

theorem commentLine_of_trim {line : Text} (hfeed : '\n' ∉ line) (htrim : Text.trim line = line)
    (hdashes : "--".toList <+: line) : CommentLine line := by
  refine ⟨hdashes, hfeed, fun c hc => ?_⟩
  rw [← htrim] at hc
  exact Text.trim_last hc

/-- Splitting a script gives back the blocks it was composed of. -/
theorem composed_blocks_read_back {blocks : List Block}
    (hbodies : ∀ block ∈ blocks, '\r' ∉ block.body ∧ Complete block.body ∧
      statements block.body = [{ comment := [], body := block.body, wrapped := false }])
    (hcomments : ∀ block ∈ blocks, ∀ line ∈ block.comment,
      '\n' ∉ line ∧ Text.trim line = line ∧ "--".toList <+: line)
    (options : ScriptOptions) :
    statements (compose blocks options) =
      blocks.map fun block =>
        { comment := block.comment, body := block.body, wrapped := true } := by
  have hread : ∀ block ∈ blocks, block.Readable ∧ Text.trimEnd block.body = block.body := by
    intro block hblock
    obtain ⟨hreturn, hcomplete, hbody⟩ := hbodies block hblock
    refine Block.readable_of_statement hreturn hcomplete hbody fun line hline => ?_
    obtain ⟨hfeed, htrim, hdashes⟩ := hcomments block hblock line hline
    exact commentLine_of_trim hfeed htrim hdashes
  rw [statements_compose (fun block hblock => (hread block hblock).1) options]
  apply List.map_congr_left
  intro block hblock
  rw [Block.statement, (hread block hblock).2]

/-- Two blocks under a header: one with a comment that looks like a marker, one whose body spans
lines and holds a semicolon in quotes. -/
theorem composed_blocks_read_back_header :
    statements (compose
        [{ comment := ["-- BEGIN;".toList, "--".toList], body := "DROP TABLE t".toList },
          { comment := [], body := "SELECT ';',\n  1".toList }] {}) =
      [{ comment := ["-- BEGIN;".toList, "--".toList], body := "DROP TABLE t".toList,
          wrapped := true },
        { comment := [], body := "SELECT ';',\n  1".toList, wrapped := true }] :=
  composed_blocks_read_back (by decide +kernel) (by decide +kernel) {}

/-! ## The second run -/

/-- A block that nothing has to be done about. -/
def Block.Settled (block : Block) : Prop :=
  Adaptation.ofBody (Text.trimEnd block.body) = { body := some (Text.trimEnd block.body) }

/-- A block without blanks at the end of its body. -/
def Block.trimmed (block : Block) : Block :=
  { block with body := Text.trimEnd block.body }

theorem emitted_compose {blocks : List Block} (h : ∀ block ∈ blocks, block.Readable)
    (hsettled : ∀ block ∈ blocks, block.Settled) (options : ScriptOptions) :
    (statements (compose blocks options)).map
        (fun statement => (statement, Adaptation.ofBody statement.body)) =
      blocks.map fun block =>
        (block.statement, { body := some (Text.trimEnd block.body) }) := by
  rw [statements_compose h options, List.map_map]
  apply List.map_congr_left
  intro block hblock
  exact congrArg (Prod.mk block.statement) (hsettled block hblock)

theorem render_trimmed (block : Block) : block.trimmed.render = block.render := by
  simp only [Block.render, Block.trimmed, terminate, Text.trimEnd_trimEnd]

theorem compose_trimmed (blocks : List Block) (options : ScriptOptions) :
    compose (blocks.map Block.trimmed) options = compose blocks options := by
  have hrender : (blocks.map Block.trimmed).map Block.render = blocks.map Block.render := by
    rw [List.map_map]
    exact List.map_congr_left fun block _ => render_trimmed block
  simp only [compose, hrender, List.isEmpty_map]

theorem blocks_settled (blocks : List Block) :
    Migration.blocks (blocks.map fun block =>
      (block.statement, { body := some (Text.trimEnd block.body) })) =
        blocks.map Block.trimmed := by
  induction blocks with
  | nil => rfl
  | cons block rest ih =>
      unfold Migration.blocks at ih ⊢
      rw [List.map_cons, List.filterMap_cons, List.map_cons]
      simp only [Option.map_some, ih]
      rfl

theorem total_settled {count : Adaptation → Nat}
    (hcount : ∀ body, count { body := some body } = 0) (blocks : List Block) :
    Migration.total count (blocks.map fun block =>
      (block.statement, { body := some (Text.trimEnd block.body) })) = 0 := by
  induction blocks with
  | nil => rfl
  | cons block rest ih => rw [List.map_cons, Migration.total, hcount, ih]

/-- A script of settled blocks is transformed to the same script with the new options. -/
theorem transform_compose {blocks : List Block} (h : ∀ block ∈ blocks, block.Readable)
    (hsettled : ∀ block ∈ blocks, block.Settled) (first second : ScriptOptions) :
    Migration.transform (compose blocks first) second =
      { sql := compose blocks second
        stats := { statements := blocks.length, indexes := 0, foreignKeys := 0 }
        warnings := []
        unsupported := [] } := by
  rw [Migration.transform, emitted_compose h hsettled first, Migration.ofAdapted]
  simp only [blocks_settled, compose_trimmed, List.length_map]
  rw [total_settled fun _ => rfl, total_settled fun _ => rfl]
  simp

theorem emitted_readable {sql : Text} (hreturn : '\r' ∉ sql) (hsql : Complete sql) {block : Block}
    (h : block ∈ emitted sql) : block.Readable := by
  have hsound := emitted_sound hsql h
  obtain ⟨statement, hstatement, -, hbody⟩ := mem_emitted h
  obtain ⟨htidy, hclosed, -⟩ := statement_closed hsql hstatement
  have hclean : '\r' ∉ block.body :=
    emitted_return htidy hclosed hbody fun hmem =>
      hreturn ((statementBody_of_mem hstatement).chars _ hmem)
  refine { toSound := hsound, tidy := (emitted_spec htidy hclosed hbody).2.1, noReturn := ?_ }
  intro hmem
  obtain ⟨back, hback, -⟩ := dropTrailing_split isBlank block.body
  apply hclean
  rw [hback]
  exact List.mem_append_left back hmem

theorem emitted_settled {sql : Text} (hsql : Complete sql)
    (hnames : ∀ statement ∈ statements sql, KeepsName statement.body) {block : Block}
    (h : block ∈ emitted sql) : block.Settled := by
  obtain ⟨statement, hstatement, -, hbody⟩ := mem_emitted h
  obtain ⟨htidy, hclosed, -⟩ := statement_closed hsql hstatement
  exact (emitted_spec htidy hclosed hbody).2.2 (hnames statement hstatement)

/-- Transforming a script again gives the script of the first text with the new options. -/
theorem transform_again {sql : Text} (hreturn : '\r' ∉ sql) (hsql : Complete sql)
    (hnames : ∀ statement ∈ statements sql, KeepsName statement.body)
    (first second : ScriptOptions) :
    Migration.transform (Migration.transform sql first).sql second =
      { sql := (Migration.transform sql second).sql
        stats :=
          { statements := (Migration.transform sql first).stats.statements
            indexes := 0
            foreignKeys := 0 }
        warnings := []
        unsupported := [] } := by
  have hreadable : ∀ block ∈ emitted sql, block.Readable :=
    fun block => emitted_readable hreturn hsql
  have hsettled : ∀ block ∈ emitted sql, block.Settled := fun block => emitted_settled hsql hnames
  rw [transform_sql, transform_sql, transform_statements,
    transform_compose hreadable hsettled first second]

/-- A migration that gains a word, loses a clause and is written with another header. -/
theorem transform_again_lost_clause :
    (Migration.transform
        (Migration.transform
          "CREATE INDEX i ON t (a); ALTER TABLE t DROP CONSTRAINT k, ADD b INT".toList {}).sql
        { header := false }).sql =
      (Migration.transform
        "CREATE INDEX i ON t (a); ALTER TABLE t DROP CONSTRAINT k, ADD b INT".toList
        { header := false }).sql := by
  rw [transform_again (by decide) (by decide +kernel) (by decide +kernel)]

end AuroraMigration
