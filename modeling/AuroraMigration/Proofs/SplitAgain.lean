import AuroraMigration.Proofs.OpenEnd

/-!
# Splitting a body again

The body of a statement is in normal form wherever the migration ends, also
inside quotes or parentheses: it is trimmed, ends in a token, has no blanks at
line ends outside quotes and does not start with a comment line. A body in normal
form without a semicolon outside parentheses is its own only statement.
-/

namespace AuroraMigration

/-! ## Bodies in normal form -/

/-- A body in the normal form that fragments have, closed or left open. -/
structure NormalBody (body : Text) : Prop where
  solid : ∀ c, body.head? = some c → isBlank c = false
  solidEnd : ∀ c, body.getLast? = some c → isBlank c = false
  dashes : ¬ "--".toList <+: body
  lines : LineTidy (scan body)
  last : ∀ step, (scan body).getLast? = some step → step.isSignificant = true
  tokens : lexemes (scan body) ≠ []

theorem TidyBody.normal {body : Text} (h : TidyBody body) : NormalBody body :=
  ⟨h.solid, fun _ hc => h.solid_last hc, h.dashes, h.lines, h.last, h.tokens⟩

/-- A body in normal form is its own normal form. -/
theorem NormalBody.tidyBody {body : Text} (h : NormalBody body) : tidyBody body = body := by
  have hcomments : trimComments body = body := by
    change stepsText (significantPart (scan body)) = body
    rw [significantPart_of_last h.last, stepsText_scan]
  rw [AuroraMigration.tidyBody, hcomments, dropLineBlanks_eq_self h.lines, stepsText_scan]
  exact Text.trim_eq_self h.solid h.solidEnd

theorem NormalBody.join_lines {body : Text} (h : NormalBody body) (hreturn : '\r' ∉ body) :
    Text.join ['\n'] (Text.lines body) = body := by
  rw [Text.join_lines, Text.dropReturns_of_not_mem hreturn, Text.chomp, if_neg]
  intro hfeed
  exact absurd (h.solidEnd _ hfeed) (by decide)

theorem trim_prefix_trimStart (text : Text) : Text.trim text <+: Text.trimStart text := by
  obtain ⟨back, hback, -⟩ := dropTrailing_split isBlank (Text.trimStart text)
  exact ⟨back, hback.symm⟩

/-- No comment is read above a body in normal form. -/
theorem NormalBody.leadingComment {body : Text} (h : NormalBody body) :
    leadingComment [] (Text.lines body) = ([], Text.lines body) := by
  have hne : body ≠ [] := by
    rintro rfl
    exact h.tokens rfl
  have hfirst : ∀ {line more : Text}, body = line ++ more → line ≠ [] →
      Text.trim line ≠ [] ∧ ¬ "--".toList <+: Text.trim line := by
    rintro line more rfl hline
    have hsolid : ∀ c, line.head? = some c → isBlank c = false := by
      intro c hc
      apply h.solid
      rw [List.head?_append, hc]
      rfl
    constructor
    · intro hempty
      obtain ⟨c, rest, rfl⟩ := List.exists_cons_of_ne_nil hline
      have hblank := blank_of_trim_eq_nil hempty c List.mem_cons_self
      rw [hsolid c rfl] at hblank
      cases hblank
    · intro hdashes
      have hline := hdashes.trans (trim_prefix_trimStart line)
      rw [Text.trimStart_eq_self hsolid] at hline
      exact h.dashes (hline.trans (List.prefix_append _ _))
  by_cases hfeed : '\n' ∈ body
  · obtain ⟨line, rest, hsplit, hline⟩ := List.eq_append_cons_of_mem hfeed
    have hlineNe : line ≠ [] := by
      rintro rfl
      have hsolid := h.solid '\n' (by rw [hsplit]; rfl)
      exact absurd hsolid (by decide)
    obtain ⟨htrim, hdashes⟩ := hfirst hsplit hlineNe
    rw [hsplit, Text.lines_append_feed hline, leadingComment_body]
    · rw [Text.trim_dropReturn]
      exact htrim
    · rw [Text.trim_dropReturn]
      exact hdashes
  · obtain ⟨htrim, hdashes⟩ := hfirst (List.append_nil body).symm hne
    rw [Text.lines_of_not_mem hfeed hne, leadingComment_body [] htrim hdashes]

/-- Comment lines that `lead` ends in front of are not read as a comment of what follows. -/
def Detached (lead : Text) : Prop :=
  ∀ rest, leadingComment [] (Text.lines (lead ++ rest)) = leadingComment [] (Text.lines rest)

theorem detached_nil : Detached [] := fun _ => rfl

theorem leadingComment_feed (comment : List Text) (rest : Text) :
    leadingComment comment (Text.lines ('\n' :: rest)) = leadingComment [] (Text.lines rest) :=
  leadingComment_blank comment rfl _

theorem detached_feed : Detached ['\n'] :=
  leadingComment_feed []

/-- A body in normal form is the fragment of a piece that holds nothing else. -/
theorem NormalBody.ofPiece? {body : Text} (h : NormalBody body) (hreturn : '\r' ∉ body)
    {lead : Text} (hlead : Detached lead) :
    Fragment.ofPiece? (lead ++ body) = some { comment := [], body } := by
  have hread : AuroraMigration.leadingComment [] (Text.lines (lead ++ body)) =
      ([], Text.lines body) := by
    rw [hlead, h.leadingComment]
  have hbody : AuroraMigration.tidyBody (Text.join ['\n']
      (AuroraMigration.leadingComment [] (Text.lines (lead ++ body))).2) = body := by
    rw [hread, h.join_lines hreturn, h.tidyBody]
  rw [Fragment.ofPiece?_of_body hbody, if_neg h.tokens, hread]

/-! ## The bodies of fragments -/

/-- Bringing a body into normal form puts no two dashes at its start. -/
theorem tidyBody_dashes {raw : Text} (h : ¬ "--".toList <+: Text.trimStart raw) :
    ¬ "--".toList <+: tidyBody raw := by
  intro hahead
  have hstart := hahead.trans (trim_prefix_trimStart _)
  have hbreak : ∀ step ∈ scan (trimComments raw), isBreak step.first = true → step.more = [] :=
    fun step hstep => ((trace_scan _).more_not_break wellTagged_start step hstep).1
  have hkept := (dropLineBlanks_thinned _).dashes hbreak hstart
  rw [stepsText_scan] at hkept
  obtain ⟨tail, htail⟩ := significantPart_isPrefix (scan raw)
  have hraw : trimComments raw ++ stepsText tail = raw := by
    conv_rhs => rw [← stepsText_scan raw, ← htail, stepsText_append]
    rfl
  apply h
  rw [← hraw]
  exact dashes_append _ hkept

theorem chomp_dashes {text : Text} (h : ¬ "--".toList <+: Text.trimStart text) :
    ¬ "--".toList <+: Text.trimStart (Text.chomp text) := by
  unfold Text.chomp
  split
  · rename_i hfeed
    intro hahead
    apply h
    rw [← List.dropLast_append_getLast? _ hfeed]
    exact dashes_append _ hahead
  · exact h

/-- The body of a fragment is in normal form, wherever its piece ends. -/
theorem Fragment.ofPiece?_normal {piece : Text} {fragment : Fragment}
    (h : Fragment.ofPiece? piece = some fragment) : NormalBody fragment.body := by
  have hheld := Fragment.ofPiece?_held h
  have htokens := (Fragment.ofPiece?_some h).2
  rcases rawSteps_of_piece piece with ⟨hnone, -⟩ | ⟨steps, hsteps⟩
  · rw [hnone] at h
    cases h
  · have hbody : fragment.body = tidyBody (Text.chomp (stepsText steps)) := by
      rw [hsteps.ofPiece?] at h
      split at h
      · cases h
      · rw [← Option.some.inj h]
    refine ⟨?_, ?_, ?_, hheld.lines, hheld.last, htokens⟩
    · intro c hc
      rw [hbody] at hc
      exact Text.trim_head hc
    · intro c hc
      rw [hbody] at hc
      exact Text.trim_last hc
    · rw [hbody]
      exact tidyBody_dashes (chomp_dashes hsteps.dashes)

/-- What is known of the body of a statement, wherever the migration ends. -/
structure StatementBody (sql body : Text) : Prop extends NormalBody body where
  separators : ∀ step ∈ scan body, step.isTopLevel ';' = false
  marker : Marker.ofLexemes? (lexemes (scan body)) = none
  chars : ∀ c ∈ body, c ∈ sql

theorem statementBody_of_mem {sql : Text} {statement : Statement}
    (h : statement ∈ statements sql) : StatementBody sql statement.body := by
  obtain ⟨-, fragment, hmem, hbody, hmarker⟩ := statementsFrom_mem h
  have hsolid := (fragment_solid hmem hmarker).1
  rw [fragments_eq] at hmem
  obtain ⟨part, hpart, hsome⟩ := List.mem_filterMap.1 hmem
  have hpiece : PieceOf ';' sql part := pieceOf_of_mem (by decide) hpart
  rw [hbody]
  refine ⟨Fragment.ofPiece?_normal hsome, hsolid.separators, hsolid.marker, ?_⟩
  intro c hc
  rw [← stepsText_scan fragment.body] at hc
  have hin := mem_stepsText_of_sublist (Fragment.ofPiece?_held hsome).sublist hc
  rw [stepsText_scan] at hin
  exact hpiece.chars c hin

/-! ## Statements of a body -/

/-- A text without a semicolon outside parentheses is one piece. -/
theorem piecesAt_eq_self {separator : Char} {text : Text}
    (h : ∀ step ∈ scan text, step.isTopLevel separator = false) :
    piecesAt separator text = [text] := by
  rw [piecesAt, List.splitOnP_eq_singleton h, List.map_singleton, stepsText_scan]

theorem StatementBody.statements {sql body : Text} (h : StatementBody sql body)
    (hreturn : '\r' ∉ sql) :
    statements body = [{ comment := [], body, wrapped := false }] := by
  have hclean : '\r' ∉ body := fun hmem => hreturn (h.chars _ hmem)
  have hfragments : fragments body = [{ comment := [], body }] := by
    have hpiece := h.toNormalBody.ofPiece? hclean detached_nil
    rw [List.nil_append] at hpiece
    rw [fragments, piecesAt_eq_self h.separators, List.filterMap_cons_some hpiece]
    rfl
  have hmarker : Fragment.marker? { comment := [], body } = none := by
    rw [marker?_eq]
    exact h.marker
  rw [AuroraMigration.statements, hfragments]
  simp only [statementsFrom, hmarker]
  rfl

/--
Splitting leaves statements that splitting leaves alone.

The body of a statement is its own only statement, without a comment and outside
a transaction, and the comment above it consists of whole comment lines. Nothing
is asked of the end of the migration.
-/
theorem bodies_split_again {sql : Text} (hreturn : '\r' ∉ sql) {statement : Statement}
    (h : statement ∈ statements sql) :
    statements statement.body = [{ comment := [], body := statement.body, wrapped := false }] ∧
      ∀ line ∈ statement.comment,
        line ≠ [] ∧ '\n' ∉ line ∧ Text.trim line = line ∧ "--".toList <+: line := by
  refine ⟨(statementBody_of_mem h).statements hreturn, fun line hline => ?_⟩
  have hcomment := statement_comment h line hline
  refine ⟨?_, hcomment.feed, hcomment.trim, hcomment.dashes⟩
  rintro rfl
  exact absurd hcomment.dashes (by decide)

/-- The comment above a begin marker, and a body that ends in parentheses and in a string with
blanks before its line feed and a semicolon. -/
theorem bodies_split_again_open_string :
    '\r' ∉ "-- a \nBEGIN; END;\n-- b\n f( -- c\n'x \n; ".toList ∧
      statements "-- a \nBEGIN; END;\n-- b\n f( -- c\n'x \n; ".toList =
        [{ comment := ["-- a".toList, "-- b".toList], body := "f( -- c\n'x \n;".toList,
            wrapped := false }] ∧
      statements "f( -- c\n'x \n;".toList =
        [{ comment := [], body := "f( -- c\n'x \n;".toList, wrapped := false }] := by
  have hsplit : statements "-- a \nBEGIN; END;\n-- b\n f( -- c\n'x \n; ".toList =
      [{ comment := ["-- a".toList, "-- b".toList], body := "f( -- c\n'x \n;".toList,
          wrapped := false }] := by
    decide +kernel
  have hreturn : '\r' ∉ "-- a \nBEGIN; END;\n-- b\n f( -- c\n'x \n; ".toList := by decide
  have hmem := List.mem_singleton_self
    (Statement.mk ["-- a".toList, "-- b".toList] "f( -- c\n'x \n;".toList false)
  rw [← hsplit] at hmem
  exact ⟨hreturn, hsplit, (bodies_split_again hreturn hmem).1⟩

end AuroraMigration
