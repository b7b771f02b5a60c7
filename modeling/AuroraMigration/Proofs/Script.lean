import AuroraMigration.Proofs.Closed

/-!
# Reading a script

A script is a sequence of pieces with a semicolon behind each: for every block
its comment and `BEGIN`, the body, and `COMMIT`. All pieces are closed, so a scan
of the script sees these semicolons outside parentheses and no others.
-/

namespace AuroraMigration

/-! ## Comment lines in front -/

/-- Lines, each with a line feed behind it. -/
def lineBlock (lines : List Text) : Text :=
  lines.flatMap (· ++ ['\n'])

@[simp] theorem lineBlock_nil : lineBlock [] = [] := rfl

@[simp] theorem lineBlock_cons (line : Text) (lines : List Text) :
    lineBlock (line :: lines) = line ++ '\n' :: lineBlock lines := by
  simp [lineBlock]

theorem join_feed {lines : List Text} (h : lines ≠ []) :
    Text.join ['\n'] lines ++ ['\n'] = lineBlock lines := by
  induction lines with
  | nil => exact absurd rfl h
  | cons line lines ih =>
      by_cases hnil : lines = []
      · subst hnil
        simp [Text.join]
      · rw [Text.join_cons hnil, List.append_assoc, ih hnil]
        simp

theorem skipped_lineBlock {lines : List Text} (h : ∀ line ∈ lines, CommentLine line) :
    ∃ steps, Skipped (lineBlock lines) steps := by
  induction lines with
  | nil => exact ⟨[], skipped_nil⟩
  | cons line lines ih =>
      have hline := h line List.mem_cons_self
      obtain ⟨later, hlater⟩ := ih fun x hx => h x (List.mem_cons_of_mem line hx)
      obtain ⟨words, hwords⟩ := hline.dashes
      have hfeed : '\n' ∉ words := by
        intro hmem
        apply hline.feed
        rw [← hwords]
        exact List.mem_append_right _ hmem
      obtain ⟨steps, hsteps⟩ := skipped_commentLine hfeed
      refine ⟨steps ++ later, ?_⟩
      have htext : lineBlock (line :: lines) =
          ("--".toList ++ words ++ ['\n']) ++ lineBlock lines := by
        rw [hwords]
        simp
      rw [htext]
      exact hsteps.append hlater

theorem CommentLine.trim {line : Text} (h : CommentLine line) : Text.trim line = line := by
  refine Text.trim_eq_self ?_ h.last
  obtain ⟨words, hwords⟩ := h.dashes
  intro c hc
  rw [← hwords] at hc
  obtain rfl := Option.some.inj hc
  decide

theorem CommentLine.lines {line : Text} (h : CommentLine line) (rest : Text) :
    Text.lines (line ++ '\n' :: rest) = line :: Text.lines rest := by
  rw [Text.lines_append_feed h.feed, Text.dropReturn, if_neg]
  intro hreturn
  exact absurd (h.last _ hreturn) (by decide)

/-- Reading comment lines collects them. -/
theorem leadingComment_lineBlock (comment : List Text) {lines : List Text}
    (h : ∀ line ∈ lines, CommentLine line) (rest : Text) :
    leadingComment comment (Text.lines (lineBlock lines ++ rest)) =
      leadingComment (comment ++ lines) (Text.lines rest) := by
  induction lines generalizing comment with
  | nil => simp
  | cons line lines ih =>
      have hline := h line List.mem_cons_self
      have hdashes : "--".toList <+: Text.trim line := by
        rw [hline.trim]
        exact hline.dashes
      rw [lineBlock_cons, List.append_assoc, List.cons_append, hline.lines,
        leadingComment_comment comment hdashes, hline.trim,
        ih (comment ++ [line]) fun x hx => h x (List.mem_cons_of_mem line hx), List.append_assoc,
        List.singleton_append]

/-! ## The header -/

/-- The lines of a script's header. -/
def headerLines (generatedAt : Option Instant) : List Text :=
  ["-- Transformed for Aurora DSQL".toList] ++
    (match generatedAt with
      | some instant => ["-- Generated at: ".toList ++ instant.render]
      | none => []) ++
    ["-- Each statement runs in its own transaction; indexes are built asynchronously.".toList]

theorem headerText_eq (generatedAt : Option Instant) :
    headerText generatedAt = Text.join ['\n'] (headerLines generatedAt) := rfl

theorem feed_not_mem_padded (width n : Nat) : '\n' ∉ padded width n := by
  intro h
  rcases List.mem_append.1 h with h | h
  · exact absurd (List.eq_of_mem_replicate h) (by decide)
  · have hdigit := Nat.isDigit_of_mem_toDigits (by decide) (by decide) h
    exact absurd hdigit (by decide)

theorem feed_not_mem_render (instant : Instant) : '\n' ∉ instant.render := by
  have hyear : ∀ year, '\n' ∉ yearText year := by
    intro year h
    unfold yearText at h
    split at h
    · exact feed_not_mem_padded _ _ h
    · rcases List.mem_cons.1 h with h | h
      · split at h <;> exact absurd h (by decide)
      · exact feed_not_mem_padded _ _ h
  simp only [Instant.render, List.mem_append, List.mem_singleton, not_or]
  simp only [hyear, feed_not_mem_padded, not_false_eq_true, true_and, and_true]
  decide

theorem commentLine_header (generatedAt : Option Instant) :
    ∀ line ∈ headerLines generatedAt, CommentLine line := by
  intro line hline
  unfold headerLines at hline
  simp only [List.mem_append, List.mem_singleton] at hline
  rcases hline with (rfl | hline) | rfl
  · refine ⟨by decide, by decide, fun c hc => ?_⟩
    obtain rfl : 'L' = c := Option.some.inj hc
    decide
  · cases generatedAt with
    | none => cases hline
    | some instant =>
        rw [List.mem_singleton.1 hline]
        refine ⟨⟨" Generated at: ".toList ++ instant.render, rfl⟩, ?_, ?_⟩
        · rw [List.mem_append]
          rintro (h | h)
          · exact absurd h (by decide)
          · exact feed_not_mem_render instant h
        · intro c hc
          rw [Instant.render, ← List.append_assoc, List.getLast?_concat, Option.some.injEq] at hc
          rw [← hc]
          decide
  · refine ⟨by decide, by decide, fun c hc => ?_⟩
    obtain rfl : '.' = c := Option.some.inj hc
    decide

/-! ## Pieces with semicolons behind them -/

/-- A text that a semicolon outside all parentheses can follow. -/
structure ClosedPiece (piece : Text) : Prop where
  ends : scanEnd piece = .start
  separators : ∀ step ∈ scan piece, step.isTopLevel ';' = false

theorem not_separator_of_inert {step : Step} (h : step.isSignificant = false) :
    step.isTopLevel ';' = false := by
  cases htop : step.isTopLevel ';' with
  | false => rfl
  | true =>
      simp only [Step.isTopLevel, Bool.and_eq_true, beq_iff_eq] at htop
      simp only [Step.isSignificant, htop.1.1, htop.2] at h
      exact absurd h (by decide)

theorem ClosedPiece.skip {text piece : Text} {steps : List Step} (h : ClosedPiece piece)
    (hskip : Skipped text steps) :
    ClosedPiece (text ++ piece) ∧ lexemes (scan (text ++ piece)) = lexemes (scan piece) := by
  have hscan := hskip.scan_append piece
  refine ⟨⟨?_, ?_⟩, ?_⟩
  · rw [scanEnd_eq_lastState, hscan, lastState_append, hskip.state, ← scanEnd_eq_lastState, h.ends]
  · rw [hscan]
    intro step hstep
    rcases List.mem_append.1 hstep with hstep | hstep
    · exact not_separator_of_inert (hskip.inert step hstep)
    · exact h.separators step hstep
  · rw [hscan, lexemes_inert_append hskip.inert]

/-- Texts with a semicolon behind each. -/
def withSeparators (pieces : List Text) : Text :=
  pieces.flatMap (· ++ [';'])

@[simp] theorem withSeparators_nil : withSeparators [] = [] := rfl

@[simp] theorem withSeparators_cons (piece : Text) (pieces : List Text) :
    withSeparators (piece :: pieces) = piece ++ ';' :: withSeparators pieces := by
  simp [withSeparators]

@[simp] theorem withSeparators_append (pieces others : List Text) :
    withSeparators (pieces ++ others) = withSeparators pieces ++ withSeparators others := by
  simp [withSeparators]

/-- Cutting at semicolons gives back the pieces they were put behind. -/
theorem piecesAt_withSeparators {pieces : List Text} (h : ∀ piece ∈ pieces, ClosedPiece piece)
    {last : Text} (hlast : ∀ step ∈ scan last, step.isTopLevel ';' = false) :
    piecesAt ';' (withSeparators pieces ++ last) = pieces ++ [last] := by
  have hsplit : SplitsOn (Step.isTopLevel ';') (scan (withSeparators pieces ++ last))
      (pieces.map scan ++ [scan last]) := by
    induction pieces with
    | nil => exact .last hlast
    | cons piece pieces ih =>
        have hpiece := h piece List.mem_cons_self
        have hscan : scan (withSeparators (piece :: pieces) ++ last) =
            scan piece ++ codeStep 0 ';' :: scan (withSeparators pieces ++ last) := by
          rw [withSeparators_cons, List.append_assoc, List.cons_append]
          exact scan_append_separator hpiece.ends (withSeparators pieces ++ last)
        rw [hscan]
        exact .cut hpiece.separators rfl (ih fun x hx => h x (List.mem_cons_of_mem piece hx))
  rw [piecesAt, hsplit.splitOnP_eq, List.map_append, List.map_map]
  simp [Function.comp_def]

/-! ## Blocks one after the other -/

/-- What stands in front of the first block. -/
def scriptLead (options : ScriptOptions) : Text :=
  if options.header then lineBlock (headerLines options.generatedAt) ++ ['\n'] else []

theorem Text.join_append {separator : Text} {parts others : List Text} (hparts : parts ≠ [])
    (hothers : others ≠ []) :
    Text.join separator (parts ++ others) =
      Text.join separator parts ++ (separator ++ Text.join separator others) := by
  induction parts with
  | nil => exact absurd rfl hparts
  | cons part parts ih =>
      by_cases hnil : parts = []
      · subst hnil
        rw [List.singleton_append, Text.join_cons hothers, List.append_assoc]
        rfl
      · rw [List.cons_append, Text.join_cons (by simp [hnil]), ih hnil, Text.join_cons hnil]
        simp only [List.append_assoc]

theorem join_render_last {blocks : List Block} (h : blocks ≠ []) :
    (Text.join "\n\n".toList (blocks.map Block.render)).getLast? = some ';' := by
  obtain ⟨front, block, rfl⟩ := (List.eq_nil_or_concat' blocks).resolve_left h
  have hblock : block.render.getLast? = some ';' := by
    rw [Block.render, List.getLast?_append]
    rfl
  rw [List.map_append]
  by_cases hfront : front = []
  · subst hfront
    exact hblock
  · rw [Text.join_append (by simpa using hfront) (by simp), List.getLast?_append,
      List.getLast?_append]
    change ((block.render.getLast?).or _).or _ = _
    rw [hblock]
    rfl

/-- A script is its header and its blocks, with empty lines between them and one line feed at the
end. -/
theorem compose_eq {blocks : List Block} (hne : blocks ≠ []) (options : ScriptOptions) :
    compose blocks options =
      scriptLead options ++ Text.join "\n\n".toList (blocks.map Block.render) ++ ['\n'] := by
  have hlast := join_render_last hne
  generalize hblocks : Text.join "\n\n".toList (blocks.map Block.render) = text at hlast
  have hjoin : Text.join "\n\n".toList
      ((if options.header && !blocks.isEmpty then [headerText options.generatedAt] else []) ++
        blocks.map Block.render) = scriptLead options ++ text := by
    have hlines : headerLines options.generatedAt ≠ [] := by simp [headerLines]
    rw [scriptLead, ← hblocks]
    cases hheader : options.header with
    | false => simp
    | true =>
        have hfilled : blocks.isEmpty = false := by simpa using hne
        simp only [hfilled, Bool.not_false, Bool.and_self, if_true]
        rw [List.singleton_append, Text.join_cons (by simpa using hne), headerText_eq,
          ← join_feed hlines]
        simp
  have hend : (scriptLead options ++ text).getLast? = some ';' := by
    rw [List.getLast?_append, hlast]
    rfl
  have htrim : Text.trimEnd (scriptLead options ++ text) = scriptLead options ++ text := by
    apply Text.trimEnd_eq_self
    rw [hend]
    rintro c ⟨⟩
    decide
  have hsome : scriptLead options ++ text ≠ [] := by
    intro hnil
    rw [hnil] at hend
    cases hend
  unfold compose
  dsimp only
  rw [hjoin, htrim, if_neg (by simpa using hsome)]

/-! ## The pieces of a script -/

/-- The pieces of a block that `lead` stands in front of. -/
def Block.pieces (lead : Text) (block : Block) : List Text :=
  [lead ++ (lineBlock block.comment ++ "BEGIN".toList), ['\n'] ++ Text.trimEnd block.body,
    "\nCOMMIT".toList]

/-- The pieces of all blocks; empty lines part later blocks from those before them. -/
def scriptPieces : Text → List Block → List Text
  | _, [] => []
  | lead, block :: rest => block.pieces lead ++ scriptPieces "\n\n".toList rest

theorem render_pieces {block : Block} (h : ClosedBody block.body) (lead : Text) :
    lead ++ block.render = withSeparators (block.pieces lead) := by
  rw [Block.render, terminate_closed h]
  simp [Block.pieces, lineBlock]

theorem join_pieces (lead : Text) {blocks : List Block} (hne : blocks ≠ [])
    (h : ∀ block ∈ blocks, ClosedBody block.body) :
    lead ++ Text.join "\n\n".toList (blocks.map Block.render) =
      withSeparators (scriptPieces lead blocks) := by
  induction blocks generalizing lead with
  | nil => exact absurd rfl hne
  | cons block rest ih =>
      have hblock := render_pieces (h block List.mem_cons_self) lead
      by_cases hnil : rest = []
      · subst hnil
        simpa [scriptPieces, Text.join] using hblock
      · have hrest := ih "\n\n".toList hnil fun x hx => h x (List.mem_cons_of_mem block hx)
        rw [List.map_cons, Text.join_cons (by simpa using hnil), scriptPieces,
          withSeparators_append, ← hrest, ← hblock]
        simp

/-- A script is its pieces with semicolons behind them and one line feed at the end. -/
theorem compose_pieces {blocks : List Block} (hne : blocks ≠ [])
    (h : ∀ block ∈ blocks, ClosedBody block.body) (options : ScriptOptions) :
    compose blocks options =
      withSeparators (scriptPieces (scriptLead options) blocks) ++ ['\n'] := by
  rw [compose_eq hne, join_pieces _ hne h]

theorem compose_nil (options : ScriptOptions) : compose [] options = [] := by
  cases options with
  | mk header force generatedAt => cases header <;> rfl

end AuroraMigration
