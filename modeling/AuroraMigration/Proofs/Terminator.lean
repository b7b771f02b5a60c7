import AuroraMigration.Proofs.OpenEnd

/-!
# The semicolon behind a statement

Where the semicolon goes is decided by looking for dashes in the comments at the
end of a body. That is enough: a line comment that is still open was opened by
dashes behind the last token, and a block comment that is closed ends in a
slash. So the semicolon is always read as code, and it is the one that the body
had or the only token that is new.
-/

namespace AuroraMigration

theorem Text.hasPart_iff (part text : Text) : Text.hasPart part text = true ↔ part <:+: text := by
  induction text with
  | nil => simp [Text.hasPart]
  | cons c rest ih =>
      rw [Text.hasPart, Bool.or_eq_true, List.isPrefixOf_iff_prefix, ih, List.infix_cons_iff]

/-! ## Comments at the end -/

/-- All that a step in comments can do: read on in one, open one or close one. -/
theorem stepAt_comment (s : ScanState) (c : Char) (rest : Text)
    (hcls : (stepAt s c rest).cls = .comment) :
    ((stepAt s c rest).after.mode = .lineComment ∧
      (s.mode = .lineComment ∨ (stepAt s c rest).chars = "--".toList)) ∨
    (∃ level, (stepAt s c rest).after.mode = .blockComment level) ∨
    ((stepAt s c rest).after.mode = .code ∧
      ((stepAt s c rest).chars = ['\n'] ∨ (stepAt s c rest).chars = "*/".toList)) := by
  cases stepAt_action s c rest with
  | code _ hcode => simp [hcode] at hcls
  | opens _ _ hregion hmark =>
      rcases Mode.comment_of_cls (hregion.symm.trans hcls) with hline | hblock
      · exact .inl ⟨hline, .inr (by rw [hmark, hline]; rfl)⟩
      · exact .inr (.inl hblock)
  | stays _ hregion hsame =>
      rw [hsame]
      rcases Mode.comment_of_cls (hregion.symm.trans hcls) with hline | hblock
      · exact .inl ⟨hline, .inl hline⟩
      · exact .inr (.inl hblock)
  | nests _ level _ _ _ hafter => exact .inr (.inl ⟨level, hafter⟩)
  | closes _ hregion hcloser hafter =>
      refine .inr (.inr ⟨hafter, ?_⟩)
      rcases Mode.comment_of_cls (hregion.symm.trans hcls) with hline | ⟨level, hblock⟩
      · exact .inl (by rw [hcloser, hline]; rfl)
      · exact .inr (by rw [hcloser, hblock]; rfl)

/-- Only dashes open a line comment. -/
theorem stepAt_opens_line {s : ScanState} {c : Char} {rest : Text}
    (h : (stepAt s c rest).after.mode = .lineComment) :
    s.mode = .lineComment ∨ (stepAt s c rest).chars = "--".toList := by
  cases stepAt_shape s c rest with
  | code _ _ _ hafter => simp [hafter] at h
  | quoted _ _ hafter => simp [h, Mode.isQuoted] at hafter
  | comment _ hcls => simpa [h] using stepAt_comment s c rest hcls

/-- Steps that lead into a line comment hold the dashes that open it. -/
theorem Trace.dashes_of_lineComment {s : ScanState} {steps : List Step} {rest : Text}
    (h : Trace s steps rest) (hs : s.mode ≠ .lineComment)
    (hend : (lastState s steps).mode = .lineComment) : "--".toList <:+: stepsText steps := by
  induction steps generalizing s with
  | nil => exact absurd hend hs
  | cons step later ih =>
      obtain ⟨hstep, hlater⟩ := h
      rw [stepsText_cons]
      by_cases hafter : step.after.mode = .lineComment
      · rw [← hstep] at hafter
        have hdashes := (stepAt_opens_line hafter).resolve_left hs
        rw [hstep] at hdashes
        rw [hdashes]
        exact List.infix_append [] _ _
      · exact (ih hlater hafter hend).trans (List.suffix_append _ _).isInfix

/-! ## Bodies that can be ended -/

/-- A body that ends in code or in a line comment, outside all parentheses. -/
structure Endable (body : Text) : Prop where
  mode : (scanEnd body).mode = .code ∨ (scanEnd body).mode = .lineComment
  depth : (scanEnd body).depth = 0

/-- Whether a body ends in a semicolon outside comments, up to blanks. -/
def hasTerminator (body : Text) : Bool :=
  (scan (Text.trimEnd body)).getLast?.any fun step =>
    step.cls != .comment && step.chars.getLast? == some ';'

namespace Endable

variable {body : Text}

theorem unquoted (h : Endable body) : (scanEnd body).mode.isQuoted = false := by
  rcases h.mode with hmode | hmode <;> rw [hmode] <;> rfl

/-- The blanks at the end of a body hold no token and end no region but a line comment. -/
theorem trimEnd (h : Endable body) :
    Endable (Text.trimEnd body) ∧
      lexemes (scan (Text.trimEnd body)) = lexemes (scan body) := by
  obtain ⟨back, hback, hscan⟩ := scan_trimEnd_split body
  have htrace := trace_scanFrom (scanEnd (Text.trimEnd body)) back
  have hblank := scanFrom_blank (scanEnd (Text.trimEnd body)) hback
  have hend : scanEnd body = lastState (scanEnd (Text.trimEnd body))
      (scanFrom (scanEnd (Text.trimEnd body)) 0 back) := by
    rw [scanEnd_eq_lastState body, hscan, lastState_append, ← scanEnd_eq_lastState]
  have htagged := scanEnd_wellTagged (Text.trimEnd body)
  have hunquoted := h.unquoted
  refine ⟨?_, ?_⟩
  · rcases htrace.after_blank hblank with hsame | ⟨hline, hclosed⟩
    · rw [hsame] at hend
      exact ⟨hend ▸ h.mode, hend ▸ h.depth⟩
    · rw [hclosed] at hend
      have hdepth := h.depth
      rw [hend] at hdepth
      exact ⟨.inr hline, hdepth⟩
  · rw [hend] at hunquoted
    rw [hscan, lexemes_append_inert (htrace.inert_of_blank htagged hblank hunquoted)]

/-- A semicolon on the next line is the next token, also behind a line comment. -/
theorem scan_next_line (h : Endable body) :
    ∃ feed : Step, feed.isSignificant = false ∧
      scan (body ++ "\n;".toList) = scan body ++ [feed, codeStep 0 ';'] := by
  have hboundary : Boundary "\n;".toList := (boundary_cons _ _).2 (by decide)
  have hmode := h.mode
  have hdepth := h.depth
  rw [scan_append body hboundary]
  generalize scanEnd body = state at hmode hdepth
  obtain ⟨mode, depth⟩ := state
  rcases hmode with rfl | rfl <;> cases hdepth
  · exact ⟨codeStep 0 '\n', by decide, rfl⟩
  · exact ⟨stepAt ⟨.lineComment, 0⟩ '\n' [';'], by decide, rfl⟩

end Endable

/-- What is looked through for dashes is what follows the last token. -/
theorem comment_tail (body : Text) :
    ∃ tail, scan body = significantPart (scan body) ++ tail ∧
      (∀ step ∈ tail, step.isSignificant = false) ∧
      body.drop (trimComments body).length = stepsText tail := by
  obtain ⟨tail, hsplit, htail⟩ := significantPart_split (scan body)
  refine ⟨tail, hsplit, htail, ?_⟩
  have hbody : body = trimComments body ++ stepsText tail := by
    have htext := congrArg stepsText hsplit
    rwa [stepsText_scan, stepsText_append] at htext
  generalize trimComments body = kept at hbody ⊢
  rw [hbody, List.drop_left]

/-- The last character of a text is that of its last step. -/
theorem getLast?_of_scan {text : Text} {step : Step} (h : (scan text).getLast? = some step) :
    text.getLast? = step.chars.getLast? := by
  obtain ⟨before, hsteps⟩ := List.getLast?_eq_some_iff.1 h
  rw [← stepsText_scan text, hsteps, stepsText_append, stepsText_cons, stepsText_nil,
    List.append_nil]
  exact List.getLast?_append_of_ne_nil _ (by simp [Step.chars])

theorem last_of_hasTerminator {body : Text} (h : hasTerminator body = true) :
    ∃ step, (scan (Text.trimEnd body)).getLast? = some step ∧ step.cls ≠ .comment ∧
      (Text.trimEnd body).getLast? = some ';' := by
  simp only [hasTerminator, Option.any_eq_true, Bool.and_eq_true, bne_iff_ne, beq_iff_eq] at h
  obtain ⟨step, hstep, hcls, hchar⟩ := h
  exact ⟨step, hstep, hcls, by rw [getLast?_of_scan hstep, hchar]⟩

/-- Behind the last token, a body without blanks at its end can only end in a comment. -/
theorem cls_of_inert_last {body : Text} (hsolid : Text.trimEnd body = body) {step : Step}
    (hlast : (scan body).getLast? = some step) (hinert : step.isSignificant = false) :
    step.cls = .comment := by
  cases (trace_scan body).shape step (List.mem_of_getLast? hlast) with
  | code _ hcls hmore =>
      have hbody : (Text.trimEnd body).getLast? = some step.first := by
        rw [hsolid, getLast?_of_scan hlast]
        simp [Step.chars, hmore]
      have hblank := Text.trimEnd_last hbody
      simp [Step.isSignificant, hcls, hblank] at hinert
  | quoted _ hcls =>
      rw [Step.not_quoted_of_inert hinert] at hcls
      contradiction
  | comment _ hcls => exact hcls

/-! ## Ended bodies -/

/-- How a body is ended: its own semicolon stays, or a new one follows its last token. -/
inductive EndedBy (body ended : Text) : Prop
  | own : ended = body → hasTerminator body = true →
      (scan ended).getLast? = some (codeStep 0 ';') → EndedBy body ended
  | added (between : List Step) : hasTerminator body = false →
      (∀ step ∈ between, step.isSignificant = false) →
      scan ended = scan body ++ (between ++ [codeStep 0 ';']) → EndedBy body ended

theorem endedBy_of_token {body : Text} (h : Endable body) (hsolid : Text.trimEnd body = body)
    (hlast : ∀ step, (scan body).getLast? = some step → step.isSignificant = true) :
    EndedBy body (terminate body) := by
  have hall : trimComments body = body := by
    change stepsText (significantPart (scan body)) = body
    rw [significantPart_of_last hlast, stepsText_scan]
  have hstart : scanEnd body = .start := by
    rw [← hall, scanEnd_trimComments h.unquoted, h.depth]
    rfl
  have hdashes : Text.hasPart "--".toList ([] : Text) = false := by decide
  unfold terminate
  simp only [hsolid, hall, List.drop_length, hdashes, Bool.false_eq_true, if_false]
  by_cases hsep : body.getLast? = some ';'
  · have hstep := last_separator hstart hlast hsep
    rw [if_pos hsep]
    refine .own rfl ?_ hstep
    rw [hasTerminator, hsolid, hstep]
    rfl
  · rw [if_neg hsep]
    refine .added [] ?_ (by simp) (scan_append_separator hstart [])
    rw [Bool.eq_false_iff]
    intro hown
    obtain ⟨step, -, -, hchar⟩ := last_of_hasTerminator hown
    exact hsep (hsolid ▸ hchar)

theorem endedBy_of_comment {body : Text} (h : Endable body) (hsolid : Text.trimEnd body = body)
    {last : Step} (hlast : (scan body).getLast? = some last) (hinert : last.isSignificant = false) :
    EndedBy body (terminate body) := by
  have hcls := cls_of_inert_last hsolid hlast hinert
  have hnot : hasTerminator body = false := by
    rw [Bool.eq_false_iff]
    intro hown
    obtain ⟨step, hstep, hcode, -⟩ := last_of_hasTerminator hown
    rw [hsolid, hlast, Option.some.injEq] at hstep
    exact hcode (hstep ▸ hcls)
  obtain ⟨tail, hsplit, htail, hdrop⟩ := comment_tail body
  unfold terminate
  simp only [hsolid, hdrop]
  by_cases hdashes : Text.hasPart "--".toList (stepsText tail) = true
  · rw [if_pos hdashes]
    obtain ⟨feed, hfeed, hscan⟩ := h.scan_next_line
    exact .added [feed] hnot (by simpa using hfeed) hscan
  · have hmode : (scanEnd body).mode = .code := by
      refine h.mode.resolve_right fun hline => hdashes ((Text.hasPart_iff _ _).2 ?_)
      have htrace := trace_scan body
      rw [hsplit, trace_append] at htrace
      refine htrace.2.dashes_of_lineComment ?_ ?_
      · rw [lastState_significantPart (trace_scan body)
          (by rw [← scanEnd_eq_lastState]; exact h.unquoted)]
        simp
      · rw [← lastState_append, ← hsplit, ← scanEnd_eq_lastState, hline]
    have hstart : scanEnd body = .start := ScanState.eq_start hmode h.depth
    have hslash : body.getLast? ≠ some ';' := by
      have hafter : last.after.mode = .code := by
        rw [← hmode, scanEnd, hlast]
        rfl
      obtain ⟨s, c, rest, rfl⟩ := (trace_scan body).stepAt_of_mem (List.mem_of_getLast? hlast)
      rw [getLast?_of_scan hlast]
      rcases stepAt_comment s c rest hcls with ⟨hline, -⟩ | ⟨level, hblock⟩ | ⟨-, hfeed | hclose⟩
      · rw [hline] at hafter
        cases hafter
      · rw [hblock] at hafter
        cases hafter
      · rw [hfeed]
        decide
      · rw [hclose]
        decide
    rw [if_neg hdashes, if_neg hslash]
    exact .added [] hnot (by simp) (scan_append_separator hstart [])

/-- The last token of a body is its last step, or a comment follows. -/
theorem endedBy_terminate {body : Text} (h : Endable body) (hsolid : Text.trimEnd body = body) :
    EndedBy body (terminate body) := by
  by_cases htoken : ∀ step, (scan body).getLast? = some step → step.isSignificant = true
  · exact endedBy_of_token h hsolid htoken
  · simp only [not_forall, Bool.not_eq_true] at htoken
    obtain ⟨last, hlast, hinert⟩ := htoken
    exact endedBy_of_comment h hsolid hlast hinert

/--
The semicolon that ends a statement is read as code outside all parentheses. It
is the one that the statement had, or the one token that is added.
-/
theorem terminator_read_as_code (body : Text)
    (hmode : (scanEnd body).mode = .code ∨ (scanEnd body).mode = .lineComment)
    (hdepth : (scanEnd body).depth = 0) :
    (terminate body).getLast? = some ';' ∧
      (scan (terminate body)).getLast? = some (codeStep 0 ';') ∧
      (tokenize (terminate body)).map Token.lexeme =
        (tokenize body).map Token.lexeme ++
          if hasTerminator body then [] else [⟨.symbol, [';']⟩] := by
  have hend : Endable body := ⟨hmode, hdepth⟩
  obtain ⟨htrim, hlexemes⟩ := hend.trimEnd
  have hsame : terminate (Text.trimEnd body) = terminate body := by
    unfold terminate
    rw [Text.trimEnd_trimEnd]
  have hown : hasTerminator (Text.trimEnd body) = hasTerminator body := by
    unfold hasTerminator
    rw [Text.trimEnd_trimEnd]
  have hended := endedBy_terminate htrim (Text.trimEnd_trimEnd body)
  rw [hsame] at hended
  have hlast : (scan (terminate body)).getLast? = some (codeStep 0 ';') := by
    cases hended with
    | own _ _ hstep => exact hstep
    | added between _ _ hscan => simp [hscan]
  refine ⟨by rw [getLast?_of_scan hlast]; rfl, hlast, ?_⟩
  rw [tokenize_lexemes, tokenize_lexemes, ← hlexemes, ← hown]
  cases hended with
  | own htext hhas _ => simp [htext, hhas]
  | added between hhas hinert hscan =>
      have hsymbol : Parted (scan (Text.trimEnd body) ++ between) [codeStep 0 ';'] :=
        parted_of_symbol_right fun y hy => by
          obtain rfl := Option.some.inj hy
          rfl
      rw [hscan, ← List.append_assoc, lexemes_append hsymbol, lexemes_append_inert hinert, hhas]
      rfl

/-- Dashes in a block comment and a semicolon in a line comment do not mislead it. -/
theorem terminator_read_as_code_comments :
    let body := "SELECT '--' /* -- */ -- all;".toList
    ((scanEnd body).mode = .lineComment ∧ (scanEnd body).depth = 0) ∧
      terminate body = body ++ "\n;".toList ∧
      (scan (terminate body)).getLast? = some (codeStep 0 ';') ∧
      (tokenize (terminate body)).map Token.lexeme =
        (tokenize body).map Token.lexeme ++ [⟨.symbol, [';']⟩] := by
  have hmode : (scanEnd "SELECT '--' /* -- */ -- all;".toList).mode = .lineComment := by decide
  have hdepth : (scanEnd "SELECT '--' /* -- */ -- all;".toList).depth = 0 := by decide
  have hread := terminator_read_as_code _ (.inr hmode) hdepth
  exact ⟨⟨hmode, hdepth⟩, by decide, hread.2⟩

end AuroraMigration
