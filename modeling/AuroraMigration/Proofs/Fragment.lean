import AuroraMigration.Proofs.Lines

/-!
# What a fragment holds

A piece between semicolons is a stretch of comment lines and empty lines, which
a scan passes over, and the text from the body's first line on. The body of its
fragment is that text without carriage returns at line ends, comments at its
end and blanks around it: thinned steps of the same scan, with the same tokens.
-/

namespace AuroraMigration

/-! ## Text that a scan passes over -/

/-- These steps hold no token and lead from the start back to the start, whatever follows. -/
structure Skipped (text : Text) (steps : List Step) : Prop where
  text_eq : stepsText steps = text
  inert : ∀ step ∈ steps, step.isSignificant = false
  state : lastState .start steps = .start
  trace : ∀ rest, Trace .start steps rest

theorem Skipped.scan_append {text : Text} {steps : List Step} (h : Skipped text steps)
    (rest : Text) : scan (text ++ rest) = steps ++ scan rest := by
  have hscan := (h.trace rest).scanFrom_eq
  rw [h.text_eq, h.state] at hscan
  exact hscan

theorem skipped_nil : Skipped [] [] :=
  ⟨rfl, by simp, rfl, fun _ => trivial⟩

theorem Skipped.append {a b : Text} {xs ys : List Step} (ha : Skipped a xs) (hb : Skipped b ys) :
    Skipped (a ++ b) (xs ++ ys) where
  text_eq := by rw [stepsText_append, ha.text_eq, hb.text_eq]
  inert := by
    intro step hstep
    rcases List.mem_append.1 hstep with hstep | hstep
    · exact ha.inert step hstep
    · exact hb.inert step hstep
  state := by rw [lastState_append, ha.state, hb.state]
  trace rest := trace_append.2 ⟨ha.trace _, by rw [ha.state]; exact hb.trace rest⟩

theorem skipped_blank {text : Text} (h : ∀ c ∈ text, isBlank c = true) :
    Skipped text (text.map (codeStep 0)) where
  text_eq := stepsText_codeSteps 0 text
  inert := by
    intro step hstep
    obtain ⟨c, hc, rfl⟩ := List.mem_map.1 hstep
    simp [codeStep, Step.isSignificant, h c hc]
  state := lastState_codeSteps 0 text
  trace := trace_plain 0 fun c hc => isPlain_of_isBlank (h c hc)

/-- The step that reads `c` in a line comment outside all parentheses. -/
def commentStep (c : Char) : Step :=
  { first := c, more := [], cls := .comment, before := ⟨.lineComment, 0⟩,
    after := ⟨.lineComment, 0⟩ }

/-- The steps of a line comment up to the end of its line. -/
def commentSteps (words : Text) : List Step :=
  { first := '-', more := ['-'], cls := .comment, before := .start, after := ⟨.lineComment, 0⟩ } ::
    words.map commentStep

theorem stepsText_commentSteps (words : Text) :
    stepsText (commentSteps words) = "--".toList ++ words := by
  have hwords : stepsText (words.map commentStep) = words := by
    induction words with
    | nil => rfl
    | cons c words ih => simp [ih, commentStep, Step.chars]
  simp [commentSteps, Step.chars, hwords]

theorem lastState_commentSteps (words : Text) :
    lastState .start (commentSteps words) = ⟨.lineComment, 0⟩ := by
  have hwords : lastState ⟨.lineComment, 0⟩ (words.map commentStep) = ⟨.lineComment, 0⟩ := by
    induction words with
    | nil => rfl
    | cons c words ih => exact ih
  exact hwords

theorem commentSteps_inert (words : Text) :
    ∀ step ∈ commentSteps words, step.isSignificant = false := by
  intro step hstep
  rcases List.mem_cons.1 hstep with rfl | hstep
  · rfl
  · obtain ⟨c, -, rfl⟩ := List.mem_map.1 hstep
    rfl

theorem trace_commentSteps {words : Text} (h : '\n' ∉ words) (rest : Text) :
    Trace .start (commentSteps words) rest := by
  refine ⟨rfl, ?_⟩
  induction words with
  | nil => trivial
  | cons c words ih =>
      have hc : c ≠ '\n' := fun hc => h (hc ▸ List.mem_cons_self)
      refine ⟨?_, ih fun hmem => h (List.mem_cons_of_mem c hmem)⟩
      simp [stepAt, read, readLineComment, commentStep, hc]

theorem skipped_commentLine {words : Text} (h : '\n' ∉ words) :
    ∃ steps, Skipped ("--".toList ++ words ++ ['\n']) steps := by
  let feed : Step :=
    { first := '\n', more := [], cls := .comment, before := ⟨.lineComment, 0⟩, after := .start }
  refine ⟨commentSteps words ++ [feed], ?_, ?_, ?_, ?_⟩
  · rw [stepsText_append, stepsText_commentSteps]
    rfl
  · intro step hstep
    rcases List.mem_append.1 hstep with hstep | hstep
    · exact commentSteps_inert words step hstep
    · rw [List.mem_singleton.1 hstep]
      rfl
  · rw [lastState_append]
    rfl
  · intro rest
    refine trace_append.2 ⟨trace_commentSteps h _, ?_⟩
    rw [lastState_commentSteps]
    exact ⟨rfl, trivial⟩

/-! ## The lines above a body -/

/-- The text has characters that are not blank, and the first two of them are no dashes. -/
def StartsBody (text : Text) : Prop :=
  Text.trimStart text ≠ [] ∧ ¬ "--".toList <+: Text.trimStart text

theorem startsBody_of_line {line more : Text} (hne : Text.trim line ≠ [])
    (hdashes : ¬ "--".toList <+: Text.trim line)
    (hmore : ∀ c, more.head? = some c → c = '\n') : StartsBody (line ++ more) := by
  obtain ⟨front, back, hline, hfront, hback⟩ := Text.trim_split line
  have hstart : Text.trimStart (line ++ more) = Text.trim line ++ (back ++ more) := by
    have hassoc : line ++ more = front ++ (Text.trim line ++ (back ++ more)) := by
      conv_lhs => rw [hline]
      simp
    rw [hassoc, Text.trimStart_append_of_blank hfront]
    apply Text.trimStart_eq_self
    intro c hc
    rw [List.head?_append_of_ne_nil _ hne] at hc
    exact Text.trim_head hc
  refine ⟨by simp [hstart, hne], ?_⟩
  rw [hstart]
  intro hahead
  refine hdashes (prefix_of_prefix_append hahead ?_)
  intro c hc hmem
  have hdash : c = '-' := by simpa using hmem
  have hblank : isBlank c = true := by
    cases back with
    | nil =>
        rw [hmore c hc]
        decide
    | cons d back =>
        simp only [List.cons_append, List.head?_cons, Option.some.injEq] at hc
        rw [← hc]
        exact hback d List.mem_cons_self
  rw [hdash] at hblank
  exact absurd hblank (by decide)

theorem blank_of_trim_eq_nil {line : Text} (h : Text.trim line = []) :
    ∀ c ∈ line, isBlank c = true := by
  obtain ⟨front, back, hline, hfront, hback⟩ := Text.trim_split line
  intro c hc
  rw [hline, h, List.nil_append] at hc
  rcases List.mem_append.1 hc with hc | hc
  · exact hfront c hc
  · exact hback c hc

/-- A line whose first characters are two dashes is a comment. -/
theorem commentLine_split {line : Text} (h : "--".toList <+: Text.trim line) :
    ∃ front words, line = front ++ ("--".toList ++ words) ∧ ∀ c ∈ front, isBlank c = true := by
  obtain ⟨front, back, hline, hfront, -⟩ := Text.trim_split line
  obtain ⟨words, hwords⟩ := h
  refine ⟨front, words ++ back, ?_, hfront⟩
  rw [← hwords] at hline
  simpa using hline

/-- The lines of the body in a text: those of what is left once comments and empty lines above it
are passed over, or none where all of the text is. -/
def BodyLines (text : Text) (bodyLines : List Text) : Prop :=
  (bodyLines = [] ∧ ∀ step ∈ scan text, step.isSignificant = false) ∨
    ∃ lead tail steps, text = lead ++ tail ∧ Skipped lead steps ∧ StartsBody tail ∧
      bodyLines = Text.lines tail

theorem BodyLines.skip {lead rest : Text} {steps : List Step} {bodyLines : List Text}
    (hlead : Skipped lead steps) (h : BodyLines rest bodyLines) :
    BodyLines (lead ++ rest) bodyLines := by
  rcases h with ⟨hnil, hinert⟩ | ⟨lead', tail, later, rfl, hlater, htail, hbody⟩
  · refine .inl ⟨hnil, ?_⟩
    rw [hlead.scan_append]
    intro step hstep
    rcases List.mem_append.1 hstep with hstep | hstep
    · exact hlead.inert step hstep
    · exact hinert step hstep
  · exact .inr ⟨_, tail, _, by simp, hlead.append hlater, htail, hbody⟩

theorem bodyLines_of_startsBody {text : Text} (h : StartsBody text) :
    BodyLines text (Text.lines text) :=
  .inr ⟨[], text, [], rfl, skipped_nil, h, rfl⟩

/-- The last line of a text that is only a comment holds no token. -/
theorem scan_comment_inert {front words : Text} (hfront : ∀ c ∈ front, isBlank c = true)
    (hwords : '\n' ∉ words) :
    ∀ step ∈ scan (front ++ ("--".toList ++ words)), step.isSignificant = false := by
  have hcomment : scan ("--".toList ++ words) = commentSteps words := by
    have h := (trace_commentSteps hwords []).scanFrom_stepsText wellTagged_start
    rwa [stepsText_commentSteps] at h
  rw [(skipped_blank hfront).scan_append, hcomment]
  intro step hstep
  rcases List.mem_append.1 hstep with hstep | hstep
  · exact (skipped_blank hfront).inert step hstep
  · exact commentSteps_inert words step hstep

theorem leadingComment_blank (comment : List Text) {line : Text} (h : Text.trim line = [])
    (rest : List Text) : leadingComment comment (line :: rest) = leadingComment [] rest := by
  simp [leadingComment, h]

theorem leadingComment_comment (comment : List Text) {line : Text}
    (h : "--".toList <+: Text.trim line) (rest : List Text) :
    leadingComment comment (line :: rest) =
      leadingComment (comment ++ [Text.trim line]) rest := by
  obtain ⟨words, hwords⟩ := h
  simp [leadingComment, ← hwords]

theorem leadingComment_body (comment : List Text) {line : Text} (hne : Text.trim line ≠ [])
    (hdashes : ¬ "--".toList <+: Text.trim line) (rest : List Text) :
    leadingComment comment (line :: rest) = (comment, line :: rest) := by
  simp only [leadingComment, List.isEmpty_iff, hne, if_false, List.isPrefixOf_iff_prefix, hdashes]

/-- One line of a text that has more lines. -/
theorem leadingComment_firstLine (comment : List Text) {line : Text} (hline : '\n' ∉ line)
    {rest : Text} (h : ∀ found, BodyLines rest (leadingComment found (Text.lines rest)).2) :
    BodyLines (line ++ '\n' :: rest)
      (leadingComment comment (Text.lines (line ++ '\n' :: rest))).2 := by
  have hsplit : line ++ '\n' :: rest = (line ++ ['\n']) ++ rest := by simp
  have hlines := Text.lines_append_feed hline rest
  have htrim := Text.trim_dropReturn line
  by_cases hempty : Text.trim line = []
  · have hblank : ∀ c ∈ line ++ ['\n'], isBlank c = true := by
      intro c hc
      rcases List.mem_append.1 hc with hc | hc
      · exact blank_of_trim_eq_nil hempty c hc
      · rw [List.mem_singleton.1 hc]
        decide
    rw [hlines, leadingComment_blank comment (htrim.trans hempty), hsplit]
    exact (h []).skip (skipped_blank hblank)
  · by_cases hdashes : "--".toList <+: Text.trim line
    · obtain ⟨front, words, hwords, hfront⟩ := commentLine_split hdashes
      have hnot : '\n' ∉ words := by
        intro hmem
        apply hline
        simp [hwords, hmem]
      obtain ⟨steps, hsteps⟩ := skipped_commentLine hnot
      have htext : line ++ ['\n'] = front ++ ("--".toList ++ words ++ ['\n']) := by
        simp [hwords]
      rw [hlines, leadingComment_comment comment (by rwa [htrim]), htrim, hsplit, htext]
      exact (h _).skip ((skipped_blank hfront).append hsteps)
    · have hstop := leadingComment_body comment (by rwa [htrim]) (by rwa [htrim])
        (Text.lines rest)
      rw [hlines, hstop, ← hlines]
      exact bodyLines_of_startsBody (startsBody_of_line hempty hdashes (by simp))

/-- The last line of a text, which no line feed ends. -/
theorem leadingComment_lastLine (comment : List Text) {line : Text} (hline : '\n' ∉ line) :
    BodyLines line (leadingComment comment (Text.lines line)).2 := by
  by_cases hne : line = []
  · subst hne
    exact .inl ⟨rfl, by simp [scan]⟩
  · have hlines := Text.lines_of_not_mem hline hne
    by_cases hempty : Text.trim line = []
    · rw [hlines, leadingComment_blank comment hempty]
      have hblank := skipped_blank (blank_of_trim_eq_nil hempty)
      have hscan := hblank.scan_append []
      rw [List.append_nil] at hscan
      refine .inl ⟨rfl, ?_⟩
      rw [hscan]
      simpa [scan] using hblank.inert
    · by_cases hdashes : "--".toList <+: Text.trim line
      · obtain ⟨front, words, hwords, hfront⟩ := commentLine_split hdashes
        have hnot : '\n' ∉ words := by
          intro hmem
          apply hline
          simp [hwords, hmem]
        rw [hlines, leadingComment_comment comment hdashes]
        refine .inl ⟨rfl, ?_⟩
        rw [hwords]
        exact scan_comment_inert hfront hnot
      · rw [hlines, leadingComment_body comment hempty hdashes, ← hlines]
        have hnil : ∀ c, ([] : Text).head? = some c → c = '\n' := by simp
        have hstart := startsBody_of_line hempty hdashes hnil
        rw [List.append_nil] at hstart
        exact bodyLines_of_startsBody hstart

theorem leadingComment_lines (comment : List Text) (text : Text) :
    BodyLines text (leadingComment comment (Text.lines text)).2 := by
  -- line by line, what is left being shorter than the text
  induction hn : text.length using Nat.strongRecOn generalizing comment text with
  | ind n ih =>
      by_cases hfeed : '\n' ∈ text
      · obtain ⟨line, rest, rfl, hline⟩ := List.eq_append_cons_of_mem hfeed
        have hlen : rest.length < n := by
          simp only [List.length_append, List.length_cons] at hn
          omega
        exact leadingComment_firstLine comment hline fun found => ih rest.length hlen found rest rfl
      · exact leadingComment_lastLine comment hfeed

/-! ## The end of a body -/

/-- The steps up to the last one that is neither comment nor white space. -/
def significantPart (steps : List Step) : List Step :=
  dropTrailing (!·.isSignificant) steps

theorem significantPart_split (steps : List Step) :
    ∃ tail, steps = significantPart steps ++ tail ∧ ∀ step ∈ tail, step.isSignificant = false := by
  obtain ⟨tail, hsplit, htail⟩ := dropTrailing_split (!Step.isSignificant ·) steps
  exact ⟨tail, hsplit, by simpa using htail⟩

theorem significantPart_last {steps : List Step} {step : Step}
    (h : (significantPart steps).getLast? = some step) : step.isSignificant = true := by
  simpa using dropTrailing_last h

theorem lexemes_significantPart (steps : List Step) :
    lexemes (significantPart steps) = lexemes steps := by
  obtain ⟨tail, hsplit, htail⟩ := significantPart_split steps
  conv_rhs => rw [hsplit]
  rw [lexemes_append_inert htail]

/-- Outside quotes, what comes before comments and white space at the end ends in code. -/
theorem lastState_significantPart {steps : List Step} {rest : Text}
    (h : Trace .start steps rest) (hend : (lastState .start steps).mode.isQuoted = false) :
    lastState .start (significantPart steps) = ⟨.code, (lastState .start steps).depth⟩ := by
  obtain ⟨tail, hsplit, htail⟩ := significantPart_split steps
  rw [hsplit, trace_append] at h
  obtain ⟨hkept, htrace⟩ := h
  have hlast : lastState .start steps =
      lastState (lastState .start (significantPart steps)) tail := by
    conv_lhs => rw [hsplit]
    rw [lastState_append]
  obtain ⟨hdepth, hquoted⟩ := htrace.inert htail
  have hmode : (lastState .start (significantPart steps)).mode = .code := by
    apply Mode.eq_code
    · by_cases hnil : tail = []
      · rw [hlast, hnil] at hend
        exact hend
      · exact hquoted hnil
    · cases hl : (significantPart steps).getLast? with
      | none =>
          rw [List.getLast?_eq_none_iff.1 hl]
          rfl
      | some step =>
          obtain ⟨before, hbefore⟩ := List.getLast?_eq_some_iff.1 hl
          have hshape := hkept.shape step (List.mem_of_getLast? hl)
          rw [hbefore, lastState_append]
          exact (hshape.after_of_significant (significantPart_last hl)).1
  rw [hlast, hdepth]
  cases hstate : lastState .start (significantPart steps) with
  | mk mode depth =>
      rw [hstate] at hmode
      cases hmode
      rfl

/-- A line feed at the end of a text outside quotes is white space or comment. -/
theorem Step.Shape.inert_of_feed {step : Step} (h : step.Shape) (hmore : step.more = [])
    (hfirst : step.first = '\n') (hafter : step.after.mode.isQuoted = false) :
    step.isSignificant = false := by
  cases h with
  | code _ hcls =>
      simp only [Step.isSignificant, hcls, hfirst]
      decide
  | quoted _ _ hend =>
      rcases hend with hend | ⟨-, hsolid⟩
      · rw [hend] at hafter
        cases hafter
      · have hblank := hsolid '\n' (by simp [Step.chars, hmore, hfirst])
        exact absurd hblank (by decide)
  | comment _ hcls => simp [Step.isSignificant, hcls]

theorem scan_stepsText {steps : List Step} {rest : Text} (h : Trace .start steps rest) :
    scan (stepsText steps) = steps :=
  h.scanFrom_stepsText wellTagged_start

/-- A line feed at the end of a text is a step of its own. -/
theorem Trace.chomp {steps : List Step} {rest : Text} (h : Trace .start steps rest) :
    Text.chomp (stepsText steps) = stepsText steps ∨
      ∃ before step, steps = before ++ [step] ∧ step.more = [] ∧ step.first = '\n' ∧
        Text.chomp (stepsText steps) = stepsText before := by
  unfold Text.chomp
  split
  · rename_i hfeed
    obtain ⟨before, step, rfl, hlast⟩ := getLast?_stepsText hfeed
    have hmore : step.more = [] := by
      cases hm : step.more.getLast? with
      | none => exact List.getLast?_eq_none_iff.1 hm
      | some c =>
          have hc := (h.more_not_break wellTagged_start step (by simp)).2 c
            (List.mem_of_getLast? hm)
          rw [Step.chars, List.getLast?_cons, hm, Option.getD_some, Option.some.injEq] at hlast
          rw [hlast] at hc
          exact absurd hc (by decide)
    have hfirst : step.first = '\n' := by
      simpa [Step.chars, hmore] using hlast
    exact .inr ⟨before, step, rfl, hmore, hfirst, by simp [Step.chars, hmore]⟩
  · exact .inl rfl

/-- Comments at the end are trimmed alike with and without a last line feed. -/
theorem trimComments_chomp {steps : List Step} (h : Trace .start steps [])
    (hend : (lastState .start steps).mode.isQuoted = false) :
    trimComments (Text.chomp (stepsText steps)) = stepsText (significantPart steps) := by
  rcases h.chomp with hsame | ⟨before, step, rfl, hmore, hfirst, hchomp⟩
  · rw [hsame, trimComments, scan_stepsText h]
    rfl
  · have hinert : step.isSignificant = false := by
      rw [lastState_append] at hend
      exact (h.shape step (by simp)).inert_of_feed hmore hfirst hend
    have hpart : significantPart (before ++ [step]) = significantPart before := by
      refine dropTrailing_append before ?_
      intro x hx
      rw [List.mem_singleton.1 hx, hinert]
      rfl
    rw [hchomp, trimComments, scan_stepsText (trace_append.1 h).1, hpart]
    rfl

/-! ## Bodies in normal form -/

theorem Thinned.head {xs ys : List Step} (h : Thinned xs ys) :
    ys.head? = xs.head? ∨ ∃ next, ys.head? = some next ∧ next.first = '\n' := by
  cases h with
  | nil => exact .inl rfl
  | keep step _ => exact .inl rfl
  | drop _ hfeed _ => exact .inr ⟨_, rfl, hfeed⟩

theorem trimStart_chars {step : Step} {text : Text}
    (hbreak : isBreak step.first = true → step.more = []) :
    Text.trimStart (step.chars ++ text) =
      if isBlank step.first then Text.trimStart text else step.chars ++ text := by
  cases hblank : isBlank step.first with
  | true =>
      have hmore := hbreak (isBreak_of_isBlank hblank)
      simp [Step.chars, hmore, Text.trimStart, hblank]
  | false => simp [Step.chars, Text.trimStart, hblank]

/-- Leaving out blanks before line feeds puts no two dashes at the start. -/
theorem Thinned.dashes {xs ys : List Step} (h : Thinned xs ys)
    (hbreak : ∀ step ∈ xs, isBreak step.first = true → step.more = [])
    (hdashes : "--".toList <+: Text.trimStart (stepsText ys)) :
    "--".toList <+: Text.trimStart (stepsText xs) := by
  induction h with
  | nil => exact hdashes
  | @keep xs ys step hthin ih =>
      have hstep := hbreak step List.mem_cons_self
      rw [stepsText_cons, trimStart_chars hstep] at hdashes ⊢
      cases hblank : isBlank step.first with
      | true =>
          simp only [hblank, if_true] at hdashes ⊢
          exact ih (fun x hx => hbreak x (List.mem_cons_of_mem step hx)) hdashes
      | false =>
          simp only [hblank, Bool.false_eq_true, if_false] at hdashes ⊢
          cases hmore : step.more with
          | cons d more => simpa [Step.chars, hmore] using hdashes
          | nil =>
              simp only [Step.chars, hmore, List.singleton_append] at hdashes ⊢
              rcases hthin.head with hhead | ⟨next, hhead, hfeed⟩
              · cases xs with
                | nil =>
                    have hnil : ys = [] := by simpa using hhead
                    rw [hnil] at hdashes
                    exact hdashes
                | cons x xs =>
                    obtain ⟨ys', rfl⟩ := List.head?_eq_some_iff.1 hhead
                    simpa [Step.chars] using hdashes
              · obtain ⟨ys', rfl⟩ := List.head?_eq_some_iff.1 hhead
                simp [Step.chars, hfeed] at hdashes
  | @drop xs ys step next hspacing _ _ ih =>
      have hstep := hbreak step List.mem_cons_self
      have hblank : isBlank step.first = true := by
        rcases Step.isSpacing_cases hspacing with h | h | h <;> rw [h] <;> decide
      rw [stepsText_cons, trimStart_chars hstep, if_pos hblank]
      exact ih (fun x hx => hbreak x (List.mem_cons_of_mem step hx)) hdashes

theorem dashes_append {a : Text} (b : Text) (h : "--".toList <+: Text.trimStart a) :
    "--".toList <+: Text.trimStart (a ++ b) := by
  obtain ⟨words, hwords⟩ := h
  have hstart : Text.trimStart (a ++ b) = Text.trimStart a ++ b := by
    unfold Text.trimStart at hwords ⊢
    rw [List.dropWhile_append, if_neg]
    rw [← hwords]
    simp
  rw [hstart, ← hwords]
  exact ⟨words ++ b, by simp⟩

/-- A statement's body as fragments hold it, closed, so that a semicolon can follow it. -/
structure TidyBody (body : Text) : Prop where
  solid : ∀ c, body.head? = some c → isBlank c = false
  dashes : ¬ "--".toList <+: body
  lines : LineTidy (scan body)
  last : ∀ step, (scan body).getLast? = some step → step.isSignificant = true
  mode : (scanEnd body).mode = .code
  tokens : lexemes (scan body) ≠ []

theorem tidyBody_eq_nil {steps : List Step} (h : Trace .start steps [])
    (hend : (lastState .start steps).mode.isQuoted = false) (hlex : lexemes steps = []) :
    tidyBody (Text.chomp (stepsText steps)) = [] := by
  have hnil : significantPart steps = [] := by
    obtain ⟨tail, hsplit, -⟩ := significantPart_split steps
    cases hl : (significantPart steps).getLast? with
    | none => exact List.getLast?_eq_none_iff.1 hl
    | some step =>
        have hmem : step ∈ steps := by
          rw [hsplit]
          exact List.mem_append_left tail (List.mem_of_getLast? hl)
        have hsig := significantPart_last hl
        rw [(lexemes_eq_nil_iff steps).1 hlex step hmem] at hsig
        cases hsig
  rw [tidyBody, trimComments_chomp h hend, hnil]
  rfl

/-- Steps that end in code with a step that is no white space end in a solid character. -/
theorem Trace.solid_end {s : ScanState} {steps : List Step} {rest : Text}
    (h : Trace s steps rest) (hmode : (lastState s steps).mode = .code)
    (hlast : ∀ step, steps.getLast? = some step → step.isSignificant = true) {c : Char}
    (hc : (stepsText steps).getLast? = some c) : isBlank c = false := by
  obtain ⟨before, step, rfl, hchar⟩ := getLast?_stepsText hc
  rw [lastState_append] at hmode
  have hshape := h.shape step (by simp)
  exact (hshape.after_of_significant (hlast step (by simp))).2 hmode c hchar

/-- Trimming takes blank steps off the front of such steps and nothing else. -/
theorem Trace.trim_front {steps : List Step} {rest : Text} (h : Trace .start steps rest)
    (hmode : (lastState .start steps).mode = .code)
    (hlast : ∀ step, steps.getLast? = some step → step.isSignificant = true) :
    ∃ front : Text, (∀ c ∈ front, isBlank c = true) ∧
      Text.trim (stepsText steps) = Text.trimStart (stepsText steps) ∧
      steps = front.map (codeStep 0) ++ scan (Text.trim (stepsText steps)) := by
  have hblank : ∀ c ∈ (stepsText steps).takeWhile isBlank, isBlank c = true :=
    fun c hc => List.mem_takeWhile_imp hc
  have htext : (stepsText steps).takeWhile isBlank ++ Text.trimStart (stepsText steps) =
      stepsText steps := List.takeWhile_append_dropWhile
  have htrim : Text.trim (stepsText steps) = Text.trimStart (stepsText steps) := by
    apply Text.trimEnd_eq_self
    intro c hc
    have hc' : (stepsText steps).getLast? = some c := by
      rw [← htext, List.getLast?_append, hc]
      rfl
    exact h.solid_end hmode hlast hc'
  refine ⟨_, hblank, htrim, ?_⟩
  have hscan := (skipped_blank hblank).scan_append (Text.trimStart (stepsText steps))
  rw [htext, scan_stepsText h] at hscan
  rw [htrim]
  exact hscan

/-- The normal form of a body with tokens keeps its tokens and its depth of parentheses. -/
theorem tidyBody_spec {steps : List Step} (h : Trace .start steps [])
    (hend : (lastState .start steps).mode.isQuoted = false) (hlex : lexemes steps ≠ [])
    (hdashes : ¬ "--".toList <+: Text.trimStart (stepsText steps)) :
    TidyBody (tidyBody (Text.chomp (stepsText steps))) ∧
      lexemes (scan (tidyBody (Text.chomp (stepsText steps)))) = lexemes steps ∧
      scanEnd (tidyBody (Text.chomp (stepsText steps))) =
        ⟨.code, (lastState .start steps).depth⟩ ∧
      (scan (tidyBody (Text.chomp (stepsText steps)))).Sublist steps := by
  obtain ⟨tail, hsplit, -⟩ := significantPart_split steps
  have hpart : Trace .start (significantPart steps) (stepsText tail ++ []) := by
    rw [hsplit, trace_append] at h
    exact h.1
  have hthin := dropLineBlanks_thinned (significantPart steps)
  obtain ⟨htrace, hlast⟩ := hthin.trace hpart wellTagged_start
  rw [lastState_significantPart h hend] at hlast
  have hlastStep := getLast?_dropLineBlanks (significantPart steps)
  have hlex' : lexemes (dropLineBlanks (significantPart steps)) = lexemes steps := by
    rw [lexemes_dropLineBlanks, lexemes_significantPart]
  have hlines := lineTidy_dropLineBlanks (significantPart steps)
  have htidy : tidyBody (Text.chomp (stepsText steps)) =
      Text.trim (stepsText (dropLineBlanks (significantPart steps))) := by
    rw [tidyBody, trimComments_chomp h hend, scan_stepsText hpart]
  rw [htidy]
  generalize dropLineBlanks (significantPart steps) = kept at *
  have hsig : ∀ step, kept.getLast? = some step → step.isSignificant = true :=
    fun step hl => significantPart_last (hlastStep ▸ hl)
  obtain ⟨front, hfront, hstart, hkept⟩ := htrace.trim_front (by rw [hlast]) hsig
  generalize Text.trim (stepsText kept) = body at *
  have hblank := skipped_blank hfront
  have hbodyLex : lexemes (scan body) = lexemes steps := by
    rw [← hlex', hkept, lexemes_inert_append hblank.inert]
  have hbodyEnd : scanEnd body = ⟨.code, (lastState .start steps).depth⟩ := by
    rw [scanEnd_eq_lastState, ← hlast, hkept, lastState_append, hblank.state]
  refine ⟨⟨?_, ?_, ?_, ?_, ?_, ?_⟩, hbodyLex, hbodyEnd, ?_⟩
  · intro c hc
    rw [hstart] at hc
    exact Text.trimStart_head hc
  · intro hahead
    rw [hstart] at hahead
    have hbreak : ∀ step ∈ significantPart steps, isBreak step.first = true → step.more = [] :=
      fun step hstep => (hpart.more_not_break wellTagged_start step hstep).1
    apply hdashes
    rw [hsplit, stepsText_append]
    exact dashes_append _ (hthin.dashes hbreak hahead)
  · rw [hkept] at hlines
    exact hlines.right_of_append
  · intro step hl
    apply hsig
    rw [hkept, List.getLast?_append, hl]
    rfl
  · rw [hbodyEnd]
  · rw [hbodyLex]
    exact hlex
  · have hsuffix : (scan body).Sublist kept := by
      rw [hkept]
      exact List.sublist_append_right _ _
    refine hsuffix.trans (hthin.sublist.trans ?_)
    conv_rhs => rw [hsplit]
    exact List.sublist_append_left _ _

/-! ## The fragment of a piece -/

/-- A fragment as a piece of SQL that ends outside quotes holds it. -/
structure FragmentOf (piece : Text) (fragment : Fragment) : Prop where
  comment : fragment.comment = (leadingComment [] (Text.lines piece)).1
  body : TidyBody fragment.body
  ends : scanEnd fragment.body = ⟨.code, (scanEnd piece).depth⟩
  steps : (scan fragment.body).Sublist (scan piece)
  lexemes : lexemes (scan fragment.body) = (lexemes (scan piece)).map Lexeme.dropReturns

theorem Fragment.ofPiece?_of_body {piece body : Text}
    (h : tidyBody (Text.join ['\n'] (leadingComment [] (Text.lines piece)).2) = body) :
    Fragment.ofPiece? piece =
      if lexemes (scan body) = [] then none
      else some { comment := (leadingComment [] (Text.lines piece)).1, body } := by
  subst h
  simp only [Fragment.ofPiece?, tokenize_isEmpty]

theorem StartsBody.dropReturnSteps {text : Text} (h : StartsBody text) :
    ¬ "--".toList <+: Text.trimStart (stepsText (dropReturnSteps (scan text))) := by
  intro hahead
  have hbreak : ∀ step ∈ scan text, isBreak step.first = true → step.more = [] :=
    fun step hstep => ((trace_scan text).more_not_break wellTagged_start step hstep).1
  have hdashes := (dropReturnSteps_thinned (scan text)).dashes hbreak hahead
  rw [stepsText_scan] at hdashes
  exact h.2 hdashes

/-- The steps of a body as it stands in its piece, comments above it and carriage returns at line
ends left out. -/
structure RawSteps (piece : Text) (steps : List Step) : Prop where
  raw : Text.join ['\n'] (leadingComment [] (Text.lines piece)).2 = Text.chomp (stepsText steps)
  dashes : ¬ "--".toList <+: Text.trimStart (stepsText steps)
  trace : Trace .start steps []
  ends : lastState .start steps = scanEnd piece
  sublist : steps.Sublist (scan piece)
  lexemes : lexemes steps = (lexemes (scan piece)).map Lexeme.dropReturns

theorem rawSteps_of_piece (piece : Text) :
    (Fragment.ofPiece? piece = none ∧ lexemes (scan piece) = []) ∨
      ∃ steps, RawSteps piece steps := by
  rcases leadingComment_lines [] piece with ⟨hnil, hinert⟩ | ⟨lead, tail, skipped, hsplit,
    hskipped, hstarts, hbody⟩
  · refine .inl ⟨?_, (lexemes_eq_nil_iff _).2 hinert⟩
    have hempty : tidyBody (Text.join ['\n'] (leadingComment [] (Text.lines piece)).2) = [] := by
      rw [hnil]
      rfl
    rw [Fragment.ofPiece?_of_body hempty]
    rfl
  · have hscan : scan piece = skipped ++ scan tail := by
      rw [hsplit, hskipped.scan_append]
    have hthin := dropReturnSteps_thinned (scan tail)
    obtain ⟨htrace, hlast⟩ := hthin.trace (trace_scan tail) wellTagged_start
    refine .inr ⟨dropReturnSteps (scan tail), ?_, hstarts.dropReturnSteps, htrace, ?_, ?_, ?_⟩
    · rw [hbody, Text.join_lines, stepsText_dropReturnSteps (trace_scan tail) wellTagged_start,
        stepsText_scan]
    · rw [hlast, scanEnd_eq_lastState, hscan, lastState_append, hskipped.state]
    · rw [hscan]
      exact hthin.sublist.trans (List.sublist_append_right _ _)
    · rw [lexemes_dropReturnSteps (trace_scan tail) wellTagged_start, hscan,
        lexemes_inert_append hskipped.inert]

theorem RawSteps.ofPiece? {piece : Text} {steps : List Step} (h : RawSteps piece steps) :
    Fragment.ofPiece? piece =
      if AuroraMigration.lexemes (scan (tidyBody (Text.chomp (stepsText steps)))) = [] then none
      else some { comment := (leadingComment [] (Text.lines piece)).1,
                  body := tidyBody (Text.chomp (stepsText steps)) } :=
  Fragment.ofPiece?_of_body (by rw [h.raw])

theorem Fragment.ofPiece?_spec {piece : Text} (hend : (scanEnd piece).mode.isQuoted = false) :
    (Fragment.ofPiece? piece = none ∧ lexemes (scan piece) = []) ∨
      ∃ fragment, Fragment.ofPiece? piece = some fragment ∧ FragmentOf piece fragment := by
  rcases rawSteps_of_piece piece with hnone | ⟨steps, hsteps⟩
  · exact .inl hnone
  · have hpiece := hsteps.ofPiece?
    rw [← hsteps.ends] at hend
    by_cases hlex : lexemes steps = []
    · refine .inl ⟨?_, ?_⟩
      · rw [hpiece, tidyBody_eq_nil hsteps.trace hend hlex]
        exact if_pos rfl
      · rwa [hsteps.lexemes, List.map_eq_nil_iff] at hlex
    · obtain ⟨htidy, hbodyLex, hbodyEnd, hsub⟩ :=
        tidyBody_spec hsteps.trace hend hlex hsteps.dashes
      rw [hsteps.ends] at hbodyEnd
      rw [hsteps.lexemes] at hbodyLex
      generalize tidyBody (Text.chomp (stepsText steps)) = body at *
      rw [if_neg htidy.tokens] at hpiece
      exact .inr ⟨_, hpiece, rfl, htidy, hbodyEnd, hsub.trans hsteps.sublist, hbodyLex⟩

end AuroraMigration
