import AuroraMigration.Proofs.Splitting
import AuroraMigration.Script

/-!
# Bodies and comments that a script can hold

A body is closed when a scan of it ends where it started and sees no semicolon
outside parentheses. Then a semicolon can be put behind it, and what follows is
scanned as if it stood alone. The statements of a migration have closed bodies,
and their comments are whole lines.
-/

namespace AuroraMigration

/-! ## Comment lines -/

/-- A line comment without blanks at its end. -/
structure CommentLine (line : Text) : Prop where
  dashes : "--".toList <+: line
  feed : '\n' ∉ line
  last : ∀ c, line.getLast? = some c → isBlank c = false

theorem Text.lines_feed {text line : Text} (h : line ∈ Text.lines text) : '\n' ∉ line := by
  fun_induction Text.lines text generalizing line with
  | case1 => simp at h
  | case2 rest ih =>
      rcases List.mem_cons.1 h with rfl | h
      · simp
      · exact ih h
  | case3 rest ih =>
      rcases List.mem_cons.1 h with rfl | h
      · simp
      · exact ih h
  | case4 c rest hfeed hreturn hlines ih =>
      rw [List.mem_singleton.1 h, List.mem_singleton]
      exact fun heq => hfeed heq.symm
  | case5 c rest hfeed hreturn first others hlines ih =>
      rw [hlines] at ih
      rcases List.mem_cons.1 h with rfl | h
      · intro hmem
        rcases List.mem_cons.1 hmem with heq | hmem
        · exact hfeed heq.symm
        · exact ih List.mem_cons_self hmem
      · exact ih (List.mem_cons_of_mem first h)

theorem mem_of_mem_trim {text : Text} {c : Char} (h : c ∈ Text.trim text) : c ∈ text := by
  obtain ⟨front, back, hsplit, -, -⟩ := Text.trim_split text
  rw [hsplit]
  exact List.mem_append_right _ (List.mem_append_left _ h)

theorem commentLine_trim {line : Text} (hdashes : "--".toList <+: Text.trim line)
    (hfeed : '\n' ∉ line) : CommentLine (Text.trim line) :=
  ⟨hdashes, fun hmem => hfeed (mem_of_mem_trim hmem), fun _ => Text.trim_last⟩

theorem leadingComment_commentLines {comment bodyLines : List Text}
    (hcomment : ∀ line ∈ comment, CommentLine line) (hfeed : ∀ line ∈ bodyLines, '\n' ∉ line) :
    ∀ line ∈ (leadingComment comment bodyLines).1, CommentLine line := by
  induction bodyLines generalizing comment with
  | nil => exact hcomment
  | cons line rest ih =>
      have hline := hfeed line List.mem_cons_self
      have hrest : ∀ x ∈ rest, '\n' ∉ x := fun x hx => hfeed x (List.mem_cons_of_mem line hx)
      by_cases hempty : Text.trim line = []
      · rw [leadingComment_blank comment hempty]
        exact ih (by simp) hrest
      · by_cases hdashes : "--".toList <+: Text.trim line
        · rw [leadingComment_comment comment hdashes]
          refine ih ?_ hrest
          intro x hx
          rcases List.mem_append.1 hx with hx | hx
          · exact hcomment x hx
          · rw [List.mem_singleton.1 hx]
            exact commentLine_trim hdashes hline
        · rw [leadingComment_body comment hempty hdashes]
          exact hcomment

theorem FragmentOf.commentLines {piece : Text} {fragment : Fragment}
    (h : FragmentOf piece fragment) : ∀ line ∈ fragment.comment, CommentLine line := by
  rw [h.comment]
  exact leadingComment_commentLines (by simp) fun _ => Text.lines_feed

/-! ## Semicolons -/

/-- A semicolon behind a text that ends in code is read as code, and what follows it afresh. -/
theorem scan_append_separator {text : Text} (h : scanEnd text = .start) (rest : Text) :
    scan (text ++ ';' :: rest) = scan text ++ codeStep 0 ';' :: scan rest := by
  have hplain : ∀ c ∈ ([';'] : Text), isPlain c = true := List.all_eq_true.1 (by decide)
  rw [scan_append text ((boundary_cons ';' rest).2 (by decide)), h]
  exact congrArg (scan text ++ ·) (scanFrom_plain 0 hplain rest)

/-- A semicolon at the end of a text that ends in code, and not in a comment, is read as code. -/
theorem last_separator {text : Text} (hend : scanEnd text = .start)
    (hsig : ∀ step, (scan text).getLast? = some step → step.isSignificant = true)
    (hlast : text.getLast? = some ';') : (scan text).getLast? = some (codeStep 0 ';') := by
  rw [← stepsText_scan text] at hlast
  obtain ⟨before, step, hsteps, hchar⟩ := getLast?_stepsText hlast
  have hl : (scan text).getLast? = some step := by rw [hsteps, List.getLast?_concat]
  have hafter : step.after = .start := by
    rw [scanEnd_eq_lastState, hsteps, lastState_append] at hend
    exact hend
  have hsig := hsig step hl
  rw [hl, Option.some.injEq]
  cases (trace_scan text).shape step (List.mem_of_getLast? hl) with
  | code hbefore hcls hmore _ hdepth =>
      have hfirst : step.first = ';' := by simpa [Step.chars, hmore] using hchar
      rw [Step.nest_of_ne (by simp [hfirst]) (by simp [hfirst])] at hdepth
      obtain ⟨first, more, cls, ⟨mode, depth⟩, after⟩ := step
      simp_all [codeStep, ScanState.start]
  | quoted _ _ hclose =>
      rcases hclose with hquoted | ⟨-, hdelimiter⟩
      · rw [hafter] at hquoted
        cases hquoted
      · exact absurd (hdelimiter _ hchar) (by decide)
  | comment _ hcls => simp [Step.isSignificant, hcls] at hsig

/-! ## Closed bodies -/

theorem significantPart_of_last {steps : List Step}
    (h : ∀ step, steps.getLast? = some step → step.isSignificant = true) :
    significantPart steps = steps := by
  apply dropTrailing_eq_self
  intro step hstep
  simp [h step hstep]

theorem scan_trimComments (text : Text) :
    scan (trimComments text) = significantPart (scan text) := by
  obtain ⟨tail, hsplit, -⟩ := significantPart_split (scan text)
  have htrace := trace_scan text
  rw [hsplit, trace_append] at htrace
  exact scan_stepsText htrace.1

theorem lexemes_trimComments (text : Text) :
    lexemes (scan (trimComments text)) = lexemes (scan text) := by
  rw [scan_trimComments, lexemes_significantPart]

theorem scanEnd_trimComments {text : Text} (h : (scanEnd text).mode.isQuoted = false) :
    scanEnd (trimComments text) = ⟨.code, (scanEnd text).depth⟩ := by
  rw [scanEnd_eq_lastState] at h ⊢
  rw [scan_trimComments, lastState_significantPart (trace_scan text) h, ← scanEnd_eq_lastState]

theorem trimComments_idem (text : Text) : trimComments (trimComments text) = trimComments text := by
  have hself : significantPart (significantPart (scan text)) = significantPart (scan text) :=
    significantPart_of_last fun step hstep => significantPart_last hstep
  change stepsText (significantPart (scan (trimComments text))) = _
  rw [scan_trimComments, hself]
  rfl

theorem mem_significantPart {steps : List Step} {step : Step} (h : step ∈ significantPart steps) :
    step ∈ steps :=
  mem_of_mem_dropTrailing h

/-- A body that a semicolon can follow and that is a statement on its own. -/
structure ClosedBody (body : Text) : Prop where
  ends : scanEnd body = .start
  separators : ∀ step ∈ scan body, step.isTopLevel ';' = false
  trimmed : Text.trimEnd body = trimComments body
  tokens : lexemes (scan body) ≠ []
  marker : Marker.ofLexemes? (lexemes (scan body)) = none

theorem ClosedBody.scanEnd_trimEnd {body : Text} (h : ClosedBody body) :
    scanEnd (Text.trimEnd body) = .start := by
  have hmode : (scanEnd body).mode.isQuoted = false := by
    rw [h.ends]
    rfl
  rw [h.trimmed, scanEnd_trimComments hmode, h.ends]
  rfl

theorem ClosedBody.scan_trimEnd {body : Text} (h : ClosedBody body) :
    scan (Text.trimEnd body) = significantPart (scan body) := by
  rw [h.trimmed, scan_trimComments]

theorem ClosedBody.lexemes_trimEnd {body : Text} (h : ClosedBody body) :
    lexemes (scan (Text.trimEnd body)) = lexemes (scan body) := by
  rw [h.trimmed, lexemes_trimComments]

/-- The last step of a closed body does not read a semicolon. -/
theorem ClosedBody.last_ne_separator {body : Text} (h : ClosedBody body) :
    (Text.trimEnd body).getLast? ≠ some ';' := by
  intro hlast
  have hscan := h.scan_trimEnd
  have hsep := last_separator h.scanEnd_trimEnd
    (fun step hstep => significantPart_last (hscan ▸ hstep)) hlast
  rw [hscan] at hsep
  have hnot := h.separators _ (mem_significantPart (List.mem_of_getLast? hsep))
  cases hnot

/-- A closed body gets its semicolon right behind its last token. -/
theorem terminate_closed {body : Text} (h : ClosedBody body) :
    terminate body = Text.trimEnd body ++ [';'] := by
  have hsame : trimComments (Text.trimEnd body) = Text.trimEnd body := by
    rw [h.trimmed, trimComments_idem]
  have htail : Text.hasPart "--".toList ([] : Text) = false := by decide
  unfold terminate
  simp only [hsame, List.drop_length, htail, Bool.false_eq_true, if_false,
    if_neg h.last_ne_separator]

/-! ## Statements -/

theorem statementsFrom_mem {opened : Bool} {carried : List Text} {found : List Fragment}
    {statement : Statement} (h : statement ∈ statementsFrom opened carried found) :
    (∀ line ∈ statement.comment, line ∈ carried ∨ ∃ fragment ∈ found, line ∈ fragment.comment) ∧
      ∃ fragment ∈ found, statement.body = fragment.body ∧ fragment.marker? = none := by
  induction found generalizing opened carried with
  | nil => simp [statementsFrom] at h
  | cons fragment rest ih =>
      simp only [statementsFrom] at h
      split at h
      · obtain ⟨hcomment, x, hx, hbody⟩ := ih h
        refine ⟨fun line hline => ?_, x, List.mem_cons_of_mem _ hx, hbody⟩
        rcases hcomment line hline with hmem | ⟨x, hx, hmem⟩
        · rcases List.mem_append.1 hmem with hmem | hmem
          · exact .inl hmem
          · exact .inr ⟨fragment, List.mem_cons_self, hmem⟩
        · exact .inr ⟨x, List.mem_cons_of_mem _ hx, hmem⟩
      · obtain ⟨hcomment, x, hx, hbody⟩ := ih h
        refine ⟨fun line hline => ?_, x, List.mem_cons_of_mem _ hx, hbody⟩
        rcases hcomment line hline with hmem | ⟨x, hx, hmem⟩
        · exact .inl hmem
        · exact .inr ⟨x, List.mem_cons_of_mem _ hx, hmem⟩
      · rename_i hmarker
        rcases List.mem_cons.1 h with rfl | h
        · refine ⟨fun line hline => ?_, fragment, List.mem_cons_self, rfl, hmarker⟩
          rcases List.mem_append.1 hline with hmem | hmem
          · exact .inl hmem
          · exact .inr ⟨fragment, List.mem_cons_self, hmem⟩
        · obtain ⟨hcomment, x, hx, hbody⟩ := ih h
          refine ⟨fun line hline => ?_, x, List.mem_cons_of_mem _ hx, hbody⟩
          rcases hcomment line hline with hmem | ⟨x, hx, hmem⟩
          · cases hmem
          · exact .inr ⟨x, List.mem_cons_of_mem _ hx, hmem⟩

theorem TidyBody.solid_last {body : Text} (h : TidyBody body) {c : Char}
    (hc : body.getLast? = some c) : isBlank c = false := by
  have hmode := h.mode
  rw [scanEnd_eq_lastState] at hmode
  refine (trace_scan body).solid_end hmode h.last ?_
  rw [stepsText_scan]
  exact hc

theorem TidyBody.trimEnd {body : Text} (h : TidyBody body) : Text.trimEnd body = body :=
  Text.trimEnd_eq_self fun _ hc => h.solid_last hc

theorem TidyBody.trimComments {body : Text} (h : TidyBody body) : trimComments body = body := by
  change stepsText (significantPart (scan body)) = body
  rw [significantPart_of_last h.last, stepsText_scan]

/-! ## How a body starts -/

theorem head?_scan (text : Text) : (scan text).head?.map Step.first = text.head? := by
  cases text with
  | nil => rfl
  | cons c rest => rfl

/-- Two dashes at the start of a text are its first step. -/
theorem dashes_iff (text : Text) :
    "--".toList <+: text ↔ (scan text).head?.map Step.chars = some "--".toList := by
  constructor
  · rintro ⟨rest, rfl⟩
    rfl
  · intro h
    cases hscan : scan text with
    | nil => simp [hscan] at h
    | cons step later =>
        have htext := stepsText_scan text
        rw [hscan] at h htext
        have hchars : step.chars = "--".toList := by simpa using h
        rw [← htext, stepsText_cons, hchars]
        exact List.prefix_append _ _

theorem TidyBody.of_head {body other : Text} (h : TidyBody body)
    (hhead : (scan other).head? = (scan body).head?) (hlines : LineTidy (scan other))
    (hlast : ∀ step, (scan other).getLast? = some step → step.isSignificant = true)
    (hmode : (scanEnd other).mode = .code) (htokens : lexemes (scan other) ≠ []) :
    TidyBody other := by
  refine ⟨?_, ?_, hlines, hlast, hmode, htokens⟩
  · intro c hc
    rw [← head?_scan, hhead, head?_scan] at hc
    exact h.solid c hc
  · rw [dashes_iff, hhead, ← dashes_iff]
    exact h.dashes

/-- A statement that starts with another keyword is no transaction marker. -/
theorem marker_none_of_keyword {t : Token} {rest : List Token} {keyword : String}
    (h : t.isKeyword keyword = true)
    (hother : some keyword.toList ∉ Marker.forms.map (·.1.head?)) :
    Marker.ofTokens? (t :: rest) = none := by
  unfold Marker.ofTokens?
  split
  · rw [List.lookup_eq_none_iff]
    intro form hform
    rw [bne_iff_ne]
    intro hsame
    apply hother
    have hupper : Text.asciiUpper t.text = keyword.toList := by
      simp only [Token.isKeyword, Bool.and_eq_true, beq_iff_eq] at h
      exact h.2
    refine List.mem_map.2 ⟨form, hform, ?_⟩
    rw [← hsame, List.map_cons, List.head?_cons, hupper]
  · rfl

/-- A migration that ends outside quotes and parentheses. -/
def Complete (sql : Text) : Prop :=
  (scanEnd sql).mode.isQuoted = false ∧ (scanEnd sql).depth = 0

instance (sql : Text) : Decidable (Complete sql) :=
  inferInstanceAs (Decidable (_ ∧ _))

/-- A fragment whose piece ends outside parentheses has a closed body. -/
theorem FragmentOf.closed {sql : Text} {part : List Step} {fragment : Fragment}
    (h : FragmentOf (stepsText part) fragment) (hpiece : PieceOf ';' sql part)
    (hdepth : (lastState .start part).depth = 0) (hmarker : fragment.marker? = none) :
    ClosedBody fragment.body := by
  have htidy := h.body
  refine ⟨?_, ?_, ?_, htidy.tokens, ?_⟩
  · rw [h.ends, hpiece.scanEnd, hdepth]
    rfl
  · intro step hstep
    have hmem := h.steps.subset hstep
    rw [hpiece.scan] at hmem
    exact hpiece.separators step hmem
  · rw [htidy.trimEnd, htidy.trimComments]
  · rw [← marker?_eq, hmarker]

theorem fragment_closed {sql : Text} (hsql : Complete sql) {fragment : Fragment}
    (h : fragment ∈ fragments sql) (hmarker : fragment.marker? = none) :
    TidyBody fragment.body ∧ ClosedBody fragment.body := by
  obtain ⟨part, hpiece, hof⟩ := fragmentOf_of_mem hsql.1 h
  have hdepth : (lastState .start part).depth = 0 := by
    rcases hpiece.ends with hstart | hsame
    · rw [hstart]
      rfl
    · rw [hsame]
      exact hsql.2
  exact ⟨hof.body, hof.closed hpiece hdepth hmarker⟩

theorem statement_closed {sql : Text} (hsql : Complete sql) {statement : Statement}
    (h : statement ∈ statements sql) :
    TidyBody statement.body ∧ ClosedBody statement.body ∧
      ∀ line ∈ statement.comment, CommentLine line := by
  obtain ⟨hcomment, fragment, hmem, hbody, hmarker⟩ := statementsFrom_mem h
  obtain ⟨htidy, hclosed⟩ := fragment_closed hsql hmem hmarker
  rw [hbody]
  refine ⟨htidy, hclosed, fun line hline => ?_⟩
  rcases hcomment line hline with hnil | ⟨x, hx, hin⟩
  · cases hnil
  · obtain ⟨part, -, hof⟩ := fragmentOf_of_mem hsql.1 hx
    exact hof.commentLines line hin

end AuroraMigration
