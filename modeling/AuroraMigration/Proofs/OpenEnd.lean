import AuroraMigration.Proofs.Keywords
import AuroraMigration.Proofs.Transactions

/-!
# Statements that are left open

The last statement of a migration may end inside quotes or parentheses. Its body
is then cut at blanks that belong to the open quote, and what a script puts
behind it is read as part of it. Neither changes the keywords that it starts
with.
-/

namespace AuroraMigration

/-! ## Blanks -/

theorem Trace.after_blank {s : ScanState} {steps : List Step} {rest : Text}
    (h : Trace s steps rest) (hblank : ∀ step ∈ steps, isBlank step.first = true) :
    lastState s steps = s ∨
      (s.mode = .lineComment ∧ lastState s steps = ⟨.code, s.depth⟩) := by
  induction steps generalizing s with
  | nil => exact .inl rfl
  | cons step later ih =>
      have hlater := ih h.2 fun x hx => hblank x (List.mem_cons_of_mem step hx)
      have hstep := stepAt_after_blank s (hblank step List.mem_cons_self)
        (step.more ++ (stepsText later ++ rest))
      rw [h.1] at hstep
      rw [lastState_cons]
      rcases hstep with hsame | ⟨hmode, -, hclosed⟩
      · rwa [hsame] at hlater ⊢
      · rw [hclosed] at hlater ⊢
        rcases hlater with hlater | ⟨hcode, -⟩
        · exact .inr ⟨hmode, hlater⟩
        · cases hcode

/-- Blanks neither open nor close quotes. -/
theorem Trace.quoted_of_blank {s : ScanState} {steps : List Step} {rest : Text}
    (h : Trace s steps rest) (hblank : ∀ step ∈ steps, isBlank step.first = true) :
    (lastState s steps).mode.isQuoted = s.mode.isQuoted := by
  rcases h.after_blank hblank with hsame | ⟨hline, hclosed⟩
  · rw [hsame]
  · rw [hclosed, hline]
    rfl

theorem scanFrom_blank (s : ScanState) {back : Text} (h : ∀ c ∈ back, isBlank c = true) :
    ∀ step ∈ scanFrom s 0 back, isBlank step.first = true := by
  intro step hstep
  apply h
  rw [← stepsText_scanFrom s back]
  exact List.mem_flatMap.2 ⟨step, hstep, by simp [Step.chars]⟩

/-- Trimming a text takes no token away, unless what is left ends in quotes. -/
theorem lexemes_trim {text : Text} (hend : (scanEnd (Text.trim text)).mode.isQuoted = false) :
    lexemes (scan (Text.trim text)) = lexemes (scan text) := by
  obtain ⟨front, back, hfront, hback, hscan⟩ := scan_trim_split text
  have htrace := trace_scanFrom (scanEnd (Text.trim text)) back
  have hblank := scanFrom_blank (scanEnd (Text.trim text)) hback
  have hopen := htrace.quoted_of_blank hblank
  rw [hend] at hopen
  have hinert := htrace.inert_of_blank (scanEnd_wellTagged (Text.trim text)) hblank hopen
  rw [hscan, lexemes_inert_append (skipped_blank hfront).inert, lexemes_append_inert hinert]

/-! ## Bodies of pieces -/

/-- The line feed that ends a text in quotes is a blank in quotes. -/
theorem Trace.chomp_quoted {steps : List Step} {rest : Text} (h : Trace .start steps rest)
    (hend : (lastState .start steps).mode.isQuoted = true) :
    ∃ kept back, steps = kept ++ back ∧ Text.chomp (stepsText steps) = stepsText kept ∧
      (lastState .start kept).mode.isQuoted = true := by
  rcases h.chomp with hsame | ⟨before, step, rfl, -, hfirst, hchomp⟩
  · exact ⟨steps, [], by simp, hsame, hend⟩
  · refine ⟨before, [step], rfl, hchomp, ?_⟩
    have hblank : ∀ x ∈ [step], isBlank x.first = true := by
      intro x hx
      rw [List.mem_singleton.1 hx, hfirst]
      decide
    rw [← (trace_append.1 h).2.quoted_of_blank hblank, ← lastState_append, hend]

/-- Trimming a text that ends in quotes cuts blanks off the last token. -/
theorem scan_trim_quoted {text : Text} (hend : (scanEnd text).mode.isQuoted = true) :
    (scanEnd (Text.trim text)).mode.isQuoted = true ∧ scan (Text.trim text) <:+: scan text ∧
      keywordsOf (lexemes (scan (Text.trim text))) = keywordsOf (lexemes (scan text)) := by
  obtain ⟨front, back, hfront, hback, hscan⟩ := scan_trim_split text
  have hskip := skipped_blank hfront
  have hquoted : (scanEnd (Text.trim text)).mode.isQuoted = true := by
    rw [← (trace_scanFrom _ back).quoted_of_blank (scanFrom_blank _ hback), ← hend,
      scanEnd_eq_lastState text, hscan, lastState_append, hskip.state, lastState_append,
      ← scanEnd_eq_lastState]
  refine ⟨hquoted, ⟨_, _, by rw [hscan, List.append_assoc]⟩, ?_⟩
  rw [scanEnd_eq_lastState] at hquoted
  rw [hscan, lexemes_inert_append hskip.inert,
    keywordsOf_steps_append ((trace_scan _).endsWords (.inl hquoted))]

theorem last_of_quoted {text : Text} (hend : (scanEnd text).mode.isQuoted = true) {step : Step}
    (hstep : (scan text).getLast? = some step) : step.isSignificant = true := by
  refine ((trace_scan text).shape step (List.mem_of_getLast? hstep)).significant_of_quoted ?_
  simpa [scanEnd, hstep] using hend

/-- What the body of a fragment keeps of the steps of its piece, wherever the piece ends. -/
structure HeldBy (steps : List Step) (body : Text) : Prop where
  sublist : (scan body).Sublist steps
  keywords : keywordsOf (lexemes (scan body)) = keywordsOf (lexemes steps)
  lines : LineTidy (scan body)
  last : ∀ step, (scan body).getLast? = some step → step.isSignificant = true

theorem tidyBody_quoted {steps : List Step} (h : Trace .start steps [])
    (hend : (lastState .start steps).mode.isQuoted = true) :
    HeldBy steps (tidyBody (Text.chomp (stepsText steps))) := by
  obtain ⟨kept, back, rfl, hchomp, hquoted⟩ := h.chomp_quoted hend
  have hkept := (trace_append.1 h).1
  have hcomments : trimComments (stepsText kept) = stepsText kept := by
    apply trimComments_of_quoted
    rw [scanEnd_eq_lastState, scan_stepsText hkept, hquoted]
  have hthin := dropLineBlanks_thinned kept
  obtain ⟨htrace, hlast⟩ := hthin.trace hkept wellTagged_start
  have hscan := scan_stepsText htrace
  have hthinEnd : (scanEnd (stepsText (dropLineBlanks kept))).mode.isQuoted = true := by
    rw [scanEnd_eq_lastState, hscan, hlast, hquoted]
  obtain ⟨hbodyEnd, hwithin, hkeywords⟩ := scan_trim_quoted hthinEnd
  rw [hscan] at hwithin hkeywords
  rw [tidyBody, hchomp, hcomments, scan_stepsText hkept]
  refine ⟨?_, ?_, ?_, fun step => last_of_quoted hbodyEnd⟩
  · exact (hwithin.sublist.trans hthin.sublist).trans (List.sublist_append_left _ _)
  · rw [hkeywords, lexemes_dropLineBlanks,
      keywordsOf_steps_append (hkept.endsWords (.inl hquoted))]
  · exact List.IsChain.infix (lineTidy_dropLineBlanks kept) hwithin

/-- The body of a fragment holds what its piece holds, wherever the piece ends. -/
theorem Fragment.ofPiece?_held {piece : Text} {fragment : Fragment}
    (h : Fragment.ofPiece? piece = some fragment) : HeldBy (scan piece) fragment.body := by
  cases hend : (scanEnd piece).mode.isQuoted with
  | false =>
      rcases Fragment.ofPiece?_spec hend with ⟨hnone, -⟩ | ⟨found, hsome, hof⟩
      · rw [hnone] at h
        cases h
      · rw [hsome] at h
        obtain rfl := Option.some.inj h
        refine ⟨hof.steps, ?_, hof.body.lines, hof.body.last⟩
        rw [hof.lexemes, keywordsOf_dropReturns (trace_scan piece)]
  | true =>
      rcases rawSteps_of_piece piece with ⟨hnone, -⟩ | ⟨steps, hsteps⟩
      · rw [hnone] at h
        cases h
      · rw [← hsteps.ends] at hend
        have hheld := tidyBody_quoted hsteps.trace hend
        rw [hsteps.ofPiece?] at h
        generalize tidyBody (Text.chomp (stepsText steps)) = body at h hheld
        split at h
        · cases h
        · obtain rfl := Option.some.inj h
          refine ⟨hheld.sublist.trans hsteps.sublist, ?_, hheld.lines, hheld.last⟩
          rw [hheld.keywords, hsteps.lexemes, keywordsOf_dropReturns (trace_scan piece)]

theorem Fragment.ofPiece?_some {piece : Text} {fragment : Fragment}
    (h : Fragment.ofPiece? piece = some fragment) :
    (∀ line ∈ fragment.comment, CommentLine line) ∧ lexemes (scan fragment.body) ≠ [] := by
  generalize hbody : tidyBody (Text.join ['\n'] (leadingComment [] (Text.lines piece)).2) = body
  rw [Fragment.ofPiece?_of_body hbody] at h
  split at h
  · cases h
  · rename_i htokens
    obtain rfl := Option.some.inj h
    exact ⟨leadingComment_commentLines (by simp) fun _ => Text.lines_feed, htokens⟩

/-! ## Closed and open bodies -/

/-- A body that ends in a token and has no semicolon outside parentheses. -/
structure SolidBody (body : Text) : Prop where
  separators : ∀ step ∈ scan body, step.isTopLevel ';' = false
  last : ∀ step, (scan body).getLast? = some step → step.isSignificant = true
  tokens : lexemes (scan body) ≠ []
  marker : Marker.ofLexemes? (lexemes (scan body)) = none

/-- A body that ends in quotes or in parentheses. -/
structure OpenBody (body : Text) : Prop where
  separators : ∀ step ∈ scan (Text.trimEnd body), step.isTopLevel ';' = false
  opened : (scanEnd (Text.trimEnd body)).mode.isQuoted = true ∨
    ((scanEnd (Text.trimEnd body)).mode = .code ∧ (scanEnd (Text.trimEnd body)).depth ≠ 0)
  keywords : keywordsOf (lexemes (scan (Text.trimEnd body))) = keywordsOf (lexemes (scan body))

theorem scan_trimEnd_split (text : Text) :
    ∃ back : Text, (∀ c ∈ back, isBlank c = true) ∧
      scan text = scan (Text.trimEnd text) ++ scanFrom (scanEnd (Text.trimEnd text)) 0 back := by
  obtain ⟨back, hsplit, hback⟩ := dropTrailing_split isBlank text
  have hboundary : Boundary back :=
    fun c hc => isBreak_of_isBlank (hback c (List.mem_of_head? hc))
  refine ⟨back, hback, ?_⟩
  conv_lhs => rw [hsplit]
  exact scan_append (Text.trimEnd text) hboundary

theorem SolidBody.trimEnd {body : Text} (h : SolidBody body) (hmode : (scanEnd body).mode = .code) :
    Text.trimEnd body = body := by
  rw [scanEnd_eq_lastState] at hmode
  apply Text.trimEnd_eq_self
  intro c hc
  refine (trace_scan body).solid_end hmode h.last ?_
  rwa [stepsText_scan]

theorem SolidBody.mode {body : Text} (h : SolidBody body)
    (hquoted : (scanEnd body).mode.isQuoted = false) : (scanEnd body).mode = .code := by
  apply Mode.eq_code hquoted
  rw [scanEnd_eq_lastState]
  rcases List.eq_nil_or_concat' (scan body) with hnil | ⟨before, step, hsteps⟩
  · rw [hnil]
    rfl
  · have hshape := (trace_scan body).shape step (by simp [hsteps])
    rw [hsteps, lastState_append]
    exact (hshape.after_of_significant (h.last step (by simp [hsteps]))).1

theorem SolidBody.closed {body : Text} (h : SolidBody body) (hend : scanEnd body = .start) :
    ClosedBody body := by
  refine ⟨hend, h.separators, ?_, h.tokens, h.marker⟩
  change Text.trimEnd body = stepsText (significantPart (scan body))
  rw [h.trimEnd (by rw [hend]; rfl), significantPart_of_last h.last, stepsText_scan]

theorem SolidBody.opened {body : Text} (h : SolidBody body) (hend : scanEnd body ≠ .start) :
    OpenBody body := by
  cases hquoted : (scanEnd body).mode.isQuoted with
  | false =>
      have hmode := h.mode hquoted
      have hdepth : (scanEnd body).depth ≠ 0 := fun hzero => hend (ScanState.eq_start hmode hzero)
      have htrim := h.trimEnd hmode
      refine ⟨?_, ?_, ?_⟩ <;> rw [htrim]
      · exact h.separators
      · exact .inr ⟨hmode, hdepth⟩
  | true =>
      obtain ⟨back, hback, hscan⟩ := scan_trimEnd_split body
      have hopen : (scanEnd (Text.trimEnd body)).mode.isQuoted = true := by
        rw [← (trace_scanFrom _ back).quoted_of_blank (scanFrom_blank _ hback), ← hquoted,
          scanEnd_eq_lastState body, hscan, lastState_append, ← scanEnd_eq_lastState]
      refine ⟨fun step hstep => h.separators step ?_, .inl hopen, ?_⟩
      · rw [hscan]
        exact List.mem_append_left _ hstep
      · rw [scanEnd_eq_lastState] at hopen
        rw [hscan, keywordsOf_steps_append ((trace_scan _).endsWords (.inl hopen))]

theorem SolidBody.closed_or_open {body : Text} (h : SolidBody body) :
    ClosedBody body ∨ OpenBody body := by
  by_cases hend : scanEnd body = .start
  · exact .inl (h.closed hend)
  · exact .inr (h.opened hend)

/-! ## What is emitted for any body -/

theorem buildsAsync_of_unconverted {body : Text}
    (h : Adaptation.ofBody body = { body := some body }) : BuildsAsync body := by
  apply buildsAsync_of_indexEnd?
  intro n hn
  cases hasync : startsWith ["ASYNC"] ((tokenize body).drop n) with
  | true => rfl
  | false =>
      obtain ⟨xs, zs, ys, word, -, hconverted⟩ := asyncIndex?_spec hn hasync
      obtain ⟨unique, hkind⟩ := ofBody_of_indexEnd? hn
      rw [hasync] at hkind
      simp only [Adaptation.ofBody, hkind, hconverted] at h
      cases congrArg Adaptation.indexesConverted h

theorem solidBody_converted {body : Text} (h : SolidBody body) {n : Nat}
    (hn : indexEnd? (tokenize body) = some n) {xs zs ys : List Step} {word : Text}
    (hat : AsyncAt body n xs zs ys word) : SolidBody (stepsText xs ++ (word ++ stepsText ys)) where
  separators := by
    rw [hat.scan_eq]
    exact hat.separators h.separators
  last := by
    rw [hat.scan_eq]
    exact fun step => hat.last h.last
  tokens := by
    rw [hat.lexemes_eq]
    simp [withAsync_ne_nil]
  marker := by
    rw [← tokenize_lexemes, markerOfLexemes_map]
    exact marker_none_of_indexEnd? (hat.indexEnd? hn).1

theorem buildsAsync_of_keyword {body : Text} {keyword : String}
    (h : startsWith [keyword] (tokenize body) = true)
    (hother : keyword.toList ≠ "CREATE".toList) : BuildsAsync body := by
  intro unique hkind
  obtain ⟨n, hn, -⟩ := indexEnd?_of_ofBody hkind
  obtain ⟨head, rest, htokens, hhead, -⟩ := indexHead_of_indexEnd? hn
  obtain ⟨create, others, hcreate, hstart⟩ : ∃ create others, head = create :: others ∧
      create.isKeyword "CREATE" = true := by
    cases hhead with
    | plain hcreate _ => exact ⟨_, _, rfl, hcreate⟩
    | unique hcreate _ _ => exact ⟨_, _, rfl, hcreate⟩
  have hfalse := isKeyword_false (b := keyword) hstart hother.symm
  simp [htokens, hcreate, startsWith, hfalse] at h

namespace AlterAt

variable {body : Text} {alter : AlterTable} {a t : Token} {before : List Token} {part : Token}
  {after : List Token} {start : Nat} {hs ys : List Step}

theorem rewritten_buildsAsync (h : AlterAt body alter a t before part after start hs ys) :
    BuildsAsync (rewritten alter) := by
  have hstart : startsWith ["ALTER"] (tokenize (rewritten alter)) = true := by
    rw [← keywordsOf_scan, h.rewritten_lexemes]
    simp [keywordsOf, startsWith, h.alterWord]
  exact buildsAsync_of_keyword hstart (by decide)

/-- A statement that is written again ends where the last surviving clause does. -/
theorem rewritten_solid (h : AlterAt body alter a t before part after start hs ys)
    (hbody : ∀ step ∈ scan body, step.isTopLevel ';' = false) {core : Text}
    (hlast : (survivingCores alter).getLast? = some core) (hfilled : core ≠ []) :
    SolidBody (rewritten alter) where
  separators := h.rewritten_separators hbody
  last := by
    obtain ⟨clause, -, rfl, -, htext⟩ := h.survivor (List.mem_of_getLast? hlast)
    obtain ⟨steps, last, hsteps, hsig⟩ := clauseSteps_last hlast htext.core hfilled
    intro step hstep
    rw [h.scan_rewritten.1, rewrittenSteps, hsteps, ← List.append_assoc, ← List.append_assoc,
      List.getLast?_concat, Option.some.injEq] at hstep
    rw [← hstep]
    exact hsig
  tokens := by
    rw [h.rewritten_lexemes]
    simp
  marker := h.rewritten_marker

/-- A statement that is written again is closed unless its last clause is open. -/
theorem rewritten_closed_or_open (h : AlterAt body alter a t before part after start hs ys)
    (hbody : ∀ step ∈ scan body, step.isTopLevel ';' = false) (hlines : LineTidy (scan body))
    (hne : alter.survivors ≠ []) : ClosedBody (rewritten alter) ∨ OpenBody (rewritten alter) := by
  have hsome : survivingCores alter ≠ [] := by simpa [survivingCores] using hne
  obtain ⟨front, core, hcores⟩ := (List.eq_nil_or_concat' (survivingCores alter)).resolve_left hsome
  by_cases hfilled : core = []
  · have hends : ∀ x ∈ survivingCores alter, scanEnd x = .start := by
      have hclosed := h.cores_closed
      rw [hcores, List.pairwise_append] at hclosed
      rw [hcores]
      intro x hx
      rcases List.mem_append.1 hx with hx | hx
      · exact hclosed.2.2 x hx core (by simp)
      · rw [List.mem_singleton.1 hx, hfilled]
        rfl
    rw [h.split] at hlines
    have hclosedCores : ∀ x ∈ survivingCores alter, ClosedCore x := by
      intro x hx
      obtain ⟨clause, -, rfl, -, htext⟩ := h.survivor hx
      exact htext.closedCore (hends _ hx) (List.IsChain.right_of_append hlines)
    obtain ⟨rs, parts, hr⟩ := h.rewritten_spec hclosedCores hne
    exact .inl (h.rewritten_closed hclosedCores hbody hr)
  · have hlast : (survivingCores alter).getLast? = some core := by
      rw [hcores, List.getLast?_concat]
    exact (h.rewritten_solid hbody hlast hfilled).closed_or_open

end AlterAt

/-- What is emitted for a body is closed or open at its end, and has no index to convert. -/
theorem emitted_closed_or_open {body : Text} (h : SolidBody body) (hlines : LineTidy (scan body))
    {out : Text} (hout : (Adaptation.ofBody body).body = some out) :
    (ClosedBody out ∨ OpenBody out) ∧ BuildsAsync out := by
  cases adapted body with
  | same hbody =>
      have hasync := buildsAsync_of_unconverted hbody
      rw [hbody] at hout
      obtain rfl := Option.some.inj hout
      exact ⟨h.closed_or_open, hasync⟩
  | converted n hn hasync =>
      obtain ⟨xs, zs, ys, word, hat, hconverted⟩ := asyncIndex?_spec hn hasync
      obtain ⟨unique, hkind⟩ := ofBody_of_indexEnd? hn
      rw [hasync] at hkind
      simp only [Adaptation.ofBody, hkind, hconverted] at hout
      obtain rfl := Option.some.inj hout
      refine ⟨(solidBody_converted h hn hat).closed_or_open, buildsAsync_of_indexEnd? ?_⟩
      intro m hm
      obtain ⟨hn', hasync'⟩ := hat.indexEnd? hn
      rw [hn', Option.some.injEq] at hm
      rw [← hm]
      exact hasync'
  | removed alter hkind hnone =>
      simp [Adaptation.ofBody, hkind, AlterTable.remaining?, hnone] at hout
  | rewritten alter hkind hloses =>
      rw [adaptation_of_losesClauses hkind hloses] at hout
      obtain rfl := Option.some.inj hout
      obtain ⟨a, t, before, part, after, start, hs, ys, hat⟩ := alterAt_of_ofBody hkind
      exact ⟨hat.rewritten_closed_or_open h.separators hlines hloses.1, hat.rewritten_buildsAsync⟩

/-! ## The blocks of any migration -/

theorem fragment_solid {sql : Text} {fragment : Fragment} (h : fragment ∈ fragments sql)
    (hmarker : fragment.marker? = none) :
    SolidBody fragment.body ∧ LineTidy (scan fragment.body) := by
  rw [fragments_eq] at h
  obtain ⟨part, hpart, hsome⟩ := List.mem_filterMap.1 h
  have hpiece : PieceOf ';' sql part := pieceOf_of_mem (by decide) hpart
  have hheld := Fragment.ofPiece?_held hsome
  rw [hpiece.scan] at hheld
  exact ⟨⟨fun step hstep => hpiece.separators step (hheld.sublist.subset hstep), hheld.last,
    (Fragment.ofPiece?_some hsome).2, by rw [← marker?_eq, hmarker]⟩, hheld.lines⟩

theorem statement_comment {sql : Text} {statement : Statement} (h : statement ∈ statements sql) :
    ∀ line ∈ statement.comment, CommentLine line := by
  intro line hline
  rcases (statementsFrom_mem h).1 line hline with hnil | ⟨fragment, hfragment, hin⟩
  · cases hnil
  · obtain ⟨piece, -, hsome⟩ := List.mem_filterMap.1 hfragment
    exact (Fragment.ofPiece?_some hsome).1 line hin

/-- Only the last fragment can be left open. -/
theorem fragments_closed (sql : Text) :
    (fragments sql).Pairwise fun fragment _ =>
      fragment.marker? = none → TidyBody fragment.body ∧ ClosedBody fragment.body := by
  have hsplit := (splitsOn_splitOnP (Step.isTopLevel ';') (scan sql)).closed (by decide)
    (trace_scan sql)
  have hpieces : (pieceSteps ';' sql).Pairwise fun part _ =>
      PieceOf ';' sql part ∧ lastState .start part = .start :=
    hsplit.imp_of_mem fun hpart _ hend => ⟨pieceOf_of_mem (by decide) hpart, hend⟩
  rw [fragments_eq]
  refine hpieces.filterMap _ ?_
  rintro part - ⟨hpiece, hend⟩ fragment hsome - - hmarker
  have hunquoted : (scanEnd (stepsText part)).mode.isQuoted = false := by
    rw [hpiece.scanEnd, hend]
    rfl
  rcases Fragment.ofPiece?_spec hunquoted with ⟨hnone, -⟩ | ⟨found, hfound, hof⟩
  · rw [hnone] at hsome
    cases hsome
  · rw [hfound] at hsome
    obtain rfl := Option.some.inj hsome
    exact ⟨hof.body, hof.closed hpiece (by rw [hend]; rfl) hmarker⟩

theorem statements_closed (sql : Text) :
    (statements sql).Pairwise fun statement _ =>
      TidyBody statement.body ∧ ClosedBody statement.body := by
  have hbodies : ((statements sql).map Statement.body).Pairwise fun body _ =>
      TidyBody body ∧ ClosedBody body := by
    rw [statements, statementsFrom_bodies, List.pairwise_map]
    refine (List.Pairwise.filter _ (fragments_closed sql)).imp_of_mem ?_
    intro fragment _ hfragment _ h
    exact h (by simpa using (List.mem_filter.1 hfragment).2)
  exact List.pairwise_map.1 hbodies

/-- Only the last block of a migration can be left open. -/
theorem emitted_closed (sql : Text) : (emitted sql).Pairwise fun block _ => block.Sound := by
  unfold emitted Migration.blocks
  have hstatements : (statements sql).Pairwise fun statement _ =>
      (∀ line ∈ statement.comment, CommentLine line) ∧
        TidyBody statement.body ∧ ClosedBody statement.body :=
    (statements_closed sql).imp_of_mem fun hmem _ h => ⟨statement_comment hmem, h⟩
  rw [List.filterMap_map]
  refine hstatements.filterMap _ ?_
  rintro statement - ⟨hcomment, htidy, hclosed⟩ block hblock - -
  obtain ⟨body, hbody, rfl⟩ := Option.map_eq_some_iff.1 hblock
  exact ⟨hcomment, (emitted_spec htidy hclosed hbody).1⟩

/-- A block of any migration. -/
structure Block.Emitted (block : Block) : Prop where
  comment : ∀ line ∈ block.comment, CommentLine line
  body : ClosedBody block.body ∨ OpenBody block.body
  async : BuildsAsync block.body

theorem emitted_block {sql : Text} {block : Block} (h : block ∈ emitted sql) : block.Emitted := by
  obtain ⟨statement, hstatement, hcomment, hbody⟩ := mem_emitted h
  obtain ⟨-, fragment, hfragment, hsame, hmarker⟩ := statementsFrom_mem hstatement
  obtain ⟨hsolid, hlines⟩ := fragment_solid hfragment hmarker
  rw [hsame] at hbody
  obtain ⟨hends, hasync⟩ := emitted_closed_or_open hsolid hlines hbody
  refine ⟨?_, hends, hasync⟩
  rw [hcomment]
  exact statement_comment hstatement

end AuroraMigration
