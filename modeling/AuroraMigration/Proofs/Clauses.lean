import AuroraMigration.Proofs.TableName

/-!
# Clauses of an altered table

The clauses of `ALTER TABLE` are pieces between commas. Each of them is closed:
its scan, up to comments and white space around it, is a stretch of the scan of
the whole statement that starts and ends in code outside parentheses. So the
clauses that survive can be written one after the other again, and reading the
result finds the same name of the table and the same clauses.
-/

namespace AuroraMigration

/-! ## Trimming a piece -/

/-- Blanks that do not end in quotes hold no token. -/
theorem Trace.inert_of_blank {s : ScanState} {steps : List Step} {rest : Text}
    (h : Trace s steps rest) (hs : s.WellTagged)
    (hblank : ∀ step ∈ steps, isBlank step.first = true)
    (hend : (lastState s steps).mode.isQuoted = false) :
    ∀ step ∈ steps, step.isSignificant = false := by
  induction steps generalizing s with
  | nil => simp
  | cons step later ih =>
      have hmore := ((h.more_not_break hs step List.mem_cons_self).1
        (isBreak_of_isBlank (hblank step List.mem_cons_self)))
      have hshape := h.shape step List.mem_cons_self
      have hs' : step.after.WellTagged := by
        rw [← h.1]
        exact stepAt_wellTagged hs _ _
      have hlater := ih h.2 hs' (fun x hx => hblank x (List.mem_cons_of_mem step hx)) hend
      have hstep : step.isSignificant = false := by
        have hfirst := hblank step List.mem_cons_self
        cases hshape with
        | code _ hcls => simp [Step.isSignificant, hcls, hfirst]
        | comment _ hcls => simp [Step.isSignificant, hcls]
        | quoted _ hcls hafter =>
            exfalso
            rcases hafter with hquoted | ⟨-, hdelimiter⟩
            · by_cases hnil : later = []
              · rw [hnil, lastState_cons, lastState_nil, hquoted] at hend
                cases hend
              · have hopen := (h.2.inert hlater).2 hnil
                rw [hquoted] at hopen
                cases hopen
            · have hsolid := hdelimiter.solid step.first (by simp [Step.chars, hmore])
              rw [hfirst] at hsolid
              cases hsolid
      intro x hx
      rcases List.mem_cons.1 hx with rfl | hx
      · exact hstep
      · exact hlater x hx

/-- Trimming takes blanks off both ends of a scan; those at the end may stand in quotes. -/
theorem scan_trim_split (text : Text) :
    ∃ front back : Text, (∀ c ∈ front, isBlank c = true) ∧ (∀ c ∈ back, isBlank c = true) ∧
      scan text = front.map (codeStep 0) ++
        (scan (Text.trim text) ++ scanFrom (scanEnd (Text.trim text)) 0 back) := by
  obtain ⟨front, back, htext, hfront, hback⟩ := Text.trim_split text
  refine ⟨front, back, hfront, hback, ?_⟩
  have hboundary : Boundary back := by
    intro c hc
    exact isBreak_of_isBlank (hback c (List.mem_of_head? hc))
  conv_lhs => rw [htext]
  rw [(skipped_blank hfront).scan_append, scan_append (Text.trim text) hboundary]

theorem scan_trim {text : Text} (hend : (scanEnd text).mode.isQuoted = false) :
    (scanEnd (Text.trim text)).mode.isQuoted = false ∧
      (scanEnd (Text.trim text)).depth = (scanEnd text).depth := by
  obtain ⟨front, back, hfront, hback, hscan⟩ := scan_trim_split text
  have htagged := scanEnd_wellTagged (Text.trim text)
  generalize hstate : scanEnd (Text.trim text) = s at hscan htagged ⊢
  have htrace := trace_scanFrom s back
  have hlast : scanEnd text = lastState s (scanFrom s 0 back) := by
    rw [scanEnd_eq_lastState, hscan, lastState_append, (skipped_blank hfront).state,
      lastState_append, ← scanEnd_eq_lastState, hstate]
  rw [hlast] at hend
  have hfirst : ∀ step ∈ scanFrom s 0 back, isBlank step.first = true := by
    intro step hstep
    apply hback
    rw [← stepsText_scanFrom s back]
    exact List.mem_flatMap.2 ⟨step, hstep, by simp [Step.chars]⟩
  have hinert := htrace.inert_of_blank htagged hfirst hend
  obtain ⟨hdepth, hopen⟩ := htrace.inert hinert
  refine ⟨?_, by rw [hlast, hdepth]⟩
  by_cases hnil : scanFrom s 0 back = []
  · rw [hnil] at hend
    exact hend
  · exact hopen hnil

/-! ## Clauses -/

theorem significantPart_isPrefix (steps : List Step) : significantPart steps <+: steps := by
  obtain ⟨tail, hsplit, -⟩ := significantPart_split steps
  exact ⟨tail, hsplit.symm⟩

theorem Step.Shape.significant_of_quoted {step : Step} (h : step.Shape)
    (hafter : step.after.mode.isQuoted = true) : step.isSignificant = true := by
  cases h with
  | code _ _ _ hcode =>
      rw [hcode] at hafter
      cases hafter
  | quoted _ hcls =>
      unfold Step.isSignificant
      cases hc : step.cls <;> simp_all [CharClass.isQuoted]
  | comment _ _ hclosed =>
      rw [hclosed] at hafter
      cases hafter

theorem trimComments_of_quoted {text : Text} (h : (scanEnd text).mode.isQuoted = true) :
    trimComments text = text := by
  have hlast : ∀ step, (scan text).getLast? = some step → step.isSignificant = true := by
    intro step hstep
    refine ((trace_scan text).shape step (List.mem_of_getLast? hstep)).significant_of_quoted ?_
    simpa [scanEnd, hstep] using h
  change stepsText (significantPart (scan text)) = text
  rw [significantPart_of_last hlast, stepsText_scan]

/-- Without comments at its end a trimmed text ends in a solid character. -/
theorem trimComments_solid_end (text : Text) {c : Char}
    (h : (trimComments (Text.trim text)).getLast? = some c) : isBlank c = false := by
  cases hmode : (scanEnd (Text.trim text)).mode.isQuoted with
  | true =>
      rw [trimComments_of_quoted hmode] at h
      exact Text.trim_last h
  | false =>
      have hend := scanEnd_trimComments hmode
      rw [scanEnd_eq_lastState] at hend
      have htrace := trace_scan (trimComments (Text.trim text))
      refine htrace.solid_end (by rw [hend]) ?_ (by rwa [stepsText_scan])
      rw [scan_trimComments]
      exact fun step hstep => significantPart_last hstep

/-- A clause as it stands between commas in steps `whole`. -/
structure ClauseText (whole : List Step) (text : Text) : Prop where
  solid : ∀ c, text.head? = some c → isBlank c = false
  solidEnd : ∀ c, (trimComments text).getLast? = some c → isBlank c = false
  whole : scan (trimComments text) <:+: whole
  separators : ∀ step ∈ scan (trimComments text), step.isTopLevel ',' = false

theorem commaParts_eq (tail : Text) :
    commaParts tail =
      ((pieceSteps ',' tail).map fun part => Text.trim (stepsText part)).filter (!·.isEmpty) := by
  rw [commaParts, piecesAt, List.map_map]
  rfl

/-- A piece that is trimmed keeps a stretch of its steps. -/
theorem PieceOf.trimmed {separator : Char} {sql : Text} {part : List Step}
    (h : PieceOf separator sql part) :
    AuroraMigration.scan (Text.trim (stepsText part)) <:+: part := by
  obtain ⟨front, back, -, -, hscan⟩ := scan_trim_split (stepsText part)
  rw [h.scan, ← List.append_assoc] at hscan
  exact ⟨_, _, hscan.symm⟩

theorem clauseText_of_mem {tail text : Text} (h : text ∈ commaParts tail) :
    ClauseText (scan tail) text := by
  rw [commaParts_eq] at h
  obtain ⟨part, hpart, rfl⟩ := List.mem_map.1 (List.mem_filter.1 h).1
  have hpiece : PieceOf ',' tail part := pieceOf_of_mem (by decide) hpart
  have hwithin : scan (trimComments (Text.trim (stepsText part))) <:+: part := by
    rw [scan_trimComments]
    exact (significantPart_isPrefix _).isInfix.trans hpiece.trimmed
  refine ⟨fun c hc => Text.trim_head hc, fun c hc => trimComments_solid_end _ hc,
    hwithin.trans hpiece.within, ?_⟩
  intro step hstep
  exact hpiece.separators step (hwithin.subset hstep)

/-- A piece that ends where it started is a clause that does so too. -/
theorem clauseEnd_of_piece {part : List Step} (h : Trace .start part [])
    (hend : lastState .start part = .start) :
    scanEnd (trimComments (Text.trim (stepsText part))) = .start := by
  have hstart : scanEnd (stepsText part) = .start := by
    rw [scanEnd_eq_lastState, scan_stepsText h, hend]
  have hunquoted : (scanEnd (stepsText part)).mode.isQuoted = false := by
    rw [hstart]
    rfl
  obtain ⟨hmode, hdepth⟩ := scan_trim hunquoted
  rw [scanEnd_trimComments hmode, hdepth, hstart]
  rfl

/-- Only the last clause can end inside quotes or parentheses. -/
theorem commaParts_closed (tail : Text) :
    (commaParts tail).Pairwise fun text _ => scanEnd (trimComments text) = .start := by
  have hsplit := splitsOn_splitOnP (Step.isTopLevel ',') (scan tail)
  have hclosed := hsplit.closed (by decide) (trace_scan tail)
  rw [commaParts_eq]
  refine List.Pairwise.filter _ (List.pairwise_map.2 ?_)
  refine hclosed.imp_of_mem ?_
  intro part _ hpart _ hend
  exact clauseEnd_of_piece (pieceOf_of_mem (by decide) hpart).trace hend

theorem clauseEnd_of_mem {tail : Text} (hend : scanEnd tail = .start) {text : Text}
    (h : text ∈ commaParts tail) : scanEnd (trimComments text) = .start := by
  rw [commaParts_eq] at h
  obtain ⟨part, hpart, rfl⟩ := List.mem_map.1 (List.mem_filter.1 h).1
  have hpiece : PieceOf ',' tail part := pieceOf_of_mem (by decide) hpart
  refine clauseEnd_of_piece hpiece.trace ?_
  rcases hpiece.ends with hstart | hsame
  · exact hstart
  · rw [hsame, hend]

/-! ## Clauses one after the other -/

/-- The steps of a comma and a line feed. -/
def commaSteps : List Step :=
  ",\n".toList.map (codeStep 0)

/-- The steps of texts with a comma and a line feed between neighbours. -/
def clauseSteps : List Text → List Step
  | [] => []
  | [core] => scan core
  | core :: others => scan core ++ (commaSteps ++ clauseSteps others)

theorem clauseSteps_cons {core : Text} {others : List Text} (h : others ≠ []) :
    clauseSteps (core :: others) = scan core ++ (commaSteps ++ clauseSteps others) := by
  cases others with
  | nil => exact absurd rfl h
  | cons next others => rfl

/-- Texts are scanned one after the other if all but the last of them end where they started. -/
theorem scan_join {cores : List Text} (h : cores.Pairwise fun core _ => scanEnd core = .start) :
    scan (Text.join ",\n".toList cores) = clauseSteps cores := by
  induction cores with
  | nil => rfl
  | cons core others ih =>
      obtain ⟨hcore, hothers⟩ := List.pairwise_cons.1 h
      by_cases hnil : others = []
      · subst hnil
        rfl
      · have hlast : scanEnd core = .start := by
          obtain ⟨next, hnext⟩ := List.exists_mem_of_ne_nil others hnil
          exact hcore next hnext
        have hboundary : Boundary (",\n".toList ++ Text.join ",\n".toList others) :=
          (boundary_cons ',' _).2 (by decide)
        have hplain : scanFrom .start 0 (",\n".toList ++ Text.join ",\n".toList others) =
            commaSteps ++ scan (Text.join ",\n".toList others) :=
          scanFrom_plain 0 (List.all_eq_true.1 (by decide)) _
        rw [Text.join_cons hnil, clauseSteps_cons hnil, List.append_assoc,
          scan_append core hboundary, hlast, hplain, ih hothers]

theorem lastState_clauseSteps {cores : List Text} (h : ∀ core ∈ cores, scanEnd core = .start) :
    lastState .start (clauseSteps cores) = .start := by
  induction cores with
  | nil => rfl
  | cons core others ih =>
      have hlast : lastState .start (scan core) = .start := by
        rw [← scanEnd_eq_lastState, h core List.mem_cons_self]
      have hothers := ih fun x hx => h x (List.mem_cons_of_mem core hx)
      by_cases hnil : others = []
      · subst hnil
        exact hlast
      · have hcomma : lastState .start commaSteps = .start := rfl
        rw [clauseSteps_cons hnil, lastState_append, hlast, lastState_append, hcomma, hothers]

theorem mem_clauseSteps {cores : List Text} {step : Step} (h : step ∈ clauseSteps cores) :
    step ∈ commaSteps ∨ ∃ core ∈ cores, step ∈ scan core := by
  induction cores with
  | nil => cases h
  | cons core others ih =>
      by_cases hnil : others = []
      · subst hnil
        exact .inr ⟨core, List.mem_cons_self, h⟩
      · rw [clauseSteps_cons hnil] at h
        rcases List.mem_append.1 h with h | h
        · exact .inr ⟨core, List.mem_cons_self, h⟩
        · rcases List.mem_append.1 h with h | h
          · exact .inl h
          · rcases ih h with h | ⟨x, hx, h⟩
            · exact .inl h
            · exact .inr ⟨x, List.mem_cons_of_mem core hx, h⟩

/-- A clause without comments at its end, as it is written again. -/
structure ClauseCore (core : Text) : Prop where
  solid : ∀ c, core.head? = some c → isBlank c = false
  solidEnd : ∀ c, core.getLast? = some c → isBlank c = false
  last : ∀ step, (scan core).getLast? = some step → step.isSignificant = true
  commas : ∀ step ∈ scan core, step.isTopLevel ',' = false

/-- A clause that ends where it started and has no blanks at line ends. -/
structure ClosedCore (core : Text) : Prop extends ClauseCore core where
  ends : scanEnd core = .start
  lines : LineTidy (scan core)

theorem ClauseText.core {whole : List Step} {text : Text} (h : ClauseText whole text) :
    ClauseCore (trimComments text) where
  solid := by
    intro c hc
    apply h.solid
    obtain ⟨later, hlater⟩ := significantPart_isPrefix (scan text)
    have htext := stepsText_scan text
    rw [← hlater, stepsText_append] at htext
    rw [← htext, List.head?_append]
    change (trimComments text).head?.or _ = some c
    rw [hc]
    rfl
  solidEnd := h.solidEnd
  last := by
    rw [scan_trimComments]
    exact fun step hstep => significantPart_last hstep
  commas := h.separators

theorem ClauseText.closedCore {whole : List Step} {text : Text} (h : ClauseText whole text)
    (hends : scanEnd (trimComments text) = .start) (hlines : LineTidy whole) :
    ClosedCore (trimComments text) where
  toClauseCore := h.core
  ends := hends
  lines := List.IsChain.infix hlines h.whole

theorem ClauseCore.trim_append {core : Text} (h : ClauseCore core) {front : Text}
    (hfront : ∀ c ∈ front, isBlank c = true) : Text.trim (front ++ core) = core := by
  have hstart : Text.trim (front ++ core) = Text.trim core := by
    rw [Text.trim, Text.trimStart_append_of_blank hfront]
    rfl
  rw [hstart]
  exact Text.trim_eq_self h.solid h.solidEnd

theorem significantPart_append {xs ys : List Step}
    (h : ∀ step, xs.getLast? = some step → step.isSignificant = true) :
    significantPart (xs ++ ys) = xs ++ significantPart ys := by
  obtain ⟨tail, hsplit, htail⟩ := significantPart_split ys
  have hdrop : significantPart (xs ++ ys) = significantPart (xs ++ significantPart ys) := by
    conv_lhs => rw [hsplit, ← List.append_assoc]
    exact dropTrailing_append _ (by simpa using htail)
  rw [hdrop]
  apply significantPart_of_last
  intro step hstep
  by_cases hnil : significantPart ys = []
  · rw [hnil, List.append_nil] at hstep
    exact h step hstep
  · rw [List.getLast?_append_of_ne_nil _ hnil] at hstep
    exact significantPart_last hstep

theorem significantPart_inert {steps : List Step} (h : ∀ step ∈ steps, step.isSignificant = false) :
    significantPart steps = [] := by
  have hdrop := dropTrailing_append [] (show ∀ step ∈ steps, (!step.isSignificant) = true by
    intro step hstep
    simp [h step hstep])
  exact hdrop

/-- What reading clauses behind blanks finds: the clauses, and blanks at the end. -/
structure ClausesRead (steps : List Step) (cores : List Text) (parts : List (List Step))
    (back : Text) : Prop where
  splits : SplitsOn (Step.isTopLevel ',') (significantPart steps) parts
  texts : parts.map (fun part => Text.trim (stepsText part)) = cores
  split : steps = significantPart steps ++ back.map (codeStep 0)
  blank : ∀ c ∈ back, isBlank c = true

theorem blank_not_comma {front : Text} (hfront : ∀ c ∈ front, isBlank c = true) :
    ∀ step ∈ front.map (codeStep 0), step.isTopLevel ',' = false := by
  intro step hstep
  obtain ⟨c, hc, rfl⟩ := List.mem_map.1 hstep
  have hne : c ≠ ',' := by
    rintro rfl
    exact absurd (hfront _ hc) (by decide)
  simp [Step.isTopLevel, codeStep, hne]

theorem ClauseCore.no_comma {core : Text} (h : ClauseCore core) {front : Text}
    (hfront : ∀ c ∈ front, isBlank c = true) :
    ∀ step ∈ front.map (codeStep 0) ++ scan core, step.isTopLevel ',' = false := by
  intro step hstep
  rcases List.mem_append.1 hstep with hstep | hstep
  · exact blank_not_comma hfront step hstep
  · exact h.commas step hstep

theorem stepsText_front (front core : Text) :
    stepsText (front.map (codeStep 0) ++ scan core) = front ++ core := by
  rw [stepsText_append, stepsText_codeSteps, stepsText_scan]

theorem scan_ne_nil {text : Text} (h : text ≠ []) : scan text ≠ [] := by
  intro hscan
  have htext := stepsText_scan text
  rw [hscan] at htext
  exact h htext.symm

theorem clausesRead_last {front : Text} (hfront : ∀ c ∈ front, isBlank c = true) {core : Text}
    (h : ClauseCore core) :
    ∃ parts back, ClausesRead (front.map (codeStep 0) ++ scan core) [core] parts back := by
  by_cases hempty : core = []
  · subst hempty
    have hsteps : front.map (codeStep 0) ++ scan [] = front.map (codeStep 0) := List.append_nil _
    have hkept : significantPart (front.map (codeStep 0)) = [] :=
      significantPart_inert (skipped_blank hfront).inert
    rw [hsteps]
    refine ⟨[[]], front, ?_, rfl, ?_, hfront⟩
    · rw [hkept]
      exact .last (by simp)
    · rw [hkept]
      rfl
  · have hscan := scan_ne_nil hempty
    have hkept : significantPart (front.map (codeStep 0) ++ scan core) =
        front.map (codeStep 0) ++ scan core := by
      apply significantPart_of_last
      intro step hstep
      rw [List.getLast?_append_of_ne_nil _ hscan] at hstep
      exact h.last step hstep
    refine ⟨[front.map (codeStep 0) ++ scan core], [], ?_, ?_, ?_, by simp⟩
    · rw [hkept]
      exact .last (h.no_comma hfront)
    · rw [List.map_singleton, stepsText_front, h.trim_append hfront]
    · rw [hkept]
      exact (List.append_nil _).symm

/-- One more clause and its comma in front of clauses that are read. -/
theorem ClausesRead.cons {front : Text} (hfront : ∀ c ∈ front, isBlank c = true) {core : Text}
    (hcore : ClauseCore core) {steps : List Step} {cores : List Text} {parts : List (List Step)}
    {back : Text} (h : ClausesRead steps cores parts back) :
    ClausesRead ((front.map (codeStep 0) ++ scan core) ++ codeStep 0 ',' :: steps) (core :: cores)
      ((front.map (codeStep 0) ++ scan core) :: parts) back := by
  have hkept : significantPart ((front.map (codeStep 0) ++ scan core) ++ codeStep 0 ',' :: steps) =
      (front.map (codeStep 0) ++ scan core) ++ codeStep 0 ',' :: significantPart steps := by
    rw [List.append_cons, significantPart_append, ← List.append_cons]
    intro step hstep
    rw [List.getLast?_concat, Option.some.injEq] at hstep
    rw [← hstep]
    rfl
  refine ⟨?_, ?_, ?_, h.blank⟩
  · rw [hkept]
    exact .cut (hcore.no_comma hfront) rfl h.splits
  · rw [List.map_cons, h.texts, stepsText_front, hcore.trim_append hfront]
  · rw [hkept]
    conv_lhs => rw [h.split]
    simp

theorem clausesRead {front : Text} (hfront : ∀ c ∈ front, isBlank c = true) {cores : List Text}
    (hne : cores ≠ []) (h : ∀ core ∈ cores, ClauseCore core) :
    ∃ parts back, ClausesRead (front.map (codeStep 0) ++ clauseSteps cores) cores parts back := by
  induction cores generalizing front with
  | nil => exact absurd rfl hne
  | cons core others ih =>
      have hcore := h core List.mem_cons_self
      by_cases hnil : others = []
      · subst hnil
        exact clausesRead_last hfront hcore
      · have hfeed : ∀ c ∈ (['\n'] : Text), isBlank c = true := List.all_eq_true.1 (by decide)
        obtain ⟨parts, back, hread⟩ := ih hfeed hnil fun x hx => h x (List.mem_cons_of_mem core hx)
        have hsteps : front.map (codeStep 0) ++ clauseSteps (core :: others) =
            (front.map (codeStep 0) ++ scan core) ++ codeStep 0 ',' ::
              ((['\n'] : Text).map (codeStep 0) ++ clauseSteps others) := by
          rw [clauseSteps_cons hnil]
          simp [commaSteps]
        rw [hsteps]
        exact ⟨_, back, hread.cons hfront hcore⟩

theorem clauseSteps_concat (front : List Text) (core : Text) :
    ∃ steps, clauseSteps (front ++ [core]) = steps ++ scan core := by
  induction front with
  | nil => exact ⟨[], rfl⟩
  | cons first front ih =>
      obtain ⟨steps, hsteps⟩ := ih
      refine ⟨scan first ++ (commaSteps ++ steps), ?_⟩
      rw [List.cons_append, clauseSteps_cons (by simp), hsteps]
      simp

theorem clauseSteps_last {cores : List Text} {core : Text} (hlast : cores.getLast? = some core)
    (hcore : ClauseCore core) (hfilled : core ≠ []) :
    ∃ steps step, clauseSteps cores = steps ++ [step] ∧ step.isSignificant = true := by
  obtain ⟨front, rfl⟩ := List.getLast?_eq_some_iff.1 hlast
  obtain ⟨earlier, hearlier⟩ := clauseSteps_concat front core
  obtain ⟨steps, step, hsteps⟩ :=
    (List.eq_nil_or_concat' (scan core)).resolve_left (scan_ne_nil hfilled)
  refine ⟨earlier ++ steps, step, ?_, hcore.last step (by rw [hsteps, List.getLast?_concat])⟩
  rw [hearlier, hsteps, List.append_assoc]

/-- Clauses that are written one after the other behind blanks are read as they are. -/
theorem commaParts_join {front : Text} (hfront : ∀ c ∈ front, isBlank c = true)
    {cores : List Text} (hne : cores ≠ []) (h : ∀ core ∈ cores, ClauseCore core ∧ core ≠ [])
    (hclosed : cores.Pairwise fun core _ => scanEnd core = .start) :
    commaParts (front ++ Text.join ",\n".toList cores) = cores := by
  have hscan : scan (front ++ Text.join ",\n".toList cores) =
      front.map (codeStep 0) ++ clauseSteps cores := by
    rw [(skipped_blank hfront).scan_append, scan_join hclosed]
  obtain ⟨parts, back, hread⟩ := clausesRead hfront hne fun core hcore => (h core hcore).1
  obtain ⟨hcore, hfilled⟩ := h _ (List.getLast_mem hne)
  obtain ⟨steps, last, hsteps, hlast⟩ :=
    clauseSteps_last (List.getLast?_eq_some_getLast hne) hcore hfilled
  have hkept : significantPart (front.map (codeStep 0) ++ clauseSteps cores) =
      front.map (codeStep 0) ++ clauseSteps cores := by
    apply significantPart_of_last
    intro step hstep
    rw [hsteps, ← List.append_assoc, List.getLast?_concat, Option.some.injEq] at hstep
    rw [← hstep]
    exact hlast
  have hsplits := hread.splits
  rw [hkept] at hsplits
  rw [commaParts_eq, pieceSteps, hscan, hsplits.splitOnP_eq, hread.texts, List.filter_eq_self]
  intro core hcore
  simpa using (h core hcore).2

theorem ClauseCore.head_not_break {core : Text} (h : ClauseCore core) {step : Step}
    (hstep : (scan core).head? = some step) : step.isLineBreak = false := by
  have hfirst : core.head? = some step.first := by
    rw [← head?_scan, hstep]
    rfl
  have hne : step.first ≠ '\n' := by
    intro hfeed
    have hsolid := h.solid _ hfirst
    rw [hfeed] at hsolid
    exact absurd hsolid (by decide)
  simp [Step.isLineBreak, hne]

/-- No blank stands before a line feed in clauses one after the other. -/
theorem lineTidy_clauseSteps {cores : List Text} (h : ∀ core ∈ cores, ClosedCore core) :
    LineTidy (clauseSteps cores) ∧
      ∀ step, (clauseSteps cores).head? = some step → step.isLineBreak = false := by
  induction cores with
  | nil => exact ⟨List.isChain_nil, by simp [clauseSteps]⟩
  | cons core others ih =>
      have hcore := h core List.mem_cons_self
      obtain ⟨hothers, -⟩ := ih fun x hx => h x (List.mem_cons_of_mem core hx)
      by_cases hnil : others = []
      · subst hnil
        exact ⟨hcore.lines, fun step hstep => hcore.head_not_break hstep⟩
      · rw [clauseSteps_cons hnil]
        have hcomma : LineTidy commaSteps := by
          unfold LineTidy
          decide
        have hcommaHead : ∀ y ∈ (commaSteps ++ clauseSteps others).head?,
            y.isLineBreak = false := by
          intro y hy
          obtain rfl := Option.some.inj hy
          rfl
        constructor
        · refine List.IsChain.append hcore.lines (List.IsChain.append hcomma hothers ?_) ?_
          · rintro x hx y - ⟨hblank, -⟩
            obtain rfl := Option.some.inj hx
            cases hblank
          · rintro x - y hy ⟨-, hbreak⟩
            rw [hcommaHead y hy] at hbreak
            cases hbreak
        · intro step hstep
          rw [List.head?_append] at hstep
          cases hhead : (scan core).head? with
          | none =>
              rw [hhead, Option.none_or] at hstep
              exact hcommaHead step hstep
          | some first =>
              rw [hhead, Option.some_or] at hstep
              exact hcore.head_not_break (hhead.trans hstep)

/-- The first token of clauses is that of the first clause or a comma. -/
theorem lexemes_clauseSteps (core : Text) (others : List Text) :
    ∃ later, lexemes (clauseSteps (core :: others)) = lexemes (scan core) ++ later ∧
      ∀ lexeme, later.head? = some lexeme → lexeme = ⟨.symbol, [',']⟩ := by
  by_cases hnil : others = []
  · subst hnil
    exact ⟨[], (List.append_nil _).symm, by simp⟩
  · rw [clauseSteps_cons hnil]
    have hhead : ∀ y, (commaSteps ++ clauseSteps others).head? = some y →
        y.tokenKind? = some .symbol := by
      intro y hy
      obtain rfl := Option.some.inj hy
      decide
    have hlast : ∀ x, commaSteps.getLast? = some x → x.isSignificant = false := by
      intro x hx
      obtain rfl := Option.some.inj hx
      decide
    have hcomma : lexemes commaSteps = [⟨.symbol, [',']⟩] := by decide
    refine ⟨⟨.symbol, [',']⟩ :: lexemes (clauseSteps others), ?_, ?_⟩
    · rw [lexemes_append (parted_of_symbol_right hhead), lexemes_append (parted_of_left hlast),
        hcomma]
      rfl
    · intro lexeme hlexeme
      exact (Option.some.inj hlexeme).symm

end AuroraMigration
