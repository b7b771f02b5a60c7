import AuroraMigration.Proofs.Lexeme
import AuroraMigration.Sql.Fragment

/-!
# Leaving out blanks before line feeds

Spaces, tabs and carriage returns right before a line feed can be left out of a
text without a change to the other steps of its scan: a line feed is as good a
break as they are. Both the normal form of bodies and the reading of lines that
end in a carriage return and a line feed are instances of this.
-/

namespace AuroraMigration

/-- Whether a step reads a space, a tab or a carriage return. -/
def Step.isSpacing (step : Step) : Bool :=
  step.first == ' ' || step.first == '\t' || step.first == '\r'

/-- Steps with some of the spacing right before line feeds left out. -/
inductive Thinned : List Step → List Step → Prop
  | nil : Thinned [] []
  | keep {xs ys : List Step} (step : Step) : Thinned xs ys → Thinned (step :: xs) (step :: ys)
  | drop {xs ys : List Step} {step next : Step} : step.isSpacing = true → next.first = '\n' →
      Thinned xs (next :: ys) → Thinned (step :: xs) (next :: ys)

theorem Thinned.sublist {xs ys : List Step} (h : Thinned xs ys) : ys.Sublist xs := by
  induction h with
  | nil => exact .slnil
  | keep step _ ih => exact ih.cons_cons step
  | drop _ _ _ ih => exact ih.cons _

/-- Thinned steps differ first where a line feed takes the place of spacing. -/
theorem Thinned.ahead {xs ys : List Step} (h : Thinned xs ys) :
    stepsText xs = stepsText ys ∨
      ∃ w r r', stepsText xs = w ++ r ∧ stepsText ys = w ++ '\n' :: r' := by
  induction h with
  | nil => exact .inl rfl
  | keep step _ ih =>
      rcases ih with heq | ⟨w, r, r', hr, hr'⟩
      · exact .inl (by simp [heq])
      · exact .inr ⟨step.chars ++ w, r, r', by simp [hr], by simp [hr']⟩
  | @drop xs ys step next _ hnext _ _ =>
      refine .inr ⟨[], _, next.more ++ stepsText ys, rfl, ?_⟩
      simp [Step.chars, hnext]

theorem Step.isSpacing_cases {step : Step} (h : step.isSpacing = true) :
    step.first = ' ' ∨ step.first = '\t' ∨ step.first = '\r' := by
  simpa [Step.isSpacing, or_assoc] using h

/-- Spacing leaves a scan in the state it is in. -/
theorem read_after_of_spacing (s : ScanState) {c : Char} (hc : c = ' ' ∨ c = '\t' ∨ c = '\r')
    (rest : Text) : (read s c rest).after = s := by
  have hblank : isBlank c = true := by rcases hc with rfl | rfl | rfl <;> decide
  refine (stepAt_after_blank s hblank rest).resolve_right fun hline => ?_
  rcases hc with rfl | rfl | rfl <;> exact absurd hline.2.1 (by decide)

/-- Thinned steps are the scan of their own text, and end in the same state. -/
theorem Thinned.trace {xs ys : List Step} (h : Thinned xs ys) {s : ScanState} {rest : Text}
    (ht : Trace s xs rest) (hs : s.WellTagged) :
    Trace s ys rest ∧ lastState s ys = lastState s xs := by
  induction h generalizing s with
  | nil => exact ⟨ht, rfl⟩
  | @keep xs ys step hthin ih =>
      obtain ⟨hstep, hlater⟩ := ht
      have hs' : step.after.WellTagged := by
        rw [← hstep]
        exact stepAt_wellTagged hs _ _
      obtain ⟨htrace, hlast⟩ := ih hlater hs'
      refine ⟨⟨?_, htrace⟩, hlast⟩
      rcases hthin.ahead with heq | ⟨w, r, r', hr, hr'⟩
      · rw [← heq]
        exact hstep
      · have hmore := read_more_of_stepAt hstep
        rw [hr, List.append_assoc] at hmore hstep
        have hbreak : Boundary ('\n' :: r' ++ rest) := by
          rw [List.cons_append, boundary_cons]
          decide
        rw [hr', List.append_assoc]
        exact (stepAt_congr (read_cut hs hmore hbreak)).trans hstep
  | @drop xs ys step next hspacing _ _ ih =>
      obtain ⟨hstep, hlater⟩ := ht
      have hafter : step.after = s := by
        rw [← hstep]
        exact read_after_of_spacing s (Step.isSpacing_cases hspacing) _
      rw [hafter] at hlater
      obtain ⟨htrace, hlast⟩ := ih hlater hs
      refine ⟨htrace, ?_⟩
      rw [hlast, lastState_cons, hafter]

/-! ## Blanks at line ends -/

theorem dropLineBlanks_thinned (steps : List Step) : Thinned steps (dropLineBlanks steps) := by
  induction steps with
  | nil => exact .nil
  | cons step rest ih =>
      simp only [dropLineBlanks]
      split
      · rename_i hdrop
        simp only [Bool.and_eq_true] at hdrop
        obtain ⟨hblank, hbreak⟩ := hdrop
        cases hkept : dropLineBlanks rest with
        | nil => simp [hkept] at hbreak
        | cons next kept =>
            rw [hkept] at ih hbreak
            refine .drop ?_ ?_ ih
            · simp only [Step.isLineBlank, Bool.and_eq_true] at hblank
              exact hblank.1
            · simp only [List.head?_cons, Option.any_some, Step.isLineBreak, Bool.and_eq_true,
                beq_iff_eq] at hbreak
              exact hbreak.1
      · exact .keep step ih

/-- No blank stands right before a line feed, outside quotes. -/
def LineTidy (steps : List Step) : Prop :=
  steps.IsChain fun x y => ¬ (x.isLineBlank = true ∧ y.isLineBreak = true)

theorem lineTidy_dropLineBlanks (steps : List Step) : LineTidy (dropLineBlanks steps) := by
  induction steps with
  | nil => exact List.isChain_nil
  | cons step rest ih =>
      simp only [dropLineBlanks]
      split
      · exact ih
      · rename_i hkeep
        refine List.IsChain.cons ih ?_
        rintro y hy ⟨hblank, hbreak⟩
        apply hkeep
        rw [Option.mem_def] at hy
        simp [hblank, hy, hbreak]

theorem dropLineBlanks_eq_self {steps : List Step} (h : LineTidy steps) :
    dropLineBlanks steps = steps := by
  induction steps with
  | nil => rfl
  | cons step rest ih =>
      obtain ⟨hhead, hrest⟩ := List.isChain_cons.1 h
      simp only [dropLineBlanks, ih hrest]
      rw [if_neg]
      simp only [Bool.and_eq_true]
      rintro ⟨hblank, hbreak⟩
      cases hy : rest.head? with
      | none => simp [hy] at hbreak
      | some y => exact hhead y hy ⟨hblank, by simpa [hy] using hbreak⟩

theorem getLast?_dropLineBlanks (steps : List Step) :
    (dropLineBlanks steps).getLast? = steps.getLast? := by
  induction steps with
  | nil => rfl
  | cons step rest ih =>
      simp only [dropLineBlanks]
      split
      · rename_i hdrop
        simp only [Bool.and_eq_true] at hdrop
        cases hkept : dropLineBlanks rest with
        | nil => simp [hkept] at hdrop
        | cons next kept =>
            rw [hkept] at ih
            rw [ih, List.getLast?_cons, ← ih, List.getLast?_cons]
            rfl
      · rw [List.getLast?_cons, List.getLast?_cons, ih]

theorem Step.isSignificant_of_isLineBlank {step : Step} (h : step.isLineBlank = true) :
    step.isSignificant = false := by
  simp only [Step.isLineBlank, Bool.and_eq_true, Bool.or_eq_true, beq_iff_eq] at h
  obtain ⟨hfirst, hcls | hcls⟩ := h
  · rcases hfirst with (hfirst | hfirst) | hfirst <;>
      simp only [Step.isSignificant, hcls, hfirst] <;> decide
  · simp [Step.isSignificant, hcls]

theorem Step.isSignificant_of_isLineBreak {step : Step} (h : step.isLineBreak = true) :
    step.isSignificant = false := by
  simp only [Step.isLineBreak, Bool.and_eq_true, Bool.or_eq_true, beq_iff_eq] at h
  obtain ⟨hfirst, hcls | hcls⟩ := h
  · simp only [Step.isSignificant, hcls, hfirst]
    decide
  · simp [Step.isSignificant, hcls]

/-- Leaving out blanks keeps all tokens, and whether a token starts right away. -/
theorem lexemes_dropLineBlanks_head (steps : List Step) :
    lexemes (dropLineBlanks steps) = lexemes steps ∧
      (dropLineBlanks steps).head?.bind Step.tokenKind? = steps.head?.bind Step.tokenKind? := by
  induction steps with
  | nil => exact ⟨rfl, rfl⟩
  | cons step rest ih =>
      obtain ⟨ihlex, ihhead⟩ := ih
      simp only [dropLineBlanks]
      split
      · rename_i hdrop
        simp only [Bool.and_eq_true] at hdrop
        obtain ⟨hblank, hbreak⟩ := hdrop
        have hnone := (tokenKind?_eq_none_iff step).2 (Step.isSignificant_of_isLineBlank hblank)
        refine ⟨by rw [ihlex, lexemes_cons_none hnone], ?_⟩
        cases hkept : (dropLineBlanks rest).head? with
        | none => simp [hnone]
        | some next =>
            rw [hkept, Option.any_some] at hbreak
            simp [hnone, (tokenKind?_eq_none_iff next).2 (Step.isSignificant_of_isLineBreak hbreak)]
      · refine ⟨?_, rfl⟩
        cases hk : step.tokenKind? with
        | none => rw [lexemes_cons_none hk, lexemes_cons_none hk, ihlex]
        | some kind =>
            rw [lexemes_cons_some hk, lexemes_cons_some hk, ihlex, Step.any_joins, Step.any_joins,
              ihhead]

theorem lexemes_dropLineBlanks (steps : List Step) :
    lexemes (dropLineBlanks steps) = lexemes steps :=
  (lexemes_dropLineBlanks_head steps).1

/-! ## Carriage returns at line ends -/

/-- A text without the carriage returns right before its line feeds. -/
def Text.dropReturns : Text → Text
  | [] => []
  | '\r' :: '\n' :: rest => '\n' :: dropReturns rest
  | c :: rest => c :: dropReturns rest

/-- Steps without the carriage returns right before line feeds, in quotes or not. -/
def dropReturnSteps : List Step → List Step
  | [] => []
  | step :: rest =>
      if step.first == '\r' && rest.head?.any (·.first == '\n') then dropReturnSteps rest
      else step :: dropReturnSteps rest

theorem dropReturnSteps_thinned (steps : List Step) : Thinned steps (dropReturnSteps steps) := by
  induction steps with
  | nil => exact .nil
  | cons step rest ih =>
      simp only [dropReturnSteps]
      split
      · rename_i hdrop
        simp only [Bool.and_eq_true, beq_iff_eq] at hdrop
        obtain ⟨hreturn, hfeed⟩ := hdrop
        cases rest with
        | nil => simp at hfeed
        | cons next rest =>
            simp only [List.head?_cons, Option.any_some, beq_iff_eq] at hfeed
            have hkeep : dropReturnSteps (next :: rest) = next :: dropReturnSteps rest := by
              simp [dropReturnSteps, hfeed]
            rw [hkeep] at ih ⊢
            exact .drop (by simp [Step.isSpacing, hreturn]) hfeed ih
      · exact .keep step ih

theorem Text.dropReturns_cons {c : Char} {rest : Text}
    (h : ¬ (c = '\r' ∧ rest.head? = some '\n')) :
    Text.dropReturns (c :: rest) = c :: Text.dropReturns rest := by
  rw [Text.dropReturns]
  rintro rest' rfl rfl
  exact h ⟨rfl, rfl⟩

theorem Text.dropReturns_of_not_mem {text : Text} (h : '\r' ∉ text) :
    Text.dropReturns text = text := by
  induction text with
  | nil => rfl
  | cons c rest ih =>
      have hc : c ≠ '\r' := fun hc => h (hc ▸ List.mem_cons_self)
      rw [Text.dropReturns_cons (fun hh => hc hh.1),
        ih fun hmem => h (List.mem_cons_of_mem c hmem)]

theorem Text.dropReturns_append_of_not_mem {word : Text} (h : '\r' ∉ word) (rest : Text) :
    Text.dropReturns (word ++ rest) = word ++ Text.dropReturns rest := by
  induction word with
  | nil => rfl
  | cons c word ih =>
      have hc : c ≠ '\r' := fun hc => h (hc ▸ List.mem_cons_self)
      rw [List.cons_append, Text.dropReturns_cons (fun hh => hc hh.1),
        ih fun hmem => h (List.mem_cons_of_mem c hmem), List.cons_append]

/-- Line feeds and carriage returns are steps of their own. -/
theorem Trace.more_not_break {s : ScanState} {steps : List Step} {rest : Text}
    (h : Trace s steps rest) (hs : s.WellTagged) :
    ∀ step ∈ steps, (isBreak step.first = true → step.more = []) ∧
      ∀ c ∈ step.more, isBreak c = false := by
  induction steps generalizing s with
  | nil => simp
  | cons step later ih =>
      obtain ⟨hstep, hlater⟩ := h
      have hs' : step.after.WellTagged := by
        rw [← hstep]
        exact stepAt_wellTagged hs _ _
      intro x hx
      rcases List.mem_cons.1 hx with rfl | hx
      · have hmore := read_more_of_stepAt hstep
        constructor
        · intro hbreak
          rw [← hmore]
          exact read_more_of_isBreak s hbreak _
        · intro c hc
          rcases read_finds s x.first (x.more ++ (stepsText later ++ rest)) with
            ⟨hnil, -⟩ | ⟨hcompletes, -⟩
          · rw [hmore] at hnil
            simp [hnil] at hc
          · rw [hmore] at hcompletes
            obtain ⟨tag, d, heq, htag, hd⟩ := completes_chars hs hcompletes
            rw [heq] at hc
            rcases List.mem_append.1 hc with hc | hc
            · exact isBreak_of_isTagChar (htag c hc)
            · rw [List.mem_singleton.1 hc]
              exact hd
      · exact ih hlater hs' x hx

/-- A step keeps its characters unless it is a carriage return with a line feed behind it. -/
theorem Step.dropReturns_chars {step : Step}
    (hstep : (isBreak step.first = true → step.more = []) ∧ ∀ c ∈ step.more, isBreak c = false)
    {text : Text} (h : step.first = '\r' → text.head? ≠ some '\n') :
    Text.dropReturns (step.chars ++ text) = step.chars ++ Text.dropReturns text := by
  obtain ⟨hbreak, hchars⟩ := hstep
  have hreturn : '\r' ∉ step.more := by
    intro hmem
    exact absurd (hchars _ hmem) (by decide)
  rw [Step.chars, List.cons_append, Text.dropReturns_cons,
    Text.dropReturns_append_of_not_mem hreturn, List.cons_append]
  rintro ⟨hfirst, hhead⟩
  have hnil : step.more = [] := hbreak (by rw [hfirst]; decide)
  rw [hnil, List.nil_append] at hhead
  exact h hfirst hhead

theorem Text.dropReturns_return_feed (rest : Text) :
    Text.dropReturns ('\r' :: '\n' :: rest) = Text.dropReturns ('\n' :: rest) := by
  have hfeed : ('\n' : Char) ≠ '\r' := by decide
  rw [Text.dropReturns, Text.dropReturns_cons fun hh => hfeed hh.1]

theorem stepsText_dropReturnSteps {s : ScanState} {steps : List Step} {rest : Text}
    (h : Trace s steps rest) (hs : s.WellTagged) :
    stepsText (dropReturnSteps steps) = Text.dropReturns (stepsText steps) := by
  have hmore := h.more_not_break hs
  clear h
  induction steps with
  | nil => rfl
  | cons step later ih =>
      have hstep := hmore step List.mem_cons_self
      have ih := ih fun x hx => hmore x (List.mem_cons_of_mem step hx)
      simp only [dropReturnSteps]
      split
      · rename_i hdrop
        simp only [Bool.and_eq_true, beq_iff_eq] at hdrop
        obtain ⟨hfirst, hfeed⟩ := hdrop
        cases later with
        | nil => simp at hfeed
        | cons next later =>
            simp only [List.head?_cons, Option.any_some, beq_iff_eq] at hfeed
            have hnil : step.more = [] := hstep.1 (by rw [hfirst]; decide)
            rw [ih]
            simp only [stepsText_cons, Step.chars, hfirst, hfeed, hnil, List.cons_append,
              List.nil_append]
            rw [Text.dropReturns_return_feed]
      · rename_i hkeep
        rw [stepsText_cons, ih, stepsText_cons, Step.dropReturns_chars hstep]
        intro hfirst hhead
        apply hkeep
        cases later with
        | nil => simp at hhead
        | cons next later =>
            simp only [stepsText_cons, Step.chars, List.cons_append, List.head?_cons,
              Option.some.injEq] at hhead
            simp [hfirst, hhead]

/-- A lexeme without the carriage returns right before its line feeds. -/
def Lexeme.dropReturns (lexeme : Lexeme) : Lexeme :=
  { lexeme with text := Text.dropReturns lexeme.text }

/-- A carriage return and a line feed behind it belong to one token or to none. -/
theorem tokenKind?_return_feed (s : ScanState) (rest rest' : Text) :
    (stepAt s '\n' rest).tokenKind? = (stepAt s '\r' rest').tokenKind? := by
  obtain ⟨mode, depth⟩ := s
  cases mode with
  | code => rfl
  | string => simp [stepAt, read, readQuoted, Step.tokenKind?]
  | name => simp [stepAt, read, readQuoted, Step.tokenKind?]
  | dollar tag => simp [stepAt, read, readDollar, Step.tokenKind?]
  | lineComment => simp [stepAt, read, readLineComment, Step.tokenKind?]
  | blockComment level => simp [stepAt, read, readBlockComment, Step.tokenKind?]

theorem lexemes_cons_text {step : Step} {kind : TokenKind} (h : step.tokenKind? = some kind)
    (later : List Step) :
    ∃ text others, lexemes (step :: later) = ⟨kind, step.chars ++ text⟩ :: others := by
  rw [lexemes_cons_some h]
  cases hlater : lexemes later with
  | nil => exact ⟨[], [], by simp [Lexeme.attach]⟩
  | cons next others =>
      cases later.head?.any step.joins with
      | true => exact ⟨next.text, others, rfl⟩
      | false => exact ⟨[], next :: others, by simp [Lexeme.attach]⟩

theorem tokenKind?_ne_symbol {step : Step} (h : isBlank step.first = true) :
    step.tokenKind? ≠ some .symbol := by
  unfold Step.tokenKind?
  cases step.cls <;> simp [h]

/-- A carriage return that is left out takes nothing but itself from the lexeme it stands in. -/
theorem lexemes_return_feed {step next : Step} (hkind : next.tokenKind? = step.tokenKind?)
    (hreturn : step.chars = ['\r']) (hfeed : next.first = '\n') (later : List Step) :
    (lexemes (step :: next :: later)).map Lexeme.dropReturns =
      (lexemes (next :: later)).map Lexeme.dropReturns := by
  cases hk : step.tokenKind? with
  | none => rw [lexemes_cons_none hk]
  | some kind =>
      rw [hk] at hkind
      have hblank : isBlank step.first = true := by
        rw [show step.first = '\r' from (List.cons.inj hreturn).1]
        decide
      have hsymbol : kind ≠ .symbol := by
        rintro rfl
        exact tokenKind?_ne_symbol hblank hk
      have hjoin : (next :: later).head?.any step.joins = true := by
        simp [Step.joins, hk, hkind, hsymbol]
      obtain ⟨text, others, hlex⟩ := lexemes_cons_text hkind later
      have hnext : next.chars = '\n' :: next.more := by rw [Step.chars, hfeed]
      rw [lexemes_cons_some hk, hjoin, hlex]
      simp only [Lexeme.attach, if_true, List.map_cons, Lexeme.dropReturns, hreturn, hnext,
        List.cons_append, List.nil_append, Text.dropReturns_return_feed]

/-- Putting a step in front of lexemes and leaving out carriage returns can be exchanged, unless
the step is a carriage return that the lexeme it joins starts with the line feed of. -/
theorem Lexeme.attach_dropReturns {step : Step} (kind : TokenKind)
    (hstep : (isBreak step.first = true → step.more = []) ∧ ∀ c ∈ step.more, isBreak c = false)
    {joined : Bool} {later : List Lexeme}
    (h : joined = true → ∀ next, later.head? = some next → step.first = '\r' →
      next.text.head? ≠ some '\n') :
    Lexeme.attach kind step.chars joined (later.map Lexeme.dropReturns) =
      (Lexeme.attach kind step.chars joined later).map Lexeme.dropReturns := by
  have hself : Text.dropReturns step.chars = step.chars := by
    have hnone : step.first = '\r' → ([] : Text).head? ≠ some '\n' := by simp
    simpa [Text.dropReturns] using Step.dropReturns_chars hstep hnone
  cases later with
  | nil => simp [Lexeme.attach, Lexeme.dropReturns, hself]
  | cons next others =>
      cases joined with
      | false => simp [Lexeme.attach, Lexeme.dropReturns, hself]
      | true =>
          simp [Lexeme.attach, Lexeme.dropReturns, Step.dropReturns_chars hstep (h rfl next rfl)]

/-- Leaving out carriage returns before line feeds changes lexemes in just that, and keeps whether
a token starts right away. -/
theorem lexemes_dropReturnSteps_head {s : ScanState} {steps : List Step} {rest : Text}
    (h : Trace s steps rest) (hs : s.WellTagged) :
    lexemes (dropReturnSteps steps) = (lexemes steps).map Lexeme.dropReturns ∧
      (dropReturnSteps steps).head?.bind Step.tokenKind? = steps.head?.bind Step.tokenKind? := by
  induction steps generalizing s with
  | nil => exact ⟨rfl, rfl⟩
  | cons step later ih =>
      have hchars := h.more_not_break hs step List.mem_cons_self
      obtain ⟨hstep, hlater⟩ := h
      have hs' : step.after.WellTagged := by
        rw [← hstep]
        exact stepAt_wellTagged hs _ _
      obtain ⟨ihlex, ihhead⟩ := ih hlater hs'
      simp only [dropReturnSteps]
      split
      · rename_i hdrop
        simp only [Bool.and_eq_true, beq_iff_eq] at hdrop
        obtain ⟨hfirst, hfeed⟩ := hdrop
        cases later with
        | nil => simp at hfeed
        | cons next later =>
            simp only [List.head?_cons, Option.any_some, beq_iff_eq] at hfeed
            have hafter : step.after = s := by
              rw [← hstep]
              exact read_after_of_spacing s (by simp [hfirst]) _
            have hkind : next.tokenKind? = step.tokenKind? := by
              rw [← hlater.1, hfeed, hafter, ← hstep, hfirst]
              exact tokenKind?_return_feed s _ _
            have hreturn : step.chars = ['\r'] := by
              rw [Step.chars, hchars.1 (by rw [hfirst]; decide), hfirst]
            refine ⟨?_, ?_⟩
            · rw [ihlex, lexemes_return_feed hkind hreturn hfeed]
            · rw [ihhead]
              exact hkind
      · rename_i hkeep
        refine ⟨?_, rfl⟩
        cases hk : step.tokenKind? with
        | none => rw [lexemes_cons_none hk, lexemes_cons_none hk, ihlex]
        | some kind =>
            rw [lexemes_cons_some hk, lexemes_cons_some hk, ihlex, Step.any_joins, Step.any_joins,
              ihhead, Lexeme.attach_dropReturns kind hchars]
            intro hjoin next hnext hfirst hhead
            rw [← Step.any_joins] at hjoin
            cases later with
            | nil => simp at hjoin
            | cons after later =>
                have hafter : after.tokenKind? = some kind := by
                  simp only [List.head?_cons, Option.any_some, Step.joins, hk, Bool.and_eq_true,
                    beq_iff_eq] at hjoin
                  exact hjoin.2
                obtain ⟨text, others, hlex⟩ := lexemes_cons_text hafter later
                rw [hlex, List.head?_cons, Option.some.injEq] at hnext
                rw [← hnext] at hhead
                apply hkeep
                simpa [hfirst, Step.chars] using hhead

theorem lexemes_dropReturnSteps {s : ScanState} {steps : List Step} {rest : Text}
    (h : Trace s steps rest) (hs : s.WellTagged) :
    lexemes (dropReturnSteps steps) = (lexemes steps).map Lexeme.dropReturns :=
  (lexemes_dropReturnSteps_head h hs).1

theorem dropReturnSteps_eq_self {steps : List Step} (h : '\r' ∉ stepsText steps) :
    dropReturnSteps steps = steps := by
  induction steps with
  | nil => rfl
  | cons step later ih =>
      have hfirst : step.first ≠ '\r' := by
        intro hfirst
        apply h
        simp [Step.chars, hfirst]
      have hlater : '\r' ∉ stepsText later := by
        intro hmem
        apply h
        simp [hmem]
      simp [dropReturnSteps, hfirst, ih hlater]

theorem mem_stepsText_of_sublist {xs ys : List Step} (h : xs.Sublist ys) {c : Char}
    (hc : c ∈ stepsText xs) : c ∈ stepsText ys := by
  obtain ⟨step, hstep, hmem⟩ := List.mem_flatMap.1 hc
  exact List.mem_flatMap.2 ⟨step, h.subset hstep, hmem⟩

end AuroraMigration
