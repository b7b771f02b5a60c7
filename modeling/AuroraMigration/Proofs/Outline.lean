import AuroraMigration.Proofs.OpenEnd

/-!
# Kinds of statements without their quoted texts

The kind of a statement is decided by the outline of its tokens: their kinds, the
words without regard to case, and the symbols. To see this for the clauses of an
altered table, whose texts are cut out of the body and read again, the tokens of
the body are cut at commas and shown to be the tokens of the clauses.
-/

namespace AuroraMigration

/-! ## Tokens between commas -/

/-- The number of open parentheses behind a lexeme. -/
def Lexeme.depthAfter (lexeme : Lexeme) (depth : Nat) : Nat :=
  if lexeme = ⟨.symbol, ['(']⟩ then depth + 1
  else if lexeme = ⟨.symbol, [')']⟩ then depth - 1
  else depth

/-- The lexemes between commas outside all parentheses, of which `depth` are open at the start. -/
def commaGroups : (depth : Nat) → List Lexeme → List (List Lexeme)
  | _, [] => [[]]
  | depth, lexeme :: rest =>
      if lexeme = ⟨.symbol, [',']⟩ ∧ depth = 0 then [] :: commaGroups 0 rest
      else (commaGroups (lexeme.depthAfter depth) rest).modifyHead (lexeme :: ·)

theorem commaGroups_cons {lexeme : Lexeme} (h : lexeme.kind ≠ .symbol) (depth : Nat)
    (rest : List Lexeme) :
    commaGroups depth (lexeme :: rest) =
      (commaGroups depth rest).modifyHead (lexeme :: ·) := by
  have hne : ∀ text, lexeme ≠ ⟨.symbol, text⟩ := by
    rintro text rfl
    exact h rfl
  simp [commaGroups, Lexeme.depthAfter, hne]

/-- A symbol is a step of one character of code, and only parentheses change the depth. -/
theorem Trace.symbol {s : ScanState} {step : Step} {later : List Step} {rest : Text}
    (h : Trace s (step :: later) rest) (hkind : step.tokenKind? = some .symbol) :
    step.cls = .code ∧ step.chars = [step.first] ∧
      step.after.depth = (⟨.symbol, [step.first]⟩ : Lexeme).depthAfter s.depth := by
  have hcls : step.cls = .code := by
    unfold Step.tokenKind? at hkind
    split at hkind <;> first | assumption | cases hkind
  have hshape := h.shape step List.mem_cons_self
  refine ⟨hcls, by rw [Step.chars, (hshape.of_code hcls).2.1], ?_⟩
  rw [hshape.depth_eq, h.before_eq]
  by_cases hopen : step.first = '('
  · simp [hopen, hcls, Lexeme.depthAfter, Step.nest]
  · by_cases hclose : step.first = ')'
    · simp [hclose, hcls, Lexeme.depthAfter, Step.nest]
    · simp [hopen, hclose, Lexeme.depthAfter, Step.nest_of_ne]

theorem Trace.depth_of_kind {s : ScanState} {step : Step} {later : List Step} {rest : Text}
    (h : Trace s (step :: later) rest) (hkind : step.tokenKind? ≠ some .symbol) :
    step.after.depth = s.depth ∧ step.isTopLevel ',' = false := by
  constructor
  · rw [(h.shape step List.mem_cons_self).depth_eq, h.before_eq]
    by_cases hcls : step.cls = .code
    · refine Step.nest_of_ne ?_ ?_ s.depth
      · intro hfirst
        simp only [Step.tokenKind?, hcls, hfirst] at hkind
        exact hkind (by decide)
      · intro hfirst
        simp only [Step.tokenKind?, hcls, hfirst] at hkind
        exact hkind (by decide)
    · exact Step.nest_of_ne_code hcls s.depth
  · cases htop : step.isTopLevel ',' with
    | false => rfl
    | true => exact absurd (tokenKind?_separator (by decide) htop) hkind

theorem lexemes_joined {step : Step} {kind : TokenKind} (hkind : step.tokenKind? = some kind)
    {later : List Step} (h : later.head?.any step.joins = true) :
    ∃ next rest, lexemes later = next :: rest ∧ next.kind = kind ∧ kind ≠ .symbol := by
  rw [Step.any_joins, hkind, Option.any_some, Bool.and_eq_true, bne_iff_ne, beq_iff_eq] at h
  obtain ⟨t, ts, htokens, ht, -⟩ := (tokensFrom_head 0 later).1 kind h.2
  refine ⟨t.lexeme, ts.map Token.lexeme, ?_, ht, h.1⟩
  rw [← tokensFrom_lexemes 0, htokens, List.map_cons]

theorem Lexeme.attach_false (kind : TokenKind) (text : Text) (later : List Lexeme) :
    Lexeme.attach kind text false later = ⟨kind, text⟩ :: later := by
  cases later <;> rfl

/-- The first piece goes on with the step that follows, unless that is a separator. -/
theorem joins_first_piece {step : Step} {kind : TokenKind} (hkind : step.tokenKind? = some kind)
    {later part : List Step} {parts : List (List Step)}
    (h : later.splitOnP (Step.isTopLevel ',') = part :: parts) :
    part.head?.any step.joins = later.head?.any step.joins := by
  cases later with
  | nil =>
      obtain ⟨rfl, -⟩ := List.cons.inj h
      rfl
  | cons next later =>
      rw [List.splitOnP_cons_eq_if_modifyHead] at h
      split at h
      · rename_i htop
        obtain ⟨rfl, -⟩ := List.cons.inj h
        have hsymbol := tokenKind?_separator (by decide) htop
        cases kind <;> simp [Step.joins, hkind, hsymbol]
      · cases hparts : later.splitOnP (Step.isTopLevel ',') with
        | nil => simp [hparts] at h
        | cons first others =>
            rw [hparts, List.modifyHead_cons] at h
            obtain ⟨rfl, -⟩ := List.cons.inj h
            rfl

theorem commaGroups_symbol {s : ScanState} {step : Step} {later : List Step} {rest : Text}
    (h : Trace s (step :: later) rest) (hsymbol : step.tokenKind? = some .symbol)
    (hlater : commaGroups step.after.depth (lexemes later) =
      (later.splitOnP (Step.isTopLevel ',')).map lexemes) :
    commaGroups s.depth (lexemes (step :: later)) =
      ((step :: later).splitOnP (Step.isTopLevel ',')).map lexemes := by
  obtain ⟨hcls, hchars, hdepth⟩ := h.symbol hsymbol
  have hcons : ∀ others, lexemes (step :: others) = ⟨.symbol, [step.first]⟩ :: lexemes others := by
    intro others
    have hjoin : others.head?.any step.joins = false := by
      rw [Step.any_joins, hsymbol]
      rfl
    rw [lexemes_cons_some hsymbol, hjoin, Lexeme.attach_false, hchars]
  have htop : step.isTopLevel ',' = true ↔ step.first = ',' ∧ s.depth = 0 := by
    simp [Step.isTopLevel, hcls, Step.depth, h.before_eq, and_comm]
  rw [hcons, List.splitOnP_cons_eq_if_modifyHead, commaGroups, ← hdepth]
  by_cases hcomma : step.first = ',' ∧ s.depth = 0
  · have hzero : step.after.depth = 0 := by
      rw [hdepth, hcomma.1, hcomma.2]
      rfl
    rw [hzero] at hlater
    rw [if_pos (htop.2 hcomma), if_pos (by simpa using hcomma), hlater, List.map_cons, lexemes_nil]
  · rw [if_neg (mt htop.1 hcomma), if_neg (by simpa using hcomma), hlater]
    cases later.splitOnP (Step.isTopLevel ',') with
    | nil => rfl
    | cons part parts => simp [hcons]

theorem commaGroups_other {s : ScanState} {step : Step} {later : List Step} {rest : Text}
    (h : Trace s (step :: later) rest) (hother : step.tokenKind? ≠ some .symbol)
    (hlater : commaGroups step.after.depth (lexemes later) =
      (later.splitOnP (Step.isTopLevel ',')).map lexemes) :
    commaGroups s.depth (lexemes (step :: later)) =
      ((step :: later).splitOnP (Step.isTopLevel ',')).map lexemes := by
  obtain ⟨hdepth, htop⟩ := h.depth_of_kind hother
  obtain ⟨part, parts, hparts⟩ :=
    List.exists_cons_of_ne_nil (List.splitOnP_ne_nil (Step.isTopLevel ',') later)
  rw [hdepth, hparts, List.map_cons] at hlater
  rw [List.splitOnP_cons_eq_if_modifyHead, if_neg (by simp [htop]), hparts, List.modifyHead_cons,
    List.map_cons]
  cases hkind : step.tokenKind? with
  | none => rw [lexemes_cons_none hkind, lexemes_cons_none hkind, hlater]
  | some kind =>
      have hword : kind ≠ .symbol := fun h => hother (hkind.trans (congrArg some h))
      rw [lexemes_cons_some hkind, lexemes_cons_some hkind, joins_first_piece hkind hparts]
      cases hjoin : later.head?.any step.joins with
      | false =>
          rw [Lexeme.attach_false, Lexeme.attach_false, commaGroups_cons hword, hlater,
            List.modifyHead_cons]
      | true =>
          obtain ⟨next, others, hnext, hsame, -⟩ := lexemes_joined hkind hjoin
          obtain ⟨next', others', hnext', -, -⟩ :=
            lexemes_joined hkind ((joins_first_piece hkind hparts).trans hjoin)
          rw [hnext, hnext', commaGroups_cons (hsame ▸ hword)] at hlater
          rw [hnext, hnext']
          change commaGroups s.depth (⟨kind, step.chars ++ next.text⟩ :: others) =
            (⟨kind, step.chars ++ next'.text⟩ :: others') :: parts.map lexemes
          rw [commaGroups_cons hword]
          cases hgroups : commaGroups s.depth others with
          | nil => simp [hgroups] at hlater
          | cons group groups =>
              rw [hgroups, List.modifyHead_cons] at hlater
              obtain ⟨hfirst, rfl⟩ := List.cons.inj hlater
              obtain ⟨rfl, rfl⟩ := List.cons.inj hfirst
              rfl

/-- Cutting the lexemes at commas gives the lexemes of the pieces. -/
theorem commaGroups_lexemes {s : ScanState} {steps : List Step} {rest : Text}
    (h : Trace s steps rest) :
    commaGroups s.depth (lexemes steps) =
      (steps.splitOnP (Step.isTopLevel ',')).map lexemes := by
  induction steps generalizing s with
  | nil => rfl
  | cons step later ih =>
      by_cases hsymbol : step.tokenKind? = some .symbol
      · exact commaGroups_symbol h hsymbol (ih h.2)
      · exact commaGroups_other h hsymbol (ih h.2)

/-! ## Outlines of trimmed texts -/

theorem TokenKind.shown_append (kind : TokenKind) (a b : Text) :
    kind.shown (a ++ b) = kind.shown a ++ kind.shown b := by
  cases kind <;> simp [TokenKind.shown, Text.asciiUpper]

theorem Lexeme.attach_outline {kind : TokenKind} {text : Text} {joined : Bool}
    {a b : List Lexeme} (h : a.map Lexeme.outline = b.map Lexeme.outline)
    (hjoined : joined = true → ∃ next rest, a = next :: rest ∧ next.kind = kind) :
    (Lexeme.attach kind text joined a).map Lexeme.outline =
      (Lexeme.attach kind text joined b).map Lexeme.outline := by
  cases joined with
  | false => rw [Lexeme.attach_false, Lexeme.attach_false, List.map_cons, List.map_cons, h]
  | true =>
      obtain ⟨next, rest, rfl, hkind⟩ := hjoined rfl
      rw [List.map_cons, eq_comm, List.map_eq_cons_iff] at h
      obtain ⟨next', rest', rfl, hnext, hrest⟩ := h
      obtain ⟨hkind', htext⟩ := Lexeme.mk.inj hnext
      rw [hkind', hkind] at htext
      change ⟨kind, kind.shown (text ++ next.text)⟩ :: rest.map Lexeme.outline =
        ⟨kind, kind.shown (text ++ next'.text)⟩ :: rest'.map Lexeme.outline
      rw [TokenKind.shown_append, TokenKind.shown_append, htext, hrest]

/-- Steps that only lengthen a last token in quotes do not show. -/
theorem lexemes_append_hidden {kind : TokenKind} (hkind : ∀ text, kind.shown text = [])
    {xs ys : List Step} {x : Step} (hlast : xs.getLast? = some x)
    (hx : x.tokenKind? = some kind) (hys : ∀ y ∈ ys, y.tokenKind? = some kind) :
    (lexemes (xs ++ ys)).map Lexeme.outline = (lexemes xs).map Lexeme.outline := by
  have hsymbol : kind ≠ .symbol := by
    rintro rfl
    cases hkind [' ']
  induction xs with
  | nil => cases hlast
  | cons step later ih =>
      cases later with
      | nil =>
          obtain rfl : step = x := by simpa using hlast
          have hall : ∀ y ∈ [step] ++ ys, y.tokenKind? = some kind := by simpa using ⟨hx, hys⟩
          rw [lexemes_of_kind hsymbol (by simp) hall,
            lexemes_of_kind hsymbol (by simp) (by simpa using hx)]
          simp [Lexeme.outline, hkind]
      | cons next later =>
          rw [List.getLast?_cons_cons] at hlast
          have hlater := ih hlast
          cases hstep : step.tokenKind? with
          | none =>
              rw [List.cons_append, lexemes_cons_none hstep, lexemes_cons_none hstep, hlater]
          | some kind' =>
              rw [List.cons_append, lexemes_cons_some hstep, lexemes_cons_some hstep]
              refine Lexeme.attach_outline hlater fun hjoin => ?_
              obtain ⟨first, rest, hfirst, hsame, -⟩ := lexemes_joined hstep hjoin
              exact ⟨first, rest, hfirst, hsame⟩

/-- The kind of the token that a scan is inside of. -/
def Mode.openKind? : Mode → Option TokenKind
  | .string => some .literal
  | .name => some .name
  | .dollar _ => some .literal
  | _ => none

theorem Mode.openKind?_of_isQuoted {mode : Mode} (h : mode.isQuoted = true) :
    ∃ kind, mode.openKind? = some kind ∧ ∀ text, kind.shown text = [] := by
  cases mode with
  | string => exact ⟨.literal, rfl, fun _ => rfl⟩
  | name => exact ⟨.name, rfl, fun _ => rfl⟩
  | dollar tag => exact ⟨.literal, rfl, fun _ => rfl⟩
  | _ => cases h

theorem tokenKind?_of_cls {step : Step} {mode : Mode} (hmode : mode.isQuoted = true)
    (hcls : step.cls = mode.cls) : step.tokenKind? = mode.openKind? := by
  cases mode <;> simp_all [Mode.isQuoted, Mode.openKind?, Mode.cls, Step.tokenKind?]

/-- A step that leaves the scan in quotes belongs to the token in these quotes. -/
theorem stepAt_openKind (s : ScanState) (c : Char) (rest : Text)
    (h : (stepAt s c rest).after.mode.isQuoted = true) :
    (stepAt s c rest).tokenKind? = (stepAt s c rest).after.mode.openKind? := by
  cases stepAt_action s c rest with
  | code _ _ _ hafter => simp [hafter, Mode.isQuoted] at h
  | opens _ _ hcls => exact tokenKind?_of_cls h hcls
  | stays _ hcls hsame => exact tokenKind?_of_cls h (hsame ▸ hcls)
  | nests _ _ _ _ _ hafter => simp [hafter, Mode.isQuoted] at h
  | closes _ _ _ hafter => simp [hafter, Mode.isQuoted] at h

/-- Blanks in quotes leave the scan in the same quotes. -/
theorem stepAt_after_of_blank {s : ScanState} (hs : s.mode.isQuoted = true) {c : Char}
    (hc : isBlank c = true) (rest : Text) : (stepAt s c rest).after = s := by
  refine (stepAt_after_blank s hc rest).resolve_right ?_
  rintro ⟨hline, -⟩
  rw [hline] at hs
  cases hs

theorem Trace.openKind_of_blank {s : ScanState} {steps : List Step} {rest : Text}
    (h : Trace s steps rest) (hs : s.mode.isQuoted = true)
    (hblank : ∀ step ∈ steps, isBlank step.first = true) :
    ∀ step ∈ steps, step.tokenKind? = s.mode.openKind? := by
  induction steps with
  | nil => simp
  | cons step later ih =>
      obtain ⟨hstep, hlater⟩ := h
      have hafter := stepAt_after_of_blank hs (hblank step List.mem_cons_self)
        (step.more ++ (stepsText later ++ rest))
      have hkind := stepAt_openKind s step.first (step.more ++ (stepsText later ++ rest))
        (by rw [hafter, hs])
      rw [hafter] at hkind
      rw [hstep] at hafter hkind
      rw [hafter] at hlater
      intro x hx
      rcases List.mem_cons.1 hx with rfl | hx
      · exact hkind
      · exact ih hlater (fun y hy => hblank y (List.mem_cons_of_mem step hy)) x hx

/-- Trimming a text changes at most the end of a token in quotes. -/
theorem outline_trim (text : Text) :
    (lexemes (scan (Text.trim text))).map Lexeme.outline =
      (lexemes (scan text)).map Lexeme.outline := by
  cases hmode : (scanEnd (Text.trim text)).mode.isQuoted with
  | false => rw [lexemes_trim hmode]
  | true =>
      obtain ⟨front, back, hfront, hback, hscan⟩ := scan_trim_split text
      rw [hscan, lexemes_inert_append (skipped_blank hfront).inert]
      have hblank := scanFrom_blank (scanEnd (Text.trim text)) hback
      have htrace := trace_scanFrom (scanEnd (Text.trim text)) back
      obtain ⟨kind, hkind, hhidden⟩ := Mode.openKind?_of_isQuoted hmode
      have hback := htrace.openKind_of_blank hmode hblank
      rw [hkind] at hback
      cases hlast : (scan (Text.trim text)).getLast? with
      | none =>
          rw [scanEnd, hlast] at hmode
          cases hmode
      | some x =>
          have hx : x.after = scanEnd (Text.trim text) := by simp [scanEnd, hlast]
          refine (lexemes_append_hidden hhidden hlast ?_ hback).symm
          obtain ⟨s, c, rest, rfl⟩ := (trace_scan (Text.trim text)).stepAt_of_mem
            (List.mem_of_getLast? hlast)
          rw [stepAt_openKind _ _ _ (by rw [hx, hmode]), hx, hkind]

/-! ## Outlines of clauses -/

theorem Lexeme.outline_eq_symbol_iff {lexeme : Lexeme} {text : Text} :
    lexeme.outline = ⟨.symbol, text⟩ ↔ lexeme = ⟨.symbol, text⟩ := by
  obtain ⟨kind, text'⟩ := lexeme
  cases kind <;> simp [Lexeme.outline, TokenKind.shown]

/-- Commas and parentheses are seen in the outlines. -/
theorem commaGroups_outline (depth : Nat) (found : List Lexeme) :
    (commaGroups depth found).map (List.map Lexeme.outline) =
      commaGroups depth (found.map Lexeme.outline) := by
  induction found generalizing depth with
  | nil => rfl
  | cons lexeme rest ih =>
      have hdepth : lexeme.outline.depthAfter depth = lexeme.depthAfter depth := by
        simp only [Lexeme.depthAfter, Lexeme.outline_eq_symbol_iff]
      simp only [List.map_cons, commaGroups, Lexeme.outline_eq_symbol_iff, hdepth, ← ih]
      split
      · rfl
      · cases commaGroups (lexeme.depthAfter depth) rest <;> rfl

/-- The outlines of the clauses of a text behind the name of a table. -/
def clauseOutlines (found : List Lexeme) : List (List Lexeme) :=
  (commaGroups 0 (found.map Lexeme.outline)).filter (!·.isEmpty)

/-- Clauses that all have tokens show their outlines in the text that they are cut from. -/
theorem clauseOutlines_commaParts {tail : Text} (h : ∀ text ∈ commaParts tail, tokenize text ≠ []) :
    (commaParts tail).map (fun text => (tokenize text).map (·.lexeme.outline)) =
      clauseOutlines (lexemes (scan tail)) := by
  have houtline : ∀ text, (tokenize text).map (·.lexeme.outline) =
      (lexemes (scan text)).map Lexeme.outline := by
    intro text
    rw [← tokenize_lexemes, List.map_map]
    rfl
  have hpart : ∀ part ∈ pieceSteps ',' tail,
      (tokenize (Text.trim (stepsText part))).map (·.lexeme.outline) =
        (lexemes part).map Lexeme.outline := by
    intro part hmem
    have hpiece : PieceOf ',' tail part := pieceOf_of_mem (by decide) hmem
    rw [houtline, outline_trim, hpiece.scan]
  have hgroups : commaGroups 0 (lexemes (scan tail)) = (pieceSteps ',' tail).map lexemes :=
    commaGroups_lexemes (trace_scan tail)
  rw [clauseOutlines, ← commaGroups_outline, hgroups, List.map_map]
  rw [commaParts_eq] at h ⊢
  rw [List.filter_map, List.filter_map, List.map_map]
  have hkept : (pieceSteps ',' tail).filter
        ((!·.isEmpty) ∘ fun part => Text.trim (stepsText part)) =
      (pieceSteps ',' tail).filter ((!·.isEmpty) ∘ (List.map Lexeme.outline ∘ lexemes)) := by
    apply List.filter_congr
    intro part hmem
    have hsame := hpart part hmem
    simp only [Function.comp_apply, ← hsame]
    cases htext : Text.trim (stepsText part) with
    | nil => rfl
    | cons c text =>
        have htokens := h (Text.trim (stepsText part)) (by
          refine List.mem_filter.2 ⟨List.mem_map.2 ⟨part, hmem, rfl⟩, ?_⟩
          rw [htext]
          rfl)
        rw [htext] at htokens
        simp [htokens]
  rw [hkept]
  apply List.map_congr_left
  intro part hmem
  exact hpart part (List.mem_filter.1 hmem).1

/-! ## Outlines of kinds -/

/-- What a clause does, without the name that it gives. -/
def ClauseKind.outline : ClauseKind → ClauseKind
  | .dropConstraint _ => .dropConstraint ⟨[], []⟩
  | .addForeignKey name => .addForeignKey (name.map fun _ => ⟨[], []⟩)
  | .addConstraint _ => .addConstraint ⟨[], []⟩
  | .addColumn => .addColumn
  | .other => .other

/-- A kind of statement without all texts and names in it. -/
def StatementKind.outline : StatementKind → StatementKind
  | .alterTable alter =>
      .alterTable
        { table := []
          head := []
          clauses := alter.clauses.map fun clause => ⟨[], clause.kind.outline⟩ }
  | kind => kind

theorem leadingName?_both {a b : List Token} (h : SameOutline a b) :
    (leadingName? a = none ∧ leadingName? b = none) ∨
      ∃ name name', leadingName? a = some name ∧ leadingName? b = some name' := by
  have hsome := leadingName?_outline h
  cases ha : leadingName? a with
  | none =>
      rw [ha, Option.isSome_none, eq_comm, Option.isSome_eq_false_iff, Option.isNone_iff_eq_none]
        at hsome
      exact .inl ⟨rfl, hsome⟩
  | some name =>
      rw [ha, Option.isSome_some, eq_comm, Option.isSome_iff_exists] at hsome
      obtain ⟨name', hb⟩ := hsome
      exact .inr ⟨name, name', rfl, hb⟩

theorem clauseOfAdded_outline {a b : List Token} (h : SameOutline a b) :
    (ClauseKind.ofAdded a).outline = (ClauseKind.ofAdded b).outline := by
  simp only [ClauseKind.ofAdded, startsWith_outline h, leadingName?_outline h,
    mentionsForeignKey_outline (h.drop 2)]
  split
  · obtain ⟨ha, hb⟩ | ⟨name, name', ha, hb⟩ := leadingName?_both (h.drop 1)
    · rw [ha, hb]
    · rw [ha, hb]
      dsimp only
      split <;> rfl
  · rfl

theorem clauseOfTokens_outline {a b : List Token} (h : SameOutline a b) :
    (ClauseKind.ofTokens a).outline = (ClauseKind.ofTokens b).outline := by
  simp only [ClauseKind.ofTokens, startsWith_outline h]
  split
  · obtain ⟨ha, hb⟩ | ⟨name, name', ha, hb⟩ := leadingName?_both (h.drop 2).skipIfExists
    · rw [ha, hb]
    · rw [ha, hb]
      rfl
  · split
    · exact clauseOfAdded_outline (h.drop 1)
    · rfl

theorem SameOutline.dropWhile {a b : List Token} (h : SameOutline a b) {p : Token → Bool}
    (hp : ∀ t u : Token, t.lexeme.outline = u.lexeme.outline → p t = p u) :
    SameOutline (a.dropWhile p) (b.dropWhile p) := by
  induction a generalizing b with
  | nil =>
      rw [sameOutline_nil_iff.1 h]
      rfl
  | cons t a ih =>
      obtain ⟨u, b, rfl, hlex, hrest⟩ := sameOutline_cons_iff.1 h
      rw [List.dropWhile_cons, List.dropWhile_cons, hp t u hlex]
      split
      · exact ih hrest
      · exact h

theorem isTableModifier_outline {t u : Token} (h : t.lexeme.outline = u.lexeme.outline) :
    StatementKind.isTableModifier t = StatementKind.isTableModifier u := by
  simp only [StatementKind.isTableModifier, isKeyword_outline h]

theorem ofCreated_outline {a b : List Token} (h : SameOutline a b) :
    StatementKind.ofCreated a = StatementKind.ofCreated b := by
  have hmodifiers := h.dropWhile fun _ _ => isTableModifier_outline
  simp only [StatementKind.ofCreated, startsWith_outline h, startsWith_outline (h.drop 1),
    startsWith_outline (h.drop 2), startsWith_outline hmodifiers]

theorem SameOutline.afterParts {a b : List Token} (h : SameOutline a b) :
    SameOutline (afterParts a) (afterParts b) := by
  fun_induction AuroraMigration.afterParts a generalizing b with
  | case1 dot part rest hname ih =>
      obtain ⟨dot', b, rfl, hdot, hb⟩ := sameOutline_cons_iff.1 h
      obtain ⟨part', b, rfl, hpart, hrest⟩ := sameOutline_cons_iff.1 hb
      rw [isSymbol_outline hdot, isIdentifier_outline hpart] at hname
      rw [AuroraMigration.afterParts, if_pos hname]
      exact ih hrest
  | case2 dot part rest hname =>
      have hall := h
      obtain ⟨dot', b, rfl, hdot, hb⟩ := sameOutline_cons_iff.1 h
      obtain ⟨part', b, rfl, hpart, hrest⟩ := sameOutline_cons_iff.1 hb
      rw [isSymbol_outline hdot, isIdentifier_outline hpart] at hname
      rw [AuroraMigration.afterParts, if_neg hname]
      exact hall
  | case3 a hshort =>
      have hlength : a.length = b.length := by
        simpa using congrArg List.length h
      cases a with
      | nil =>
          obtain rfl := List.length_eq_zero_iff.1 hlength.symm
          exact h
      | cons dot rest =>
          cases rest with
          | nil =>
              obtain ⟨dot', rfl⟩ := List.length_eq_one_iff.1 hlength.symm
              exact h
          | cons part rest => exact absurd rfl (hshort dot part rest)

theorem SameOutline.skipOnly {a b : List Token} (h : SameOutline a b) :
    SameOutline (skipOnly a) (skipOnly b) := by
  simp only [AuroraMigration.skipOnly, startsWith_outline h]
  split
  · exact h.drop 1
  · exact h

theorem SameOutline.afterName {a b : List Token} (h : SameOutline a b) :
    SameOutline (afterName a) (afterName b) :=
  (h.skipIfExists.skipOnly.drop 1).afterParts

theorem qualifiedName?_outline {a b : List Token} (h : SameOutline a b) :
    (qualifiedName? a).isSome = (qualifiedName? b).isSome := by
  cases a with
  | nil => rw [sameOutline_nil_iff.1 h]
  | cons t a =>
      obtain ⟨u, b, rfl, hlex, -⟩ := sameOutline_cons_iff.1 h
      simp only [qualifiedName?, isIdentifier_outline hlex]
      split <;> rfl

/-! ## Statements -/

/-- Whether no clause of a statement that alters a table consists of comments alone. -/
def StatementKind.ClausesHaveTokens : StatementKind → Prop
  | .alterTable alter => ∀ clause ∈ alter.clauses, tokenize clause.text ≠ []
  | _ => True

instance : DecidablePred StatementKind.ClausesHaveTokens
  | .alterTable alter =>
      inferInstanceAs (Decidable (∀ clause ∈ alter.clauses, tokenize clause.text ≠ []))
  | .createTable => instDecidableTrue
  | .createIndex _ _ => instDecidableTrue
  | .drop => instDecidableTrue
  | .other => instDecidableTrue

/-- The kind of a statement behind whose table's name stand these parts. -/
def kindOfParts (table head : Text) (parts : List Text) : StatementKind :=
  if parts.isEmpty then .other
  else .alterTable { table, head, clauses := parts.map Clause.ofText }

theorem lexemes_after_name {body : Text} {a t part : Token} {before after : List Token}
    {hs ys : List Step} (h : HeadAt body a t before part after hs ys) :
    lexemes (scan (body.drop part.stop)) = after.map Token.lexeme := by
  rw [(take_stepsText h.split h.place).2, ← h.later, tokensFrom_lexemes]
  by_cases hys : ys = []
  · rw [hys]
    rfl
  · have htrace := trace_scan body
    rw [h.split, trace_append, h.state hys] at htrace
    rw [scan_stepsText htrace.2]

/-- The parts behind the name of a table, and that the tokens behind the name are theirs. -/
theorem parts_of_name {body : Text} {a t : Token} {tokens : List Token}
    (htokens : tokenize body = a :: t :: tokens) (ha : a.isKeyword "ALTER" = true)
    (ht : t.isKeyword "TABLE" = true) {start stop : Nat}
    (hfound : qualifiedName? (skipOnly (skipIfExists tokens)) = some (start, stop))
    (hclauses : (StatementKind.ofBody body).ClausesHaveTokens) :
    ∃ table head parts, StatementKind.ofBody body = kindOfParts table head parts ∧
      parts.map (fun text => (tokenize text).map (·.lexeme.outline)) =
        clauseOutlines ((afterName tokens).map Token.lexeme) := by
  have hkind : StatementKind.ofBody body =
      kindOfParts ((body.take stop).drop start) (body.take stop) (commaParts (body.drop stop)) := by
    rw [ofBody_of_alter htokens ha ht, AlterTable.ofTokens?, hfound, kindOfParts]
    simp only [List.isEmpty_map]
    split <;> rfl
  refine ⟨_, _, _, hkind, ?_⟩
  have hparts : ∀ text ∈ commaParts (body.drop stop), tokenize text ≠ [] := by
    intro text htext
    have hsome : (commaParts (body.drop stop)).isEmpty = false := by
      rw [List.isEmpty_eq_false_iff]
      exact List.ne_nil_of_mem htext
    rw [hkind, kindOfParts, hsome] at hclauses
    exact hclauses _ (List.mem_map_of_mem htext)
  rw [clauseOutlines_commaParts hparts]
  obtain ⟨before, part, hname, rfl⟩ := nameEnd_of_alterTable hfound
  generalize afterName tokens = after at hname ⊢
  obtain rfl := hname.split
  obtain ⟨hs, ys, hhead⟩ := headAt_of_name htokens ha ht hname
  rw [lexemes_after_name hhead]

theorem kindOfParts_outline {parts parts' : List Text}
    (h : parts.map (fun text => (tokenize text).map (·.lexeme.outline)) =
      parts'.map (fun text => (tokenize text).map (·.lexeme.outline)))
    (table head table' head' : Text) :
    (kindOfParts table head parts).outline = (kindOfParts table' head' parts').outline := by
  have hkinds : parts.map (fun text => (Clause.ofText text).kind.outline) =
      parts'.map (fun text => (Clause.ofText text).kind.outline) := by
    have hfactors : Function.FactorsThrough (fun text => (Clause.ofText text).kind.outline)
        (fun text => (tokenize text).map (·.lexeme.outline)) :=
      fun _ _ hsame => clauseOfTokens_outline hsame
    have : Nonempty ClauseKind := ⟨.other⟩
    obtain ⟨read, hread⟩ := (Function.factorsThrough_iff _).1 hfactors
    rw [hread, ← List.map_map, ← List.map_map, h]
  have hempty : parts.isEmpty = parts'.isEmpty := by
    have hlength := congrArg List.length h
    rw [List.length_map, List.length_map] at hlength
    rw [Bool.eq_iff_iff, List.isEmpty_iff_length_eq_zero, List.isEmpty_iff_length_eq_zero, hlength]
  unfold kindOfParts
  rw [hempty]
  split
  · rfl
  · have hclauses := congrArg (List.map fun kind => (⟨[], kind⟩ : Clause)) hkinds
    rw [List.map_map, List.map_map] at hclauses
    simp only [StatementKind.outline, List.map_map]
    exact congrArg _ (congrArg _ hclauses)

theorem ofBody_alter_outline {body body' : Text} {a t a' t' : Token} {tokens tokens' : List Token}
    (htokens : tokenize body = a :: t :: tokens) (htokens' : tokenize body' = a' :: t' :: tokens')
    (ha : a.isKeyword "ALTER" = true) (ht : t.isKeyword "TABLE" = true)
    (ha' : a'.isKeyword "ALTER" = true) (ht' : t'.isKeyword "TABLE" = true)
    (h : SameOutline tokens tokens') (hclauses : (StatementKind.ofBody body).ClausesHaveTokens)
    (hclauses' : (StatementKind.ofBody body').ClausesHaveTokens) :
    (StatementKind.ofBody body).outline = (StatementKind.ofBody body').outline := by
  have hsome := qualifiedName?_outline h.skipIfExists.skipOnly
  cases hfound : qualifiedName? (skipOnly (skipIfExists tokens)) with
  | none =>
      rw [hfound, Option.isSome_none, eq_comm, Option.isSome_eq_false_iff,
        Option.isNone_iff_eq_none] at hsome
      rw [ofBody_of_alter htokens ha ht, ofBody_of_alter htokens' ha' ht', AlterTable.ofTokens?,
        AlterTable.ofTokens?, hfound, hsome]
  | some place =>
      rw [hfound, Option.isSome_some, eq_comm, Option.isSome_iff_exists] at hsome
      obtain ⟨place', hfound'⟩ := hsome
      obtain ⟨table, head, parts, hkind, hparts⟩ :=
        parts_of_name htokens ha ht hfound hclauses
      obtain ⟨table', head', parts', hkind', hparts'⟩ :=
        parts_of_name htokens' ha' ht' hfound' hclauses'
      rw [hkind, hkind']
      apply kindOfParts_outline
      have hafter := h.afterName
      unfold SameOutline at hafter
      rw [hparts, hparts', clauseOutlines, clauseOutlines, List.map_map, List.map_map]
      exact congrArg (fun found => (commaGroups 0 found).filter (!·.isEmpty)) hafter

/--
The kind of a statement does not depend on what stands in quotes or comments.

Two bodies whose tokens have the same outline have the same kind, with the same
flags, and if they alter a table, as many clauses that do the same things and
name a constraint in the same places.
-/
theorem kind_blind_to_quotes {body body' : Text} (h : SameOutline (tokenize body) (tokenize body'))
    (hclauses : (StatementKind.ofBody body).ClausesHaveTokens)
    (hclauses' : (StatementKind.ofBody body').ClausesHaveTokens) :
    (StatementKind.ofBody body).outline = (StatementKind.ofBody body').outline := by
  by_cases halter : startsWith ["ALTER", "TABLE"] (tokenize body) = true
  · have halter' := halter
    rw [startsWith_outline h] at halter'
    obtain ⟨a, rest, htokens, ha, hrest⟩ := startsWith_cons_iff.1 halter
    obtain ⟨t, tokens, rfl, ht, -⟩ := startsWith_cons_iff.1 hrest
    obtain ⟨a', rest', htokens', ha', hrest'⟩ := startsWith_cons_iff.1 halter'
    obtain ⟨t', tokens', rfl, ht', -⟩ := startsWith_cons_iff.1 hrest'
    have htail : SameOutline tokens tokens' := by
      have hdrop := h.drop 2
      rwa [htokens, htokens'] at hdrop
    exact ofBody_alter_outline htokens htokens' ha ht ha' ht' htail hclauses hclauses'
  · rw [Bool.not_eq_true] at halter
    have halter' := halter
    rw [startsWith_outline h] at halter'
    simp only [StatementKind.ofBody, halter, halter', startsWith_outline h,
      ofCreated_outline (h.drop 1), Bool.false_eq_true, if_false]

/-- A table named like a key word, and a comma in a comment, change nothing. -/
theorem kind_blind_to_quotes_references :
    (StatementKind.ofBody
        "ALTER TABLE \"references\" ADD CONSTRAINT \"foreign key\" CHECK (a), x".toList).outline =
      (StatementKind.ofBody
        "alter table \"t\" add constraint \"c\" /* , */ check (A), -- (\nX".toList).outline :=
  kind_blind_to_quotes (by decide +kernel) (by decide +kernel) (by decide +kernel)

end AuroraMigration
