import AuroraMigration.Proofs.Adaptation

/-!
# The keywords that a statement starts with

The kind of a statement depends on its first words only. What follows the first
token that is no word can be lengthened, cut or freed of carriage returns and
the statement still starts with the same keywords. In particular an index is
built asynchronously before such a change exactly if it is so afterwards.
-/

namespace AuroraMigration

/-- Which keywords lexemes start with. -/
def keywordsOf (found : List Lexeme) (keywords : List String) : Bool :=
  startsWith keywords (found.map Lexeme.token)

theorem keywordsOf_scan (text : Text) (keywords : List String) :
    keywordsOf (lexemes (scan text)) keywords = startsWith keywords (tokenize text) := by
  rw [keywordsOf, ← tokenize_lexemes]
  exact startsWith_congr (alike_token _) keywords

theorem startsWith_append (keywords others : List String) (tokens : List Token) :
    startsWith (keywords ++ others) tokens =
      (startsWith keywords tokens && startsWith others (tokens.drop keywords.length)) := by
  induction keywords generalizing tokens with
  | nil => rfl
  | cons keyword keywords ih =>
      cases tokens with
      | nil => rfl
      | cons token tokens =>
          simp only [List.cons_append, startsWith, ih, List.length_cons, List.drop_succ_cons,
            Bool.and_assoc]

/-! ## Where the words end -/

/-- Whether a step belongs to a token that is no word. -/
def Step.endsWords (step : Step) : Bool :=
  step.tokenKind?.any (· != .word)

theorem keywordsOf_append {front later : List Lexeme}
    (h : ∀ next, later.head? = some next → next.kind ≠ .word) :
    keywordsOf (front ++ later) = keywordsOf front := by
  funext keywords
  induction front generalizing keywords with
  | nil =>
      cases keywords with
      | nil => rfl
      | cons keyword keywords =>
          cases later with
          | nil => rfl
          | cons next later =>
              have hkind := h next rfl
              simp [keywordsOf, startsWith, Token.isKeyword, Lexeme.token, hkind]
  | cons lexeme front ih =>
      cases keywords with
      | nil => rfl
      | cons keyword keywords =>
          have ih := ih keywords
          simp only [keywordsOf] at ih ⊢
          simp only [List.cons_append, List.map_cons, startsWith, ih]

/-- What follows a token that is no word does not change the keywords in front of it. -/
theorem keywordsOf_steps_append {xs : List Step} (h : ∃ step ∈ xs, step.endsWords = true)
    (ys : List Step) : keywordsOf (lexemes (xs ++ ys)) = keywordsOf (lexemes xs) := by
  obtain ⟨step, hfind⟩ := Option.isSome_iff_exists.1 (List.find?_isSome.2 h)
  obtain ⟨hstep, front, later, rfl, hfront⟩ := List.find?_eq_some_iff_append.1 hfind
  obtain ⟨kind, hkind, hword⟩ : ∃ kind, step.tokenKind? = some kind ∧ kind ≠ .word := by
    simpa [Step.endsWords, Option.any_eq_true] using hstep
  have hparted : ∀ tail, Parted front (step :: tail) := by
    intro tail x hx y hy
    obtain rfl : step = y := Option.some.inj hy
    have hxword : x.endsWords = false := by
      simpa using hfront x (List.mem_of_getLast? hx)
    cases hxk : x.tokenKind? with
    | none => simp [Step.joins, hxk]
    | some k =>
        obtain rfl : k = .word := by simpa [Step.endsWords, hxk] using hxword
        simp [Step.joins, hxk, hkind, hword]
  have hrest : ∀ tail, keywordsOf (lexemes (front ++ step :: tail)) =
      keywordsOf (lexemes front) := by
    intro tail
    obtain ⟨text, others, hlex⟩ := lexemes_cons_text hkind tail
    rw [lexemes_append (hparted tail), hlex]
    apply keywordsOf_append
    intro next hnext
    rw [← Option.some.inj hnext]
    exact hword
  rw [List.append_assoc, List.cons_append, hrest, hrest]

/-- A token has the kind of its steps. -/
theorem exists_step_of_lexeme {steps : List Step} {lexeme : Lexeme} (h : lexeme ∈ lexemes steps) :
    ∃ ts : List Step, (∀ step ∈ ts, step ∈ steps ∧ step.tokenKind? = some lexeme.kind) ∧
      ts ≠ [] ∧ stepsText ts = lexeme.text := by
  rw [← tokensFrom_lexemes 0] at h
  obtain ⟨token, htoken, rfl⟩ := List.mem_map.1 h
  obtain ⟨before, after, hsplit⟩ := List.append_of_mem htoken
  obtain ⟨xs, ts, ys, hat⟩ := tokenAt_of_tokensFrom hsplit
  refine ⟨ts, fun step hstep => ⟨?_, hat.kinds step hstep⟩, hat.nonempty, hat.text⟩
  rw [hat.split]
  exact List.mem_append_right _ (List.mem_append_left _ hstep)

/-- A scan that ends in quotes or in parentheses has read a token that is no word. -/
theorem Trace.endsWords {steps : List Step} {rest : Text} (h : Trace .start steps rest)
    (hopen : (lastState .start steps).mode.isQuoted = true ∨
      (lastState .start steps).depth ≠ 0) : ∃ step ∈ steps, step.endsWords = true := by
  rcases hopen with hquoted | hdepth
  · rcases List.eq_nil_or_concat' steps with rfl | ⟨before, step, rfl⟩
    · cases hquoted
    · refine ⟨step, by simp, ?_⟩
      rw [lastState_append] at hquoted
      cases h.shape step (by simp) with
      | code _ _ _ hcode =>
          rw [lastState_cons, lastState_nil, hcode] at hquoted
          cases hquoted
      | quoted _ hcls =>
          unfold Step.endsWords Step.tokenKind?
          cases hc : step.cls <;> simp_all [CharClass.isQuoted]
      | comment _ _ hclosed =>
          rw [lastState_cons, lastState_nil, hclosed] at hquoted
          cases hquoted
  · by_contra hnone
    refine hdepth (h.depth_of_words fun lexeme hlexeme => ?_)
    obtain ⟨ts, hts, hne, -⟩ := exists_step_of_lexeme hlexeme
    obtain ⟨step, hstep⟩ := List.exists_mem_of_ne_nil ts hne
    obtain ⟨hmem, hkind⟩ := hts step hstep
    by_contra hword
    exact hnone ⟨step, hmem, by simp [Step.endsWords, hkind, hword]⟩

/-! ## Carriage returns -/

theorem word_chars {steps : List Step} {rest : Text} {s : ScanState} (h : Trace s steps rest)
    {lexeme : Lexeme} (hlexeme : lexeme ∈ lexemes steps) (hword : lexeme.kind = .word) :
    ∀ c ∈ lexeme.text, isBlank c = false := by
  obtain ⟨ts, hts, -, htext⟩ := exists_step_of_lexeme hlexeme
  intro c hc
  rw [← htext] at hc
  obtain ⟨step, hstep, hcstep⟩ := List.mem_flatMap.1 hc
  obtain ⟨hmem, hkind⟩ := hts step hstep
  rw [hword] at hkind
  have hcls := code_of_word hkind
  have hsig : step.isSignificant = true := by
    cases hs : step.isSignificant with
    | true => rfl
    | false =>
        rw [(tokenKind?_eq_none_iff step).2 hs] at hkind
        cases hkind
  have hmore := ((h.shape step hmem).of_code hcls).2.1
  have hfirst : c = step.first := by simpa [Step.chars, hmore] using hcstep
  simpa [Step.isSignificant, hcls, hfirst] using hsig

/-- Carriage returns stand in no word, so leaving them out changes no keyword. -/
theorem keywordsOf_dropReturns {steps : List Step} {rest : Text} {s : ScanState}
    (h : Trace s steps rest) :
    keywordsOf ((lexemes steps).map Lexeme.dropReturns) = keywordsOf (lexemes steps) := by
  have hword : ∀ lexeme ∈ lexemes steps, lexeme.kind = .word → lexeme.dropReturns = lexeme := by
    intro lexeme hlexeme hkind
    have hreturn : '\r' ∉ lexeme.text := by
      intro hmem
      exact absurd (word_chars h hlexeme hkind _ hmem) (by decide)
    rw [Lexeme.dropReturns, Text.dropReturns_of_not_mem hreturn]
  funext keywords
  generalize lexemes steps = found at hword
  induction found generalizing keywords with
  | nil => rfl
  | cons lexeme found ih =>
      cases keywords with
      | nil => rfl
      | cons keyword keywords =>
          have ih := ih keywords fun x hx => hword x (List.mem_cons_of_mem lexeme hx)
          simp only [keywordsOf] at ih ⊢
          simp only [List.map_cons, startsWith, ih]
          by_cases hkind : lexeme.kind = .word
          · rw [hword lexeme List.mem_cons_self hkind]
          · have hother : (lexeme.kind == .word) = false := by simpa using hkind
            simp [Token.isKeyword, Lexeme.token, Lexeme.dropReturns, hother]

/-! ## Indexes -/

/-- No index is left to convert in a body. -/
def BuildsAsync (body : Text) : Prop :=
  ∀ unique, StatementKind.ofBody body ≠ .createIndex unique false

theorem indexEnd?_keywords {a b : Text}
    (h : keywordsOf (lexemes (scan a)) = keywordsOf (lexemes (scan b))) {n : Nat}
    (hn : indexEnd? (tokenize b) = some n) :
    indexEnd? (tokenize a) = some n ∧
      startsWith ["ASYNC"] ((tokenize a).drop n) = startsWith ["ASYNC"] ((tokenize b).drop n) := by
  have hstart : ∀ keywords, startsWith keywords (tokenize a) = startsWith keywords (tokenize b) :=
    fun keywords => by rw [← keywordsOf_scan, ← keywordsOf_scan, h]
  have hnext : ∀ keywords, startsWith keywords (tokenize b) = true →
      startsWith ["ASYNC"] ((tokenize a).drop keywords.length) =
        startsWith ["ASYNC"] ((tokenize b).drop keywords.length) := by
    intro keywords hkeywords
    have hlonger := hstart (keywords ++ ["ASYNC"])
    rwa [startsWith_append, startsWith_append, hstart, hkeywords, Bool.true_and,
      Bool.true_and] at hlonger
  unfold indexEnd? at hn ⊢
  rw [hstart, hstart]
  refine ⟨hn, ?_⟩
  split at hn
  · rename_i hindex
    obtain rfl := Option.some.inj hn
    exact hnext _ hindex
  · split at hn
    · rename_i hindex
      obtain rfl := Option.some.inj hn
      exact hnext _ hindex
    · cases hn

theorem buildsAsync_of_indexEnd? {body : Text}
    (h : ∀ n, indexEnd? (tokenize body) = some n →
      startsWith ["ASYNC"] ((tokenize body).drop n) = true) : BuildsAsync body := by
  intro unique hkind
  obtain ⟨n, hn, hasync⟩ := indexEnd?_of_ofBody hkind
  rw [h n hn] at hasync
  cases hasync

theorem BuildsAsync.congr {a b : Text} (ha : BuildsAsync a)
    (h : keywordsOf (lexemes (scan b)) = keywordsOf (lexemes (scan a))) : BuildsAsync b := by
  apply buildsAsync_of_indexEnd?
  intro n hn
  obtain ⟨hn', hasync⟩ := indexEnd?_keywords h.symm hn
  obtain ⟨unique, hkind⟩ := ofBody_of_indexEnd? hn'
  rw [← hasync]
  cases hstart : startsWith ["ASYNC"] ((tokenize a).drop n) with
  | true => rfl
  | false =>
      rw [hstart] at hkind
      exact absurd hkind (ha unique)

theorem BuildsAsync.indexesConverted {body : Text} (h : BuildsAsync body) :
    (Adaptation.ofBody body).indexesConverted = 0 := by
  unfold Adaptation.ofBody
  split
  · rename_i unique hkind
    exact absurd hkind (h unique)
  · rfl
  · rfl

end AuroraMigration
