import AuroraMigration.Proofs.LastToken
import AuroraMigration.Proofs.Outline

/-!
# Names in quotes

A name in quotes is written with each of its quotes doubled. Reading its normal
form takes that back, so a name is never confused with another one. The scan
delimits such names in the same way: a token in closed quotes is the spelling of
exactly one name.
-/

namespace AuroraMigration

/-! ## Doubled quotes -/

/-- A text with each of its quotes written twice. -/
def doubleQuotes (name : Text) : Text :=
  name.flatMap fun c => if c = '"' then [c, c] else [c]

theorem quoteName_eq (name : Text) : quoteName name = '"' :: (doubleQuotes name ++ ['"']) := rfl

theorem doubleQuotes_quote (name : Text) :
    doubleQuotes ('"' :: name) = '"' :: '"' :: doubleQuotes name := rfl

theorem doubleQuotes_other {c : Char} (hc : c ≠ '"') (name : Text) :
    doubleQuotes (c :: name) = c :: doubleQuotes name := by
  simp [doubleQuotes, hc]

theorem collapsePairs_other {a c : Char} (hc : c ≠ a) (text : Text) :
    Text.collapsePairs a (c :: text) = c :: Text.collapsePairs a text := by
  cases text with
  | nil => rfl
  | cons d rest => simp [Text.collapsePairs, hc]

theorem collapsePairs_doubleQuotes (name : Text) :
    Text.collapsePairs '"' (doubleQuotes name) = name := by
  induction name with
  | nil => rfl
  | cons c name ih =>
      by_cases hc : c = '"'
      · rw [hc, doubleQuotes_quote]
        simp [Text.collapsePairs, ih]
      · rw [doubleQuotes_other hc, collapsePairs_other hc, ih]

theorem unquoted?_quoteName (name : Text) :
    unquoted? (quoteName name) = some (doubleQuotes name) := by
  simp [quoteName_eq, unquoted?]

/-- A name is what its spelling in quotes stands for. -/
theorem normal_quoteName (name : Text) :
    (ConstraintName.ofSpelling (quoteName name)).normal = name := by
  simp [ConstraintName.ofSpelling, unquoted?_quoteName, collapsePairs_doubleQuotes]

/-! ## The scan of a name -/

/-- The step that opens the quotes of a name. -/
def quoteStep (depth : Nat) : Step :=
  { first := '"', more := [], cls := .name, before := ⟨.code, depth⟩, after := ⟨.name, depth⟩ }

/-- The steps that read a name behind its opening quote, up to the closing one. -/
def nameSteps (depth : Nat) : Text → List Step
  | [] =>
      [{ first := '"', more := [], cls := .name, before := ⟨.name, depth⟩,
         after := ⟨.code, depth⟩ }]
  | c :: name =>
      { first := c, more := if c = '"' then ['"'] else [], cls := .name, before := ⟨.name, depth⟩,
        after := ⟨.name, depth⟩ } :: nameSteps depth name

theorem stepsText_nameSteps (depth : Nat) (name : Text) :
    stepsText (nameSteps depth name) = doubleQuotes name ++ ['"'] := by
  induction name with
  | nil => rfl
  | cons c name ih =>
      rw [nameSteps, stepsText_cons, ih]
      by_cases hc : c = '"'
      · simp [hc, doubleQuotes_quote, Step.chars]
      · simp [hc, doubleQuotes_other hc, Step.chars]

theorem lastState_nameSteps (s : ScanState) (depth : Nat) (name : Text) :
    lastState s (nameSteps depth name) = ⟨.code, depth⟩ := by
  induction name generalizing s with
  | nil => rfl
  | cons c name ih => exact ih _

theorem trace_nameSteps (depth : Nat) (name : Text) {rest : Text}
    (hrest : rest.head? ≠ some '"') : Trace ⟨.name, depth⟩ (nameSteps depth name) rest := by
  induction name with
  | nil =>
      refine ⟨?_, trivial⟩
      simp [stepAt, read, readQuoted, hrest]
  | cons c name ih =>
      refine ⟨?_, ih⟩
      by_cases hc : c = '"'
      · simp [stepAt, read, readQuoted, hc]
      · simp [stepAt, read, readQuoted, hc]

theorem stepAt_code_name {depth : Nat} {c : Char} {rest : Text}
    (h : (stepAt ⟨.code, depth⟩ c rest).cls = .name) : c = '"' := by
  revert h
  simp only [stepAt, read, readCode]
  split <;> (try split) <;> simp

/-- Steps in a name that end in code have read the name up to its closing quote. -/
theorem Trace.eq_nameSteps {depth : Nat} {steps : List Step} {rest : Text}
    (h : Trace ⟨.name, depth⟩ steps rest) (hcls : ∀ step ∈ steps, step.cls = .name)
    (hend : (lastState ⟨.name, depth⟩ steps).mode = .code) :
    ∃ name, steps = nameSteps depth name := by
  induction steps with
  | nil => cases hend
  | cons step later ih =>
      obtain ⟨hstep, hlater⟩ := h
      have hrest : ∀ x ∈ later, x.cls = .name := fun x hx => hcls x (List.mem_cons_of_mem step hx)
      obtain ⟨first, more, cls, before, after⟩ := step
      simp only [stepAt, read, readQuoted] at hstep
      split at hstep
      · rename_i hquote
        split at hstep
        · cases hstep
          obtain ⟨name, rfl⟩ := ih hlater hrest hend
          exact ⟨'"' :: name, by simp [nameSteps, hquote]⟩
        · rename_i hsingle
          cases hstep
          cases later with
          | nil => exact ⟨[], by simp [nameSteps, hquote]⟩
          | cons next later =>
              exfalso
              have hnext := hrest next List.mem_cons_self
              rw [← hlater.1] at hnext
              have hfirst := stepAt_code_name hnext
              simp [Step.chars, hfirst] at hsingle
      · rename_i hother
        cases hstep
        obtain ⟨name, rfl⟩ := ih hlater hrest hend
        exact ⟨first :: name, by simp [nameSteps, hother]⟩

/-! ## Tokens -/

/-- A token in quotes behind which the scan is back in code. -/
structure ClosedName (sql : Text) (token : Token) : Prop where
  mem : token ∈ tokenize sql
  kind : token.kind = .name
  closed : (scanEnd (sql.take token.stop)).mode = .code

/-- Only in code or in a name is a step part of a name. -/
theorem stepAt_name_before {s : ScanState} {c : Char} {rest : Text}
    (h : (stepAt s c rest).cls = .name) : s.mode = .code ∨ s.mode = .name := by
  rw [← stepAt_before s c rest]
  cases stepAt_action s c rest with
  | code hbefore => exact .inl hbefore
  | opens hbefore => exact .inl hbefore
  | stays _ hcls => exact .inr (Mode.eq_name_of_cls (hcls.symm.trans h))
  | nests _ _ _ hcls => simp [hcls] at h
  | closes _ hcls => exact .inr (Mode.eq_name_of_cls (hcls.symm.trans h))

/-- A scan is in code before a token in quotes: an open name would be a part of the token. -/
theorem TokenAt.mode_before_name {sql : Text} {before after : List Token} {token : Token}
    {xs ts ys : List Step} (hat : TokenAt 0 (scan sql) before token after xs ts ys)
    (htokens : tokenize sql = before ++ token :: after) (hkind : token.kind = .name) :
    (lastState .start xs).mode = .code := by
  have htrace := trace_scan sql
  rw [hat.split, trace_append, trace_append] at htrace
  obtain ⟨hxs, hts, -⟩ := htrace
  obtain ⟨step, later, rfl⟩ := List.exists_cons_of_ne_nil hat.nonempty
  have hcls := cls_of_name (hkind ▸ hat.kinds step List.mem_cons_self)
  rw [← hts.1] at hcls
  refine (stepAt_name_before hcls).resolve_right fun hname => ?_
  cases hlast : xs.getLast? with
  | none =>
      rw [List.getLast?_eq_none_iff.1 hlast] at hname
      cases hname
  | some x =>
      obtain ⟨earlier, hearlier⟩ := List.getLast?_eq_some_iff.1 hlast
      obtain ⟨s, c, ahead, hx⟩ := hxs.stepAt_of_mem (List.mem_of_getLast? hlast)
      have hafter : x.after.mode = .name := by
        rw [hearlier, lastState_append] at hname
        exact hname
      refine hat.apart_before htokens (by simp [hkind]) hlast ?_
      rw [hx] at hafter ⊢
      rw [stepAt_openKind s c ahead (by rw [hafter]; rfl), hafter, hkind]
      rfl

/-- A token in quotes is an opening quote and the steps in the name behind it. -/
theorem nameToken_steps {sql : Text} {token : Token} (hmem : token ∈ tokenize sql)
    (hkind : token.kind = .name) :
    ∃ depth steps rest, token.text = '"' :: stepsText steps ∧
      Trace ⟨.name, depth⟩ steps rest ∧ (∀ step ∈ steps, step.cls = .name) ∧
      scanEnd (sql.take token.stop) = lastState ⟨.name, depth⟩ steps := by
  obtain ⟨before, after, htokens⟩ := List.append_of_mem hmem
  obtain ⟨xs, ts, ys, hat⟩ := tokenAt_of_tokensFrom htokens
  have hmode := hat.mode_before_name htokens hkind
  have hcls : ∀ step ∈ ts, step.cls = .name := fun step hstep =>
    cls_of_name (hkind ▸ hat.kinds step hstep)
  have hscan : scan sql = (xs ++ ts) ++ ys := by rw [hat.split, List.append_assoc]
  have htrace := trace_scan sql
  rw [hscan, trace_append] at htrace
  have hend : scanEnd (sql.take token.stop) = lastState .start (xs ++ ts) := by
    have hlength := hat.length
    rw [Nat.zero_add] at hlength
    rw [scanEnd_eq_lastState, (take_stepsText hscan hlength).1, scan_stepsText htrace.1]
  have hts := (trace_append.1 htrace.1).2
  rw [lastState_append] at hend
  generalize lastState .start xs = state at hmode hts hend
  obtain ⟨mode, depth⟩ := state
  obtain rfl : mode = .code := hmode
  obtain ⟨step, later, rfl⟩ := List.exists_cons_of_ne_nil hat.nonempty
  obtain ⟨hstep, hlater⟩ := hts
  have hopen : step = quoteStep depth := by
    have hname := hcls step List.mem_cons_self
    rw [← hstep] at hname
    rw [← hstep, stepAt_code_name hname]
    rfl
  rw [hopen] at hlater
  refine ⟨depth, later, stepsText ys ++ [], ?_, hlater,
    fun x hx => hcls x (List.mem_cons_of_mem step hx), ?_⟩
  · rw [← hat.text, hopen]
    rfl
  · rw [hend, hopen]
    rfl

/-- The quotes of a token are closed exactly if it is the spelling of a name. -/
theorem closedName_iff {sql : Text} {token : Token} (hmem : token ∈ tokenize sql)
    (hkind : token.kind = .name) :
    ClosedName sql token ↔ ∃ name, token.text = quoteName name := by
  obtain ⟨depth, steps, rest, htext, htrace, hcls, hend⟩ := nameToken_steps hmem hkind
  constructor
  · intro hclosed
    have hcode := hclosed.closed
    rw [hend] at hcode
    obtain ⟨name, rfl⟩ := htrace.eq_nameSteps hcls hcode
    exact ⟨name, by rw [htext, stepsText_nameSteps, quoteName_eq]⟩
  · rintro ⟨name, hname⟩
    have hsteps : steps = nameSteps depth name := by
      have htagged : ScanState.WellTagged ⟨.name, depth⟩ := fun tag hmode => by cases hmode
      have hsame : stepsText steps = stepsText (nameSteps depth name) := by
        rw [htext, quoteName_eq] at hname
        rw [stepsText_nameSteps]
        exact (List.cons.inj hname).2
      have hread := (trace_nameSteps depth name (show ([] : Text).head? ≠ some '"' by
        simp)).scanFrom_stepsText htagged
      rw [← htrace.scanFrom_stepsText htagged, hsame, hread]
    exact ⟨hmem, hkind, by rw [hend, hsteps, lastState_nameSteps]⟩

theorem scan_quoteName (name : Text) : scan (quoteName name) = quoteStep 0 :: nameSteps 0 name := by
  have htrace : Trace .start (quoteStep 0 :: nameSteps 0 name) [] :=
    ⟨rfl, trace_nameSteps 0 name (by simp)⟩
  have hscan := scan_stepsText htrace
  rw [stepsText_cons, stepsText_nameSteps] at hscan
  exact hscan

theorem cls_nameSteps {depth : Nat} {name : Text} {step : Step}
    (h : step ∈ nameSteps depth name) : step.cls = .name := by
  induction name with
  | nil =>
      rw [List.mem_singleton.1 h]
  | cons c name ih =>
      rcases List.mem_cons.1 h with rfl | h
      · rfl
      · exact ih h

theorem tokenize_quoteName (name : Text) :
    tokenize (quoteName name) = [⟨.name, quoteName name, 0⟩] := by
  have hkinds : ∀ step ∈ scan (quoteName name), step.tokenKind? = some .name := by
    intro step hstep
    have hcls : step.cls = .name := by
      rw [scan_quoteName] at hstep
      rcases List.mem_cons.1 hstep with rfl | hstep
      · rfl
      · exact cls_nameSteps hstep
    simp [Step.tokenKind?, hcls]
  have htokens := tokensFrom_of_kind (by simp) (by simp [scan_quoteName]) hkinds 0
  rwa [stepsText_scan] at htokens

/-- The normal form of a word is the word in lower case. -/
theorem normal_word {sql : Text} {token : Token} (hmem : token ∈ tokenize sql)
    (hkind : token.kind = .word) :
    (ConstraintName.ofSpelling token.text).normal = Text.lower token.text := by
  obtain ⟨before, after, htokens⟩ := List.append_of_mem hmem
  obtain ⟨xs, ts, ys, hat⟩ := tokenAt_of_tokensFrom htokens
  obtain ⟨step, later, rfl⟩ := List.exists_cons_of_ne_nil hat.nonempty
  have hword := hkind ▸ hat.kinds step List.mem_cons_self
  have hfirst : step.first ≠ '"' := by
    intro hquote
    simp only [Step.tokenKind?, code_of_word hword, hquote] at hword
    exact absurd hword (by decide)
  have hspelling : unquoted? token.text = none := by
    rw [← hat.text, stepsText_cons, Step.chars, List.cons_append]
    unfold unquoted?
    split
    · rename_i heq
      exact absurd (List.cons.inj heq).1 hfirst
    · rfl
  simp [ConstraintName.ofSpelling, hspelling]

/--
Names of constraints compare as identifiers. Reading a name back from its
spelling in quotes gives the name, and the tokens in closed quotes are exactly
such spellings. So two of them stand for the same name only if they are the same,
and one of them stands for the same name as a word exactly if its name is that
word in lower case.
-/
theorem quoted_names_compare :
    (∀ name, (ConstraintName.ofSpelling (quoteName name)).normal = name) ∧
      (∀ name, ClosedName (quoteName name) ⟨.name, quoteName name, 0⟩) ∧
      (∀ sql token, token ∈ tokenize sql → token.kind = .name →
        (ClosedName sql token ↔ ∃ name, token.text = quoteName name)) ∧
      (∀ sql sql' a b, ClosedName sql a → ClosedName sql' b →
        ((ConstraintName.ofSpelling a.text).normal = (ConstraintName.ofSpelling b.text).normal ↔
          a.text = b.text)) ∧
      ∀ sql sql' a word name, ClosedName sql a → a.text = quoteName name →
        word ∈ tokenize sql' → word.kind = .word →
        ((ConstraintName.ofSpelling a.text).normal = (ConstraintName.ofSpelling word.text).normal ↔
          name = Text.lower word.text) := by
  refine ⟨normal_quoteName, fun name => ?_, fun sql token hmem hkind => closedName_iff hmem hkind,
    fun sql sql' a b ha hb => ?_, fun sql sql' a word name _ htext hmem hkind => ?_⟩
  · have hmem : ⟨.name, quoteName name, 0⟩ ∈ tokenize (quoteName name) := by
      rw [tokenize_quoteName]
      exact List.mem_singleton_self _
    exact (closedName_iff hmem rfl).2 ⟨name, rfl⟩
  · obtain ⟨n, hn⟩ := (closedName_iff ha.mem ha.kind).1 ha
    obtain ⟨m, hm⟩ := (closedName_iff hb.mem hb.kind).1 hb
    rw [hn, hm, normal_quoteName, normal_quoteName]
    constructor
    · intro h
      rw [h]
    · intro h
      rw [← normal_quoteName n, h, normal_quoteName]
  · rw [htext, normal_quoteName, normal_word hmem hkind]

/--
A quote at the end of a name is no closing quote, and a sigma at the end of a
word is a final one.
-/
theorem quoted_names_compare_sigma :
    let sql := "\"a\"\"\", \"ος\", ΟΣ".toList
    let a : Token := ⟨.name, "\"a\"\"\"".toList, 0⟩
    let b : Token := ⟨.name, "\"ος\"".toList, 7⟩
    let word : Token := ⟨.word, "ΟΣ".toList, 13⟩
    let left : Token := ⟨.name, "\"a\"\"".toList, 0⟩
    (ClosedName sql a ∧ ClosedName sql b ∧ word ∈ tokenize sql ∧ left ∈ tokenize left.text) ∧
      (ConstraintName.ofSpelling a.text).normal ≠ (ConstraintName.ofSpelling b.text).normal ∧
      (ConstraintName.ofSpelling b.text).normal = (ConstraintName.ofSpelling word.text).normal ∧
      ¬ ∃ name, left.text = quoteName name := by
  intro sql a b word left
  obtain ⟨-, -, hclosed, hsame, hword⟩ := quoted_names_compare
  have ha : ClosedName sql a := ⟨by decide, rfl, by decide⟩
  have hb : ClosedName sql b := ⟨by decide, rfl, by decide⟩
  have hmem : word ∈ tokenize sql := by decide
  have hleft : left ∈ tokenize left.text := by decide
  refine ⟨⟨ha, hb, hmem, hleft⟩, fun h => ?_, ?_, fun h => ?_⟩
  · exact absurd ((hsame sql sql a b ha hb).1 h) (by decide)
  · exact (hword sql sql b word "ος".toList hb (by decide) hmem rfl).2 (by decide +kernel)
  · exact absurd ((hclosed left.text left hleft rfl).2 h).closed (by decide)

end AuroraMigration
