import AuroraMigration.Proofs.Clauses

/-!
# Altered tables without the clauses that cannot run

An `ALTER TABLE` that loses clauses is written again from its head and the
clauses that survive. The text that comes out is closed, and reading it gives a
statement of the same head and the same surviving clauses, all of which survive.
-/

namespace AuroraMigration

/-! ## The head of a statement -/

theorem ofBody_of_alter {body : Text} {a t : Token} {tokens : List Token}
    (htokens : tokenize body = a :: t :: tokens) (ha : a.isKeyword "ALTER" = true)
    (ht : t.isKeyword "TABLE" = true) :
    StatementKind.ofBody body =
      (AlterTable.ofTokens? body tokens).elim .other StatementKind.alterTable := by
  have hcreate := isKeyword_false (b := "CREATE") ha (by decide)
  cases hof : AlterTable.ofTokens? body tokens <;>
    simp [StatementKind.ofBody, htokens, startsWith, ha, ht, hcreate, hof]

theorem ofBody_alterTable {body : Text} {alter : AlterTable}
    (h : StatementKind.ofBody body = .alterTable alter) :
    ∃ a t tokens, tokenize body = a :: t :: tokens ∧ a.isKeyword "ALTER" = true ∧
      t.isKeyword "TABLE" = true ∧ AlterTable.ofTokens? body tokens = some alter := by
  simp only [StatementKind.ofBody] at h
  split at h
  · unfold StatementKind.ofCreated at h
    repeat' split at h
    all_goals cases h
  · split at h
    · rename_i halter
      obtain ⟨a, rest, htokens, ha, hrest⟩ := startsWith_cons_iff.1 halter
      obtain ⟨t, tokens, rfl, ht, -⟩ := startsWith_cons_iff.1 hrest
      rw [htokens] at h
      simp only [List.drop_succ_cons, List.drop_zero] at h
      split at h
      · rename_i found hfound
        injection h with h
        exact ⟨a, t, tokens, htokens, ha, ht, h ▸ hfound⟩
      · cases h
    · split at h <;> cases h

/-- A step that reads a name in quotes leads on in it or out of it. -/
theorem stepAt_name {s : ScanState} {c : Char} {rest : Text}
    (h : (stepAt s c rest).cls = .name) :
    (stepAt s c rest).after.mode = .name ∨ (stepAt s c rest).after.mode = .code := by
  cases stepAt_action s c rest with
  | code _ hcls => simp [hcls] at h
  | opens _ _ hcls => exact .inl (Mode.eq_name_of_cls (hcls.symm.trans h))
  | stays _ hcls hsame => exact .inl (hsame ▸ Mode.eq_name_of_cls (hcls.symm.trans h))
  | nests _ _ _ hcls => simp [hcls] at h
  | closes _ _ _ hafter => exact .inr hafter

theorem cls_of_name {step : Step} (h : step.tokenKind? = some .name) : step.cls = .name := by
  unfold Step.tokenKind? at h
  split at h <;> first | assumption | (split at h <;> (try split at h) <;> cases h) | cases h

/-- Behind an identifier that does not end the text a scan is in code. -/
theorem TokenAt.identifier_mode {body : Text} {before after : List Token} {token : Token}
    {xs ts ys : List Step} (hat : TokenAt 0 (scan body) before token after xs ts ys)
    (htokens : tokenize body = before ++ token :: after) (hident : token.isIdentifier = true)
    (hmore : ys ≠ []) : (lastState .start (xs ++ ts)).mode = .code := by
  have htrace := trace_scan body
  rw [hat.split, ← List.append_assoc, trace_append] at htrace
  obtain ⟨hhead, htail⟩ := htrace
  simp only [Token.isIdentifier, Bool.or_eq_true, beq_iff_eq] at hident
  rcases hident with hword | hname
  · have hts := (trace_append.1 hhead).2
    rw [lastState_append]
    exact (hts.word_modes hat.nonempty (by rw [← hword]; exact hat.kinds)).2
  · obtain ⟨front, step, hstep⟩ := (List.eq_nil_or_concat' ts).resolve_left hat.nonempty
    have hkind : step.tokenKind? = some .name := by
      rw [← hname]
      exact hat.kinds step (by simp [hstep])
    have hat' := hhead.stepAt_of_mem (show step ∈ xs ++ ts by simp [hstep])
    have hlast : lastState .start (xs ++ ts) = step.after := by
      rw [hstep, ← List.append_assoc, lastState_append]
      rfl
    have hafter : step.after.mode = .name ∨ step.after.mode = .code := by
      obtain ⟨s, c, rest, rfl⟩ := hat'
      exact stepAt_name (cls_of_name hkind)
    rw [hlast] at htail ⊢
    rcases hafter with hopen | hcode
    · exfalso
      obtain ⟨y, ys, rfl⟩ := List.exists_cons_of_ne_nil hmore
      have hcls : y.cls = .name := by
        rw [← htail.1, stepAt_cls (by simp [hopen]), hopen]
        rfl
      apply hat.apart htokens (by simp [hname])
      simp [Step.tokenKind?, hcls, hname]
    · exact hcode

/-- An `ALTER TABLE` statement in the scan of its body: the steps of its head and of its clauses. -/
structure AlterAt (body : Text) (alter : AlterTable) (a t : Token) (before : List Token)
    (part : Token) (after : List Token) (start : Nat) (hs ys : List Step) : Prop where
  alterWord : a.isKeyword "ALTER" = true
  tableWord : t.isKeyword "TABLE" = true
  tokens : tokenize body = a :: t :: (before ++ part :: after)
  name : NameEnd (fun found => qualifiedName? (skipOnly (skipIfExists found)))
    (before ++ part :: after) before part after start
  split : scan body = hs ++ ys
  place : (stepsText hs).length = part.stop
  upTo : tokensFrom 0 hs = a :: t :: (before ++ [part])
  nonempty : hs ≠ []
  last : ∀ step, hs.getLast? = some step → step.isSignificant = true
  state : lastState .start hs = .start
  head : alter.head = stepsText hs
  table : alter.table = (stepsText hs).drop start
  clauses : alter.clauses = (commaParts (stepsText ys)).map Clause.ofText

theorem isIdentifier_ne_symbol {t : Token} {c : Char} (h : t.isIdentifier = true) :
    t.lexeme ≠ ⟨.symbol, [c]⟩ := by
  intro hlex
  have hkind : t.kind = .symbol := congrArg Lexeme.kind hlex
  simp [Token.isIdentifier, hkind] at h

theorem isSymbol_ne_symbol {t : Token} {c d : Char} (h : t.isSymbol d = true) (hne : d ≠ c) :
    t.lexeme ≠ ⟨.symbol, [c]⟩ := by
  intro hlex
  have htext : t.text = [c] := congrArg Lexeme.text hlex
  simp only [Token.isSymbol, htext, List.head?_cons, Bool.and_eq_true, beq_iff_eq,
    Option.some.injEq] at h
  exact hne h.2.symm

/-- Names and the dots between them stand at one depth of parentheses. -/
theorem Trace.depth_of_names {s : ScanState} {steps : List Step} {rest : Text}
    (h : Trace s steps rest)
    (hnames : ∀ t ∈ tokensFrom 0 steps, t.isIdentifier = true ∨ t.isSymbol '.' = true) :
    (lastState s steps).depth = s.depth := by
  apply h.depth_eq
  rw [← tokensFrom_lexemes 0]
  intro lexeme hlexeme
  obtain ⟨t, ht, rfl⟩ := List.mem_map.1 hlexeme
  rcases hnames t ht with hident | hdot
  · exact ⟨isIdentifier_ne_symbol hident, isIdentifier_ne_symbol hident⟩
  · exact ⟨isSymbol_ne_symbol hdot (by decide), isSymbol_ne_symbol hdot (by decide)⟩

/-- The steps up to the end of a table's name; if any follow, they start like those of a text. -/
structure HeadAt (body : Text) (a t : Token) (before : List Token) (part : Token)
    (after : List Token) (hs ys : List Step) : Prop where
  split : scan body = hs ++ ys
  place : (stepsText hs).length = part.stop
  upTo : tokensFrom 0 hs = a :: t :: (before ++ [part])
  later : tokensFrom part.stop ys = after
  nonempty : hs ≠ []
  last : ∀ step, hs.getLast? = some step → step.isSignificant = true
  state : ys ≠ [] → lastState .start hs = .start

theorem headAt_of_name {body : Text} {a t part : Token} {before after : List Token} {start : Nat}
    {find : List Token → Option (Nat × Nat)}
    (htokens : tokenize body = a :: t :: (before ++ part :: after))
    (ha : a.isKeyword "ALTER" = true) (ht : t.isKeyword "TABLE" = true)
    (hname : NameEnd find (before ++ part :: after) before part after start) :
    ∃ hs ys, HeadAt body a t before part after hs ys := by
  have hplaced : tokenize body = (a :: t :: before) ++ part :: after := htokens
  obtain ⟨xs, ts, ys, hat⟩ := tokenAt_of_tokensFrom hplaced
  have hupTo := (hat.upTo hplaced).2
  have hsplit : scan body = (xs ++ ts) ++ ys := by
    rw [hat.split, List.append_assoc]
  have hplace : (stepsText (xs ++ ts)).length = part.stop := by
    rw [← hat.length, Nat.zero_add]
  refine ⟨xs ++ ts, ys, hsplit, hplace, hupTo, hat.later, by simp [hat.nonempty], ?_, ?_⟩
  · intro step hstep
    rw [List.getLast?_append_of_ne_nil _ hat.nonempty] at hstep
    have hkind := hat.kinds step (List.mem_of_getLast? hstep)
    cases hsig : step.isSignificant with
    | true => rfl
    | false =>
        rw [(tokenKind?_eq_none_iff step).2 hsig] at hkind
        cases hkind
  · intro hmore
    refine ScanState.eq_start (hat.identifier_mode hplaced hname.ident hmore) ?_
    have htrace := trace_scan body
    rw [hsplit, trace_append] at htrace
    apply htrace.1.depth_of_names
    rw [hupTo]
    intro u hu
    simp only [List.cons_append, List.mem_cons, List.mem_append, List.not_mem_nil, or_false] at hu
    rcases hu with rfl | rfl | hu | rfl
    · exact .inl (isIdentifier_of_isKeyword ha)
    · exact .inl (isIdentifier_of_isKeyword ht)
    · exact hname.names u hu
    · exact .inl hname.ident

theorem alterAt_of_ofBody {body : Text} {alter : AlterTable}
    (h : StatementKind.ofBody body = .alterTable alter) :
    ∃ a t before part after start hs ys,
      AlterAt body alter a t before part after start hs ys := by
  obtain ⟨a, t, tokens, htokens, ha, ht, hof⟩ := ofBody_alterTable h
  unfold AlterTable.ofTokens? at hof
  split at hof
  · cases hof
  rename_i start stop hfound
  obtain ⟨before, part, hname, hstop⟩ := nameEnd_of_alterTable hfound
  generalize afterName tokens = after at hname
  obtain rfl := hname.split
  obtain ⟨hs, ys, hhead⟩ := headAt_of_name htokens ha ht hname
  obtain ⟨htake, hdrop⟩ := take_stepsText hhead.split (hhead.place.trans hstop)
  dsimp only at hof
  split at hof
  · cases hof
  rename_i hsome
  rw [hdrop] at hof hsome
  rw [htake] at hof
  injection hof with hof
  have hmore : ys ≠ [] := by
    rintro rfl
    exact hsome rfl
  exact ⟨a, t, before, part, after, start, hs, ys, ha, ht, htokens, hname, hhead.split,
    hhead.place, hhead.upTo, hhead.nonempty, hhead.last, hhead.state hmore, by rw [← hof],
    by rw [← hof], by rw [← hof]⟩

/-! ## Other clauses behind the same head -/

namespace AlterAt

variable {body : Text} {alter : AlterTable} {a t : Token} {before : List Token} {part : Token}
  {after : List Token} {start : Nat} {hs ys : List Step}

theorem traces (h : AlterAt body alter a t before part after start hs ys) :
    Trace .start hs (stepsText ys) ∧ Trace .start ys [] := by
  have htrace := trace_scan body
  rw [h.split, trace_append, h.state, List.append_nil] at htrace
  exact htrace

theorem scan_append (h : AlterAt body alter a t before part after start hs ys) {rest : Text}
    (hrest : Boundary rest) : scan (stepsText hs ++ rest) = hs ++ scan rest := by
  have hscan := (h.traces.1.cut wellTagged_start hrest).scanFrom_eq
  rw [h.state] at hscan
  exact hscan

/-- Behind the same head, other clauses are read as the clauses of the same table. -/
theorem ofBody_again (h : AlterAt body alter a t before part after start hs ys)
    {rs : List Step} (htrace : Trace .start rs []) (hboundary : Boundary (stepsText rs))
    (hparted : Parted hs rs) (hends : EndsName (tokensFrom part.stop rs)) :
    StatementKind.ofBody (stepsText hs ++ stepsText rs) =
      if commaParts (stepsText rs) = [] then .other
      else .alterTable
        { table := alter.table, head := alter.head,
          clauses := (commaParts (stepsText rs)).map Clause.ofText } := by
  have hscan : scan (stepsText hs ++ stepsText rs) = hs ++ rs := by
    rw [h.scan_append hboundary, scan_stepsText htrace]
  have htokens : tokenize (stepsText hs ++ stepsText rs) =
      a :: t :: (before ++ part :: tokensFrom part.stop rs) := by
    rw [tokenize, hscan, tokensFrom_append hparted, h.upTo, Nat.zero_add, h.place]
    simp
  obtain ⟨htake, hdrop⟩ := take_stepsText hscan h.place
  rw [ofBody_of_alter htokens h.alterWord h.tableWord]
  simp only [AlterTable.ofTokens?, h.name.again _ hends, htake, hdrop, List.isEmpty_iff,
    List.map_eq_nil_iff, h.table, h.head]
  split <;> rfl

end AlterAt

/-! ## Clauses that can run -/

/-- Whether a clause neither drops a constraint nor adds a foreign key. -/
def ClauseKind.runs : ClauseKind → Bool
  | .dropConstraint _ => false
  | .addForeignKey _ => false
  | _ => true

theorem runs_of_survives {alter : AlterTable} {clause : Clause}
    (h : alter.survives clause = true) : clause.kind.runs = true := by
  unfold AlterTable.survives at h
  cases hk : clause.kind <;> simp_all [ClauseKind.runs]

/-- Where all clauses can run, there is nothing to find in those that cannot. -/
theorem filterMap_of_runs {α : Type} {find : Clause → Option α} {alter : AlterTable}
    (h : ∀ clause ∈ alter.clauses, clause.kind.runs = true)
    (hfind : ∀ clause, clause.kind.runs = true → find clause = none) :
    alter.clauses.filterMap find = [] := by
  rw [List.filterMap_eq_nil_iff]
  intro clause hclause
  exact hfind clause (h clause hclause)

theorem droppedNames_of_runs {alter : AlterTable}
    (h : ∀ clause ∈ alter.clauses, clause.kind.runs = true) : alter.droppedNames = [] := by
  apply filterMap_of_runs h
  intro clause hruns
  cases hk : clause.kind <;> simp_all [ClauseKind.runs]

theorem survives_of_runs {alter : AlterTable}
    (h : ∀ clause ∈ alter.clauses, clause.kind.runs = true) {clause : Clause}
    (hclause : clause ∈ alter.clauses) : alter.survives clause = true := by
  have hruns := h clause hclause
  have hnames := droppedNames_of_runs h
  unfold AlterTable.survives
  cases hk : clause.kind <;> simp_all [ClauseKind.runs]

theorem survivors_of_runs {alter : AlterTable}
    (h : ∀ clause ∈ alter.clauses, clause.kind.runs = true) : alter.survivors = alter.clauses :=
  List.filter_eq_self.2 fun _ hclause => survives_of_runs h hclause

theorem unsupported_of_runs {alter : AlterTable}
    (h : ∀ clause ∈ alter.clauses, clause.kind.runs = true) : alter.unsupported = [] := by
  apply filterMap_of_runs h
  intro clause hruns
  cases hk : clause.kind <;> simp_all [ClauseKind.runs]

theorem foreignKeysRemoved_of_runs {alter : AlterTable}
    (h : ∀ clause ∈ alter.clauses, clause.kind.runs = true) : alter.foreignKeysRemoved = 0 := by
  have hnames : alter.foreignKeyNames = [] := by
    apply filterMap_of_runs h
    intro clause hruns
    cases hk : clause.kind <;> simp_all [ClauseKind.runs]
  have hunnamed : alter.unnamedForeignKeys = 0 := by
    unfold AlterTable.unnamedForeignKeys
    rw [List.countP_eq_zero]
    intro clause hclause hsame
    have hruns := h clause hclause
    rw [beq_iff_eq] at hsame
    simp [hsame, ClauseKind.runs] at hruns
  simp [AlterTable.foreignKeysRemoved, hnames, hunnamed]

theorem clauses_ne_nil {body : Text} {alter : AlterTable}
    (h : StatementKind.ofBody body = .alterTable alter) : alter.clauses ≠ [] := by
  obtain ⟨a, t, tokens, -, -, -, hof⟩ := ofBody_alterTable h
  unfold AlterTable.ofTokens? at hof
  split at hof
  · cases hof
  · dsimp only at hof
    split at hof
    · cases hof
    · rename_i hne
      injection hof with hof
      rw [← hof]
      simpa using hne

/-- A statement all of whose clauses can run stays as it is. -/
theorem adaptation_of_runs {body : Text} {alter : AlterTable}
    (hkind : StatementKind.ofBody body = .alterTable alter)
    (h : ∀ clause ∈ alter.clauses, clause.kind.runs = true) :
    Adaptation.ofBody body = { body := some body } := by
  have hne := clauses_ne_nil hkind
  have hbody : alter.remaining? body = some body := by
    simp [AlterTable.remaining?, survivors_of_runs h, hne]
  simp only [Adaptation.ofBody, hkind, hbody, unsupported_of_runs h, foreignKeysRemoved_of_runs h]

theorem adaptation_of_other {body : Text} (h : StatementKind.ofBody body = .other) :
    Adaptation.ofBody body = { body := some body } := by
  simp only [Adaptation.ofBody, h]

/-! ## The surviving clauses written again -/

/-- The clauses that survive, as they are written again. -/
def survivingCores (alter : AlterTable) : List Text :=
  alter.survivors.map fun clause => trimComments clause.text

/-- A statement that has lost clauses, as it is written again. -/
def rewritten (alter : AlterTable) : Text :=
  Text.trimEnd alter.head ++ [' '] ++ Text.join ",\n".toList (survivingCores alter)

/-- The steps behind the head of a statement that is written again. -/
def rewrittenSteps (alter : AlterTable) : List Step :=
  ([' '] : Text).map (codeStep 0) ++ clauseSteps (survivingCores alter)

namespace AlterAt

variable {body : Text} {alter : AlterTable} {a t : Token} {before : List Token} {part : Token}
  {after : List Token} {start : Nat} {hs ys : List Step}

theorem clauseText (h : AlterAt body alter a t before part after start hs ys)
    {clause : Clause} (hclause : clause ∈ alter.clauses) :
    clause = Clause.ofText clause.text ∧ ClauseText ys clause.text := by
  rw [h.clauses] at hclause
  obtain ⟨text, htext, rfl⟩ := List.mem_map.1 hclause
  refine ⟨rfl, ?_⟩
  have hof := clauseText_of_mem htext
  rwa [scan_stepsText h.traces.2] at hof

theorem survivor (h : AlterAt body alter a t before part after start hs ys)
    {core : Text} (hcore : core ∈ survivingCores alter) :
    ∃ clause ∈ alter.survivors, core = trimComments clause.text ∧
      clause = Clause.ofText clause.text ∧ ClauseText ys clause.text := by
  obtain ⟨clause, hclause, rfl⟩ := List.mem_map.1 hcore
  have hmem : clause ∈ alter.clauses := (List.mem_filter.1 hclause).1
  obtain ⟨hof, htext⟩ := h.clauseText hmem
  exact ⟨clause, hclause, rfl, hof, htext⟩

/-- Only the last of some clauses can end inside quotes or parentheses. -/
theorem clauses_closed (h : AlterAt body alter a t before part after start hs ys)
    {kept : List Clause} (hkept : kept.Sublist alter.clauses) :
    (kept.map fun clause => trimComments clause.text).Pairwise
      fun core _ => scanEnd core = .start := by
  have hparts := commaParts_closed (stepsText ys)
  rw [h.clauses] at hkept
  rw [List.pairwise_map]
  exact (List.pairwise_map.2 hparts).sublist hkept

theorem cores_closed (h : AlterAt body alter a t before part after start hs ys) :
    (survivingCores alter).Pairwise fun core _ => scanEnd core = .start :=
  h.clauses_closed List.filter_sublist

theorem closedCores (h : AlterAt body alter a t before part after start hs ys)
    (hend : scanEnd body = .start) (hlines : LineTidy (scan body)) :
    ∀ core ∈ survivingCores alter, ClosedCore core := by
  intro core hcore
  obtain ⟨clause, hclause, rfl, -, htext⟩ := h.survivor hcore
  have htailEnd : scanEnd (stepsText ys) = .start := by
    rw [scanEnd_eq_lastState, h.split, lastState_append, h.state] at hend
    rw [scanEnd_eq_lastState, scan_stepsText h.traces.2, hend]
  have hends : scanEnd (trimComments clause.text) = .start := by
    have hmem : clause ∈ alter.clauses := (List.mem_filter.1 hclause).1
    rw [h.clauses] at hmem
    obtain ⟨text, hpart, rfl⟩ := List.mem_map.1 hmem
    exact clauseEnd_of_mem htailEnd hpart
  rw [h.split] at hlines
  exact htext.closedCore hends (List.IsChain.right_of_append hlines)

theorem trimEnd_head (h : AlterAt body alter a t before part after start hs ys) :
    Text.trimEnd alter.head = stepsText hs := by
  rw [h.head]
  apply Text.trimEnd_eq_self
  intro c hc
  exact h.traces.1.solid_end (by rw [h.state]; rfl) h.last hc

theorem rewritten_eq (h : AlterAt body alter a t before part after start hs ys) :
    rewritten alter =
      stepsText hs ++ ([' '] ++ Text.join ",\n".toList (survivingCores alter)) := by
  rw [rewritten, h.trimEnd_head, List.append_assoc]

theorem rewritten_chars (h : AlterAt body alter a t before part after start hs ys) :
    ∀ c ∈ rewritten alter, c ∈ body ∨ c ∈ " ,\n".toList := by
  have hbody := stepsText_scan body
  rw [h.split, stepsText_append] at hbody
  intro c hc
  rw [h.rewritten_eq] at hc
  rw [← hbody]
  rcases List.mem_append.1 hc with hc | hc
  · exact .inl (List.mem_append_left _ hc)
  · rcases List.mem_append.1 hc with hc | hc
    · exact .inr (List.mem_append_left ",\n".toList hc)
    · rcases Text.mem_join hc with hc | ⟨core, hcore, hc⟩
      · exact .inr (List.mem_cons_of_mem ' ' hc)
      · obtain ⟨clause, -, rfl, -, htext⟩ := h.survivor hcore
        refine .inl (List.mem_append_right _ ?_)
        rw [← stepsText_scan (trimComments clause.text)] at hc
        exact mem_stepsText_of_sublist htext.whole.sublist hc

theorem scan_rewritten (h : AlterAt body alter a t before part after start hs ys) :
    scan (rewritten alter) = hs ++ rewrittenSteps alter ∧
      scan ([' '] ++ Text.join ",\n".toList (survivingCores alter)) = rewrittenSteps alter := by
  have hboundary : Boundary ([' '] ++ Text.join ",\n".toList (survivingCores alter)) :=
    (boundary_cons ' ' _).2 (by decide)
  have hscan : scan ([' '] ++ Text.join ",\n".toList (survivingCores alter)) =
      rewrittenSteps alter := by
    have hspace : ∀ c ∈ ([' '] : Text), isPlain c = true := List.all_eq_true.1 (by decide)
    have hplain := scanFrom_plain 0 hspace (Text.join ",\n".toList (survivingCores alter))
    rw [rewrittenSteps, ← scan_join h.cores_closed]
    exact hplain
  refine ⟨?_, hscan⟩
  rw [h.rewritten_eq, h.scan_append hboundary, hscan]

theorem trace_rewrittenSteps (h : AlterAt body alter a t before part after start hs ys) :
    Trace .start (rewrittenSteps alter) [] := by
  rw [← h.scan_rewritten.2]
  exact trace_scan _

theorem lastState_rewrittenSteps (hcores : ∀ core ∈ survivingCores alter, ClosedCore core) :
    lastState .start (rewrittenSteps alter) = .start := by
  rw [rewrittenSteps, lastState_append]
  exact lastState_clauseSteps fun core hcore => (hcores core hcore).ends

/-- What a statement that is written again holds once the blanks at its end are trimmed. -/
structure Rewritten (alter : AlterTable) (hs rs : List Step) (parts : List (List Step)) : Prop where
  trimmed : Text.trimEnd (rewritten alter) = stepsText hs ++ stepsText rs
  comments : trimComments (rewritten alter) = stepsText hs ++ stepsText rs
  trace : Trace .start rs []
  state : lastState .start rs = .start
  first : ∀ step, rs.head? = some step → step = codeStep 0 ' '
  last : ∀ step, rs.getLast? = some step → step.isSignificant = true
  ahead : rs <+: rewrittenSteps alter
  splits : SplitsOn (Step.isTopLevel ',') rs parts
  texts : parts.map (fun part => Text.trim (stepsText part)) = survivingCores alter
  lexemes : lexemes rs = lexemes (clauseSteps (survivingCores alter))

theorem rewritten_spec (h : AlterAt body alter a t before part after start hs ys)
    (hcores : ∀ core ∈ survivingCores alter, ClosedCore core) (hne : alter.survivors ≠ []) :
    ∃ rs parts, Rewritten alter hs rs parts := by
  have hscan := h.scan_rewritten.1
  have hstate := lastState_rewrittenSteps hcores
  have htrace := h.trace_rewrittenSteps
  have hblank : ∀ c ∈ ([' '] : Text), isBlank c = true := List.all_eq_true.1 (by decide)
  have hsome : survivingCores alter ≠ [] := by simpa [survivingCores] using hne
  obtain ⟨parts, back, hread⟩ := clausesRead hblank hsome
    fun core hcore => (hcores core hcore).toClauseCore
  have hsplit : rewrittenSteps alter =
      significantPart (rewrittenSteps alter) ++ back.map (codeStep 0) := hread.split
  have hlast := lastState_significantPart htrace (by rw [hstate]; rfl)
  rw [hstate] at hlast
  have htext : rewritten alter =
      stepsText (hs ++ significantPart (rewrittenSteps alter)) ++ back := by
    rw [← stepsText_scan (rewritten alter), hscan]
    conv_lhs => rw [hsplit, ← List.append_assoc, stepsText_append, stepsText_codeSteps]
  have hkept : Trace .start (significantPart (rewrittenSteps alter)) [] := by
    rw [hsplit, trace_append] at htrace
    exact htrace.1.cut wellTagged_start boundary_nil
  have hall : Trace .start (hs ++ significantPart (rewrittenSteps alter)) [] := by
    have hwhole := trace_scan (rewritten alter)
    rw [hscan, hsplit, ← List.append_assoc, trace_append] at hwhole
    exact hwhole.1.cut wellTagged_start boundary_nil
  have hlastStep : ∀ step, (hs ++ significantPart (rewrittenSteps alter)).getLast? = some step →
      step.isSignificant = true := by
    rw [← significantPart_append h.last]
    exact fun step hstep => significantPart_last hstep
  refine ⟨significantPart (rewrittenSteps alter), parts, ?_, ?_, hkept, hlast, ?_, ?_, ?_,
    hread.splits, hread.texts, ?_⟩
  · rw [htext, Text.trimEnd_append_of_blank _ hread.blank, ← stepsText_append]
    apply Text.trimEnd_eq_self
    intro c hc
    refine hall.solid_end ?_ hlastStep hc
    rw [lastState_append, h.state, hlast]
  · change stepsText (significantPart (scan (rewritten alter))) = _
    rw [hscan, significantPart_append h.last, stepsText_append]
  · intro step hstep
    obtain ⟨tail, htail⟩ := significantPart_isPrefix (rewrittenSteps alter)
    have hhead : (rewrittenSteps alter).head? = some step := by
      rw [← htail, List.head?_append, hstep]
      rfl
    exact (Option.some.inj hhead).symm
  · exact fun step hstep => significantPart_last hstep
  · exact significantPart_isPrefix _
  · rw [lexemes_significantPart, rewrittenSteps, lexemes_inert_append (skipped_blank hblank).inert]

theorem Rewritten.parted {rs : List Step} {parts : List (List Step)}
    (hr : Rewritten alter hs rs parts) :
    Boundary (stepsText rs) ∧ Parted hs rs := by
  constructor
  · cases rs with
    | nil => exact boundary_nil
    | cons step later =>
        rw [hr.first step rfl]
        exact (boundary_cons ' ' _).2 (by decide)
  · apply parted_of_right
    intro y hy
    rw [hr.first y hy]
    decide

theorem scan_trimmed (h : AlterAt body alter a t before part after start hs ys) {rs : List Step}
    {parts : List (List Step)} (hr : Rewritten alter hs rs parts) :
    scan (Text.trimEnd (rewritten alter)) = hs ++ rs := by
  rw [hr.trimmed, h.scan_append hr.parted.1, scan_stepsText hr.trace]

/-- A statement that is written again has the semicolons of the clauses that survive. -/
theorem rewritten_separators (h : AlterAt body alter a t before part after start hs ys)
    (hbody : ∀ step ∈ scan body, step.isTopLevel ';' = false) :
    ∀ step ∈ scan (rewritten alter), step.isTopLevel ';' = false := by
  rw [h.split] at hbody
  rw [h.scan_rewritten.1]
  intro step hstep
  rcases List.mem_append.1 hstep with hstep | hstep
  · exact hbody step (List.mem_append_left _ hstep)
  · rcases List.mem_append.1 hstep with hstep | hstep
    · rw [List.mem_singleton.1 hstep]
      decide
    · rcases mem_clauseSteps hstep with hcomma | ⟨core, hcore, hin⟩
      · have hnone : ∀ step ∈ commaSteps, step.isTopLevel ';' = false := by decide
        exact hnone step hcomma
      · obtain ⟨clause, -, rfl, -, htext⟩ := h.survivor hcore
        exact hbody step (List.mem_append_right _ (htext.whole.subset hin))

/-- A statement that is written again starts with the same tokens. -/
theorem rewritten_lexemes (h : AlterAt body alter a t before part after start hs ys) :
    lexemes (scan (rewritten alter)) =
      a.lexeme :: t.lexeme :: ((before ++ [part]).map Token.lexeme ++
        lexemes (rewrittenSteps alter)) := by
  have hparted : Parted hs (rewrittenSteps alter) := by
    apply parted_of_right
    rintro y ⟨⟩
    decide
  rw [h.scan_rewritten.1, lexemes_append hparted, ← tokensFrom_lexemes 0 hs, h.upTo]
  rfl

theorem rewritten_marker (h : AlterAt body alter a t before part after start hs ys) :
    Marker.ofLexemes? (lexemes (scan (rewritten alter))) = none := by
  rw [h.rewritten_lexemes]
  refine marker_none_of_keyword ?_ (show some "ALTER".toList ∉ _ by decide)
  rw [isKeyword_token]
  exact h.alterWord

/-- What is left of a statement that loses clauses is closed. -/
theorem rewritten_closed (h : AlterAt body alter a t before part after start hs ys)
    (hcores : ∀ core ∈ survivingCores alter, ClosedCore core)
    (hbody : ∀ step ∈ scan body, step.isTopLevel ';' = false) {rs : List Step}
    {parts : List (List Step)} (hr : Rewritten alter hs rs parts) :
    ClosedBody (rewritten alter) where
  ends := by
    rw [scanEnd_eq_lastState, h.scan_rewritten.1, lastState_append, h.state,
      lastState_rewrittenSteps hcores]
  separators := h.rewritten_separators hbody
  trimmed := by rw [hr.trimmed, hr.comments]
  tokens := by
    rw [h.rewritten_lexemes]
    simp
  marker := h.rewritten_marker

theorem rewritten_tidy (h : AlterAt body alter a t before part after start hs ys)
    (hcores : ∀ core ∈ survivingCores alter, ClosedCore core) (htidy : TidyBody body)
    {rs : List Step} {parts : List (List Step)} (hr : Rewritten alter hs rs parts) :
    TidyBody (Text.trimEnd (rewritten alter)) := by
  have hscan := h.scan_trimmed hr
  refine htidy.of_head ?_ ?_ ?_ ?_ ?_
  · rw [hscan, h.split, List.head?_append_of_ne_nil _ h.nonempty,
      List.head?_append_of_ne_nil _ h.nonempty]
  · have hlines := htidy.lines
    rw [h.split] at hlines
    obtain ⟨hclauses, hfirst⟩ := lineTidy_clauseSteps hcores
    have hrest : LineTidy (rewrittenSteps alter) := by
      refine List.IsChain.append (List.isChain_singleton _) hclauses ?_
      rintro x - y hy ⟨-, hbreak⟩
      rw [hfirst y hy] at hbreak
      cases hbreak
    have hkept : LineTidy rs := List.IsChain.prefix hrest hr.ahead
    rw [hscan]
    refine List.IsChain.append (List.IsChain.left_of_append hlines) hkept ?_
    rintro x - y hy ⟨-, hbreak⟩
    rw [hr.first y hy] at hbreak
    cases hbreak
  · rw [hscan]
    intro step hstep
    by_cases hnil : rs = []
    · rw [hnil, List.append_nil] at hstep
      exact h.last step hstep
    · rw [List.getLast?_append_of_ne_nil _ hnil] at hstep
      exact hr.last step hstep
  · rw [scanEnd_eq_lastState, hscan, lastState_append, h.state, hr.state]
    rfl
  · rw [hscan, lexemes_append hr.parted.2, ← tokensFrom_lexemes 0 hs, h.upTo]
    simp

/-- Clauses that do not start with a dot or `EXISTS` end the name before them. -/
theorem endsName_clauseSteps {kept : List Clause} {rs : List Step}
    (hrs : lexemes rs = lexemes (clauseSteps (kept.map fun clause => trimComments clause.text)))
    (offset : Nat) (hends : ∀ clause ∈ kept, EndsName (tokenize clause.text)) :
    EndsName (tokensFrom offset rs) := by
  have halike : ∀ {found : List Lexeme}, lexemes rs = found →
      Alike (found.map Lexeme.token) (tokensFrom offset rs) := by
    rintro found rfl
    rw [← tokensFrom_lexemes offset rs]
    exact alike_token _
  cases kept with
  | nil => exact endsName_congr (halike hrs) ⟨rfl, rfl⟩
  | cons clause others =>
      have hclause := hends clause List.mem_cons_self
      obtain ⟨later, hlater, hcomma⟩ := lexemes_clauseSteps (trimComments clause.text)
        (others.map fun clause => trimComments clause.text)
      have hlex : lexemes rs = lexemes (scan clause.text) ++ later := by
        rw [hrs, List.map_cons, hlater, lexemes_trimComments]
      refine endsName_congr (halike hlex) ?_
      rw [← tokenize_lexemes, List.map_append]
      have hown : EndsName (((tokenize clause.text).map Token.lexeme).map Lexeme.token) :=
        endsName_congr (alike_token _).symm hclause
      cases htokens : tokenize clause.text with
      | cons u rest =>
          rw [htokens] at hown
          exact hown
      | nil =>
          cases later with
          | nil => exact ⟨rfl, rfl⟩
          | cons lexeme later =>
              rw [hcomma lexeme rfl]
              exact endsName_of_symbol rfl (by decide)

theorem ofText_trimComments (text : Text) :
    Clause.ofText (trimComments text) = { Clause.ofText text with text := trimComments text } := by
  have hsame : Alike (tokenize (trimComments text)) (tokenize text) := by
    unfold Alike
    rw [tokenize_lexemes, tokenize_lexemes, lexemes_trimComments]
  rw [Clause.ofText, clauseOfTokens_congr hsame]
  rfl

/-- Reading a statement that has lost clauses finds nothing more to take out. -/
theorem rewritten_again (h : AlterAt body alter a t before part after start hs ys)
    {rs : List Step} {parts : List (List Step)} (hr : Rewritten alter hs rs parts)
    (hends : ∀ clause ∈ alter.survivors, EndsName (tokenize clause.text)) :
    Adaptation.ofBody (Text.trimEnd (rewritten alter)) =
      { body := some (Text.trimEnd (rewritten alter)) } := by
  have hagain := h.ofBody_again hr.trace hr.parted.1 hr.parted.2
    (endsName_clauseSteps hr.lexemes part.stop hends)
  rw [← hr.trimmed] at hagain
  split at hagain
  · exact adaptation_of_other hagain
  · refine adaptation_of_runs hagain ?_
    have hparts : commaParts (stepsText rs) = (survivingCores alter).filter (!·.isEmpty) := by
      have hscan : scan (stepsText rs) = rs := scan_stepsText hr.trace
      rw [commaParts_eq, pieceSteps, hscan, hr.splits.splitOnP_eq, ← hr.texts]
    intro clause hclause
    rw [hparts] at hclause
    obtain ⟨core, hcore, rfl⟩ := List.mem_map.1 hclause
    obtain ⟨survivor, hsurvivor, rfl, hof, -⟩ := h.survivor (List.mem_filter.1 hcore).1
    rw [ofText_trimComments, ← hof]
    exact runs_of_survives (List.mem_filter.1 hsurvivor).2

end AlterAt

end AuroraMigration
