import AuroraMigration.Proofs.Closed

/-!
# Indexes built asynchronously

An index is converted by a change to the text of its statement. On the steps of
the scan the change is as small as it looks: the word `ASYNC` stands where
`CONCURRENTLY` stood, or behind a blank after `INDEX`, and all other steps are
the same.
-/

namespace AuroraMigration

/-! ## Keywords at the start -/

theorem startsWith_cons_iff {keyword : String} {keywords : List String} {tokens : List Token} :
    startsWith (keyword :: keywords) tokens = true ↔
      ∃ t rest, tokens = t :: rest ∧ t.isKeyword keyword = true ∧
        startsWith keywords rest = true := by
  cases tokens with
  | nil => simp [startsWith]
  | cons t rest =>
      simp only [startsWith, Bool.and_eq_true, List.cons.injEq]
      constructor
      · rintro ⟨ht, hrest⟩
        exact ⟨t, rest, ⟨rfl, rfl⟩, ht, hrest⟩
      · rintro ⟨_, _, ⟨rfl, rfl⟩, ht, hrest⟩
        exact ⟨ht, hrest⟩

theorem isKeyword_iff {keyword : String} {t : Token} :
    t.isKeyword keyword = true ↔ t.kind = .word ∧ Text.asciiUpper t.text = keyword.toList := by
  simp [Token.isKeyword]

theorem isKeyword_false {a b : String} {t : Token} (h : t.isKeyword a = true)
    (hab : a.toList ≠ b.toList) : t.isKeyword b = false := by
  obtain ⟨hkind, htext⟩ := isKeyword_iff.1 h
  simp [Token.isKeyword, htext, hab]

/-- Number of tokens up to the `INDEX` of a `CREATE [UNIQUE] INDEX`. -/
def indexEnd? (tokens : List Token) : Option Nat :=
  if startsWith ["CREATE", "INDEX"] tokens then some 2
  else if startsWith ["CREATE", "UNIQUE", "INDEX"] tokens then some 3
  else none

theorem indexEnd?_congr {a b : List Token} (h : Alike a b) : indexEnd? a = indexEnd? b := by
  simp only [indexEnd?, startsWith_congr h]

/-- The keywords of a statement that builds an index. -/
inductive IndexHead : List Token → Prop
  | plain {create index : Token} : create.isKeyword "CREATE" = true →
      index.isKeyword "INDEX" = true → IndexHead [create, index]
  | unique {create unique index : Token} : create.isKeyword "CREATE" = true →
      unique.isKeyword "UNIQUE" = true → index.isKeyword "INDEX" = true →
      IndexHead [create, unique, index]

theorem indexHead_of_indexEnd? {tokens : List Token} {n : Nat} (h : indexEnd? tokens = some n) :
    ∃ head rest, tokens = head ++ rest ∧ IndexHead head ∧ head.length = n := by
  unfold indexEnd? at h
  split at h
  · rename_i hstart
    obtain ⟨create, rest, rfl, hcreate, hrest⟩ := startsWith_cons_iff.1 hstart
    obtain ⟨index, rest, rfl, hindex, -⟩ := startsWith_cons_iff.1 hrest
    exact ⟨[create, index], rest, rfl, .plain hcreate hindex, Option.some.inj h⟩
  · split at h
    · rename_i hstart
      obtain ⟨create, rest, rfl, hcreate, hrest⟩ := startsWith_cons_iff.1 hstart
      obtain ⟨unique, rest, rfl, hunique, hrest⟩ := startsWith_cons_iff.1 hrest
      obtain ⟨index, rest, rfl, hindex, -⟩ := startsWith_cons_iff.1 hrest
      exact ⟨[create, unique, index], rest, rfl, .unique hcreate hunique hindex, Option.some.inj h⟩
    · cases h

theorem IndexHead.indexEnd? {head : List Token} (h : IndexHead head) (rest : List Token) :
    indexEnd? (head ++ rest) = some head.length := by
  cases h with
  | plain hcreate hindex => simp [AuroraMigration.indexEnd?, startsWith, hcreate, hindex]
  | unique hcreate hunique hindex =>
      have hother := isKeyword_false (b := "INDEX") hunique (by decide)
      simp [AuroraMigration.indexEnd?, startsWith, hcreate, hunique, hindex, hother]

theorem IndexHead.words {head : List Token} (h : IndexHead head) : ∀ t ∈ head, t.kind = .word := by
  have hword : ∀ {keyword : String} {t : Token}, t.isKeyword keyword = true → t.kind = .word :=
    fun h => (isKeyword_iff.1 h).1
  cases h with
  | plain hcreate hindex => simp [hword hcreate, hword hindex]
  | unique hcreate hunique hindex => simp [hword hcreate, hword hunique, hword hindex]

/-- The first `INDEX` is the last of these keywords. -/
theorem IndexHead.split {head : List Token} (h : IndexHead head) :
    ∃ before index, head = before ++ [index] ∧ index.isKeyword "INDEX" = true ∧
      ∀ t ∈ before, t.isKeyword "INDEX" = false := by
  cases h with
  | @plain create index hcreate hindex =>
      have hother := isKeyword_false (b := "INDEX") hcreate (by decide)
      exact ⟨[create], index, rfl, hindex, by simpa using hother⟩
  | @unique create unique index hcreate hunique hindex =>
      have hother := isKeyword_false (b := "INDEX") hcreate (by decide)
      have hother' := isKeyword_false (b := "INDEX") hunique (by decide)
      exact ⟨[create, unique], index, rfl, hindex, by simp [hother, hother']⟩

/-- The kind of a body that starts with the keywords for an index; a third one is `UNIQUE`. -/
theorem ofBody_indexEnd {body : Text} {n : Nat} (h : indexEnd? (tokenize body) = some n) :
    StatementKind.ofBody body =
      .createIndex (n == 3) (startsWith ["ASYNC"] ((tokenize body).drop n)) := by
  obtain ⟨head, rest, htokens, hhead, rfl⟩ := indexHead_of_indexEnd? h
  simp only [StatementKind.ofBody, htokens, List.drop_left]
  cases hhead with
  | plain hcreate hindex =>
      have hother := isKeyword_false (b := "UNIQUE") hindex (by decide)
      simp [StatementKind.ofCreated, startsWith, hcreate, hindex, hother]
  | unique hcreate hunique hindex =>
      simp [StatementKind.ofCreated, startsWith, hcreate, hunique, hindex]

/-- A body builds an index exactly if it starts with the keywords for that. -/
theorem ofBody_of_indexEnd? {body : Text} {n : Nat} (h : indexEnd? (tokenize body) = some n) :
    ∃ unique, StatementKind.ofBody body =
      .createIndex unique (startsWith ["ASYNC"] ((tokenize body).drop n)) :=
  ⟨_, ofBody_indexEnd h⟩

theorem indexEnd?_of_ofBody {body : Text} {unique async : Bool}
    (h : StatementKind.ofBody body = .createIndex unique async) :
    ∃ n, indexEnd? (tokenize body) = some n ∧
      startsWith ["ASYNC"] ((tokenize body).drop n) = async := by
  have hend : ∃ n, indexEnd? (tokenize body) = some n := by
    simp only [StatementKind.ofBody] at h
    split at h
    · rename_i hcreate
      obtain ⟨create, rest, htokens, hcreate, -⟩ := startsWith_cons_iff.1 hcreate
      rw [htokens] at h ⊢
      simp only [List.drop_succ_cons, List.drop_zero, StatementKind.ofCreated] at h
      split at h
      · split at h
        · rename_i hunique
          have hthree : startsWith ["CREATE", "UNIQUE", "INDEX"] (create :: rest) = true :=
            startsWith_cons_iff.2 ⟨create, rest, rfl, hcreate, hunique⟩
          unfold indexEnd?
          rw [if_pos hthree]
          split
          · exact ⟨2, rfl⟩
          · exact ⟨3, rfl⟩
        · cases h
      · split at h
        · rename_i hindex
          have htwo : startsWith ["CREATE", "INDEX"] (create :: rest) = true :=
            startsWith_cons_iff.2 ⟨create, rest, rfl, hcreate, hindex⟩
          exact ⟨2, if_pos htwo⟩
        · split at h <;> cases h
    · split at h
      · split at h <;> cases h
      · split at h <;> cases h
  obtain ⟨n, hn⟩ := hend
  obtain ⟨unique', hbody⟩ := ofBody_of_indexEnd? hn
  rw [hbody] at h
  exact ⟨n, hn, by injection h⟩

/-! ## The word in its place -/

/-- The word `ASYNC`. -/
def asyncWord : Lexeme :=
  ⟨.word, "ASYNC".toList⟩

/-- Lexemes after `INDEX` with the word `ASYNC` in front, in place of `CONCURRENTLY` if that stands
there. -/
def withAsync : List Lexeme → List Lexeme
  | [] => [asyncWord]
  | next :: rest =>
      if next.token.isKeyword "ASYNC" then next :: rest
      else if next.token.isKeyword "CONCURRENTLY" then asyncWord :: rest
      else asyncWord :: next :: rest

/-- Lexemes of a statement; those that build an index with the word `ASYNC` after `INDEX`. -/
def asyncLexemes (found : List Lexeme) : List Lexeme :=
  match indexEnd? (found.map Lexeme.token) with
  | some n => found.take n ++ withAsync (found.drop n)
  | none => found

/-- The steps `xs`, up to which a body is kept, the steps `zs` that `word` takes the place of, and
the steps `ys` behind them. -/
structure AsyncAt (body : Text) (n : Nat) (xs zs ys : List Step) (word : Text) : Prop where
  split : scan body = xs ++ (zs ++ ys)
  spelling : word = " ASYNC".toList ∨ word = "ASYNC".toList
  state : lastState .start xs = .start
  resumes : lastState .start zs = .start
  trace : Trace .start xs (word ++ stepsText ys)
  joint : Parted xs (word.map (codeStep 0))
  next : ys.head?.bind Step.tokenKind? ≠ some .word
  head : lexemes xs = (lexemes (scan body)).take n
  tail : withAsync ((lexemes (scan body)).drop n) = asyncWord :: lexemes ys

theorem code_of_word {step : Step} (h : step.tokenKind? = some .word) : step.cls = .code := by
  unfold Step.tokenKind? at h
  split at h <;> first | assumption | cases h

theorem Trace.before_eq {s : ScanState} {step : Step} {later : List Step} {rest : Text}
    (h : Trace s (step :: later) rest) : step.before = s := by
  rw [← h.1, stepAt_before]

/-- Words are read in code. -/
theorem Trace.word_modes {s : ScanState} {ts : List Step} {rest : Text} (h : Trace s ts rest)
    (hne : ts ≠ []) (hword : ∀ step ∈ ts, step.tokenKind? = some .word) :
    s.mode = .code ∧ (lastState s ts).mode = .code := by
  have hcode : ∀ step ∈ ts, step.before.mode = .code ∧ step.after.mode = .code := by
    intro step hstep
    have hcls := code_of_word (hword step hstep)
    obtain ⟨hbefore, -, hafter⟩ := (h.shape step hstep).of_code hcls
    exact ⟨hbefore, hafter⟩
  constructor
  · cases ts with
    | nil => exact absurd rfl hne
    | cons step later =>
        rw [← h.before_eq]
        exact (hcode step List.mem_cons_self).1
  · obtain ⟨before, step, rfl⟩ := (List.eq_nil_or_concat' ts).resolve_left hne
    rw [lastState_append]
    exact (hcode step (by simp)).2

theorem Trace.depth_of_words {s : ScanState} {steps : List Step} {rest : Text}
    (h : Trace s steps rest) (hwords : ∀ lexeme ∈ lexemes steps, lexeme.kind = .word) :
    (lastState s steps).depth = s.depth := by
  apply h.depth_eq
  intro lexeme hlexeme
  have hkind := hwords lexeme hlexeme
  constructor
  · rintro rfl
    cases hkind
  · rintro rfl
    cases hkind

theorem ScanState.eq_start {s : ScanState} (hmode : s.mode = .code) (hdepth : s.depth = 0) :
    s = .start := by
  cases s
  simp_all [ScanState.start]

theorem take_stepsText {sql : Text} {xs ys : List Step} (h : scan sql = xs ++ ys) {n : Nat}
    (hn : (stepsText xs).length = n) : sql.take n = stepsText xs ∧ sql.drop n = stepsText ys := by
  have htext := stepsText_scan sql
  rw [h, stepsText_append] at htext
  rw [← htext, ← hn]
  simp

/-- The steps of an index's keywords, up to `INDEX` itself. -/
theorem indexToken_spec {body : Text} {n : Nat} (h : indexEnd? (tokenize body) = some n) :
    ∃ index rest xs ys, (tokenize body).drop n = rest ∧
      (tokenize body).dropWhile (!Token.isKeyword "INDEX" ·) = index :: rest ∧
      scan body = xs ++ ys ∧ (stepsText xs).length = index.stop ∧
      lexemes xs = (lexemes (scan body)).take n ∧ tokensFrom index.stop ys = rest ∧
      ys.head?.bind Step.tokenKind? ≠ some .word ∧ lastState .start xs = .start := by
  obtain ⟨head, rest, htokens, hhead, rfl⟩ := indexHead_of_indexEnd? h
  obtain ⟨before, index, hsplit, hindex, hbefore⟩ := hhead.split
  have hword : index.kind = .word := (isKeyword_iff.1 hindex).1
  have hplaced : tokensFrom 0 (scan body) = before ++ index :: rest := by
    rw [List.append_cons, ← hsplit]
    exact htokens
  obtain ⟨xs, ts, ys, hat⟩ := tokenAt_of_tokensFrom hplaced
  have htrace := trace_scan body
  rw [hat.split, ← List.append_assoc, trace_append] at htrace
  have hkeywords : lexemes (xs ++ ts) = head.map Token.lexeme := by
    rw [← tokensFrom_lexemes 0, (hat.upTo hplaced).2, hsplit]
  refine ⟨index, rest, xs ++ ts, ys, ?_, ?_, ?_, ?_, ?_, hat.later, ?_, ?_⟩
  · rw [htokens, List.drop_left]
  · rw [htokens, hsplit, List.append_assoc, List.singleton_append,
      List.dropWhile_append_of_pos (by simpa using hbefore), List.dropWhile_cons_of_neg]
    simp [hindex]
  · rw [hat.split, List.append_assoc]
  · rw [← hat.length, Nat.zero_add]
  · rw [hkeywords, ← tokenize_lexemes, htokens, List.map_append, ← List.length_map Token.lexeme,
      List.take_left]
  · rw [← hword]
    exact hat.apart hplaced (by simp [hword])
  · apply ScanState.eq_start
    · have htail := (trace_append.1 htrace.1).2
      rw [lastState_append]
      refine (htail.word_modes hat.nonempty ?_).2
      rw [← hword]
      exact hat.kinds
    · apply htrace.1.depth_of_words
      rw [hkeywords]
      intro lexeme hlexeme
      obtain ⟨t, ht, rfl⟩ := List.mem_map.1 hlexeme
      exact hhead.words t ht

/-- A word that is apart from what stands before it. Between them is a blank or a comment. -/
theorem nextWord_spec {offset : Nat} {ys : List Step} {next : Token} {after : List Token}
    (htrace : Trace .start ys []) (htokens : tokensFrom offset ys = next :: after)
    (hkind : next.kind = .word) (hapart : ys.head?.bind Step.tokenKind? ≠ some .word) :
    ∃ gap ts later, TokenAt offset ys [] next after gap ts later ∧ gap ≠ [] ∧
      (∀ step ∈ gap, step.isSignificant = false) ∧ lastState .start gap = .start ∧
      lastState .start ts = .start := by
  obtain ⟨gap, ts, later, hat⟩ := tokenAt_of_tokensFrom (show _ = [] ++ next :: after from htokens)
  rw [hat.split] at htrace hapart
  obtain ⟨hgap, hlater⟩ := trace_append.1 htrace
  have hinert : ∀ step ∈ gap, step.isSignificant = false := by
    rw [← lexemes_eq_nil_iff, ← tokensFrom_lexemes offset, hat.earlier]
    rfl
  have hwords : ∀ step ∈ ts, step.tokenKind? = some .word := by
    rw [← hkind]
    exact hat.kinds
  have hmodes := (trace_append.1 hlater).1.word_modes hat.nonempty hwords
  have hstate : lastState .start gap = .start :=
    ScanState.eq_start hmodes.1 (hgap.inert hinert).1
  refine ⟨gap, ts, later, hat, ?_, hinert, hstate, ?_⟩
  · rintro rfl
    cases hts : ts with
    | nil => exact hat.nonempty hts
    | cons t ts' =>
        rw [hts] at hapart hwords
        exact hapart (hwords t List.mem_cons_self)
  · rw [hstate] at hmodes
    refine ScanState.eq_start hmodes.2 ?_
    rw [← List.append_assoc] at htrace
    have hupTo := (hat.upTo htokens).2
    have hdepth := (trace_append.1 htrace).1.depth_of_words (by
      rw [← tokensFrom_lexemes offset, hupTo]
      simpa using hkind)
    rwa [lastState_append, hstate] at hdepth

theorem withAsync_of_concurrently {next : Token} (h : next.isKeyword "CONCURRENTLY" = true)
    (rest : List Lexeme) : withAsync (next.lexeme :: rest) = asyncWord :: rest := by
  have hother := isKeyword_false (b := "ASYNC") h (by decide)
  rw [withAsync, isKeyword_token, isKeyword_token, hother, h]
  simp

theorem withAsync_of_other {next : Token} (hasync : next.isKeyword "ASYNC" = false)
    (h : next.isKeyword "CONCURRENTLY" = false) (rest : List Lexeme) :
    withAsync (next.lexeme :: rest) = asyncWord :: next.lexeme :: rest := by
  rw [withAsync, isKeyword_token, isKeyword_token, hasync, h]
  simp

theorem asyncIndex?_replace {body : Text} {n : Nat} (h : indexEnd? (tokenize body) = some n)
    {next : Token} {after : List Token} (hrest : (tokenize body).drop n = next :: after)
    (hnext : next.isKeyword "CONCURRENTLY" = true) :
    ∃ xs zs ys, AsyncAt body n xs zs ys "ASYNC".toList ∧
      asyncIndex? body = some (stepsText xs ++ ("ASYNC".toList ++ stepsText ys)) := by
  obtain ⟨index, rest, xs, ys, hdrop, hindex, hsplit, hstop, hhead, htokens, hword, hstart⟩ :=
    indexToken_spec h
  rw [hrest] at hdrop
  subst hdrop
  have hkind : next.kind = .word := (isKeyword_iff.1 hnext).1
  have htrace := trace_scan body
  rw [hsplit, trace_append, hstart] at htrace
  obtain ⟨hkept, htail⟩ := htrace
  obtain ⟨gap, ts, later, hat, hgap, hinert, hgapState, hresumes⟩ :=
    nextWord_spec htail htokens hkind hword
  obtain ⟨gap', z, hz⟩ := (List.eq_nil_or_concat' gap).resolve_left hgap
  have hcut : scan body = (xs ++ gap) ++ (ts ++ later) := by
    rw [hsplit, hat.split, List.append_assoc]
  have hstate : lastState .start (xs ++ gap) = .start := by
    rw [lastState_append, hstart, hgapState]
  refine ⟨xs ++ gap, ts, later, ⟨hcut, .inr rfl, hstate, hresumes, ?_, ?_, ?_, ?_, ?_⟩, ?_⟩
  · have hall := trace_scan body
    rw [hcut, trace_append] at hall
    have hall := hall.1
    rw [hz, ← List.append_assoc] at hall hstate ⊢
    refine hall.extend_inert wellTagged_start (hinert z (by simp [hz])) ?_ _
    rw [lastState_append] at hstate
    have hz' : z.after = .start := hstate
    rw [hz']
    rfl
  · apply parted_of_left
    intro x hx
    rw [List.getLast?_append_of_ne_nil _ hgap] at hx
    exact hinert x (List.mem_of_getLast? hx)
  · rw [← hkind]
    exact hat.apart htokens (by simp [hkind])
  · rw [lexemes_append_inert hinert, hhead]
  · have hlex : lexemes later = after.map Token.lexeme := by
      rw [← hat.later, tokensFrom_lexemes]
    rw [← tokenize_lexemes, ← List.map_drop, hrest, List.map_cons, withAsync_of_concurrently hnext,
      hlex]
  · have hplace : (stepsText (xs ++ gap)).length = next.start := by
      rw [stepsText_append, List.length_append, hstop, hat.start]
    have hplace' : (stepsText ((xs ++ gap) ++ ts)).length = next.stop := by
      rw [List.append_assoc, stepsText_append, List.length_append, hstop, hat.length]
    have hcut' : scan body = ((xs ++ gap) ++ ts) ++ later := by
      rw [hcut, List.append_assoc (xs ++ gap)]
    have hother := isKeyword_false (b := "ASYNC") hnext (by decide)
    simp only [asyncIndex?, hindex, startsWith, hother, hnext, Bool.false_and, Bool.false_eq_true,
      if_false, if_true]
    rw [(take_stepsText hcut hplace).1, (take_stepsText hcut' hplace').2, List.append_assoc]

theorem asyncIndex?_insert {body : Text} {n : Nat} (h : indexEnd? (tokenize body) = some n)
    (hasync : startsWith ["ASYNC"] ((tokenize body).drop n) = false)
    (hother : ∀ next, ((tokenize body).drop n).head? = some next →
      next.isKeyword "CONCURRENTLY" = false) :
    ∃ xs zs ys, AsyncAt body n xs zs ys " ASYNC".toList ∧
      asyncIndex? body = some (stepsText xs ++ (" ASYNC".toList ++ stepsText ys)) := by
  obtain ⟨index, rest, xs, ys, hdrop, hindex, hsplit, hstop, hhead, htokens, hword, hstart⟩ :=
    indexToken_spec h
  rw [hdrop] at hasync hother
  have htrace := trace_scan body
  rw [hsplit, trace_append, hstart] at htrace
  refine ⟨xs, [], ys, ⟨hsplit, .inl rfl, hstart, rfl, ?_, ?_, hword, hhead, ?_⟩, ?_⟩
  · refine htrace.1.cut wellTagged_start ?_
    exact (boundary_cons ' ' _).2 (by decide)
  · apply parted_of_right
    intro y hy
    obtain rfl := Option.some.inj hy
    rfl
  · have hlex : lexemes ys = rest.map Token.lexeme := by
      rw [← htokens, tokensFrom_lexemes]
    rw [← tokenize_lexemes, ← List.map_drop, hdrop, hlex]
    cases rest with
    | nil => rfl
    | cons next after =>
        have hkeyword : next.isKeyword "ASYNC" = false := by simpa [startsWith] using hasync
        rw [List.map_cons, withAsync_of_other hkeyword (hother next rfl)]
  · obtain ⟨htake, hrest⟩ := take_stepsText hsplit hstop
    simp only [asyncIndex?, hindex, hasync, Bool.false_eq_true, if_false]
    rw [htake, hrest, List.append_assoc]
    cases rest with
    | nil => rfl
    | cons next after =>
        have hfalse := hother next rfl
        simp only [hfalse, Bool.false_eq_true, if_false]

/-- An index that is not built asynchronously is converted at one place of its body. -/
theorem asyncIndex?_spec {body : Text} {n : Nat} (h : indexEnd? (tokenize body) = some n)
    (hasync : startsWith ["ASYNC"] ((tokenize body).drop n) = false) :
    ∃ xs zs ys word, AsyncAt body n xs zs ys word ∧
      asyncIndex? body = some (stepsText xs ++ (word ++ stepsText ys)) := by
  by_cases hnext : ∃ next after, (tokenize body).drop n = next :: after ∧
      next.isKeyword "CONCURRENTLY" = true
  · obtain ⟨next, after, hrest, hnext⟩ := hnext
    obtain ⟨xs, zs, ys, hat⟩ := asyncIndex?_replace h hrest hnext
    exact ⟨xs, zs, ys, _, hat⟩
  · have hother : ∀ next, ((tokenize body).drop n).head? = some next →
        next.isKeyword "CONCURRENTLY" = false := by
      intro next hhead
      obtain ⟨after, hrest⟩ := List.head?_eq_some_iff.1 hhead
      cases hkeyword : next.isKeyword "CONCURRENTLY" with
      | false => rfl
      | true => exact absurd ⟨next, after, hrest, hkeyword⟩ hnext
    obtain ⟨xs, zs, ys, hat⟩ := asyncIndex?_insert h hasync hother
    exact ⟨xs, zs, ys, _, hat⟩

/-! ## The converted body -/

namespace AsyncAt

variable {body : Text} {n : Nat} {xs zs ys : List Step} {word : Text}

theorem plain (h : AsyncAt body n xs zs ys word) : ∀ c ∈ word, isPlain c = true := by
  rcases h.spelling with rfl | rfl <;> exact List.all_eq_true.1 (by decide)

theorem tail_trace (h : AsyncAt body n xs zs ys word) : Trace .start ys [] := by
  have htrace := trace_scan body
  rw [h.split, trace_append, trace_append, h.state, h.resumes] at htrace
  exact htrace.2.2

theorem scan_eq (h : AsyncAt body n xs zs ys word) :
    scan (stepsText xs ++ (word ++ stepsText ys)) = xs ++ (word.map (codeStep 0) ++ ys) := by
  have htail : scan (stepsText ys) = ys := scan_stepsText h.tail_trace
  have hword : scan (word ++ stepsText ys) = word.map (codeStep 0) ++ scan (stepsText ys) :=
    scanFrom_plain 0 h.plain (stepsText ys)
  rw [htail] at hword
  have hhead := h.trace.scanFrom_eq
  rw [h.state] at hhead
  refine hhead.trans ?_
  rw [← hword]
  rfl

theorem scanEnd_eq (h : AsyncAt body n xs zs ys word) :
    scanEnd (stepsText xs ++ (word ++ stepsText ys)) = scanEnd body := by
  have hword : lastState .start (word.map (codeStep 0)) = .start := lastState_codeSteps 0 word
  rw [scanEnd_eq_lastState, scanEnd_eq_lastState, h.scan_eq, h.split]
  simp only [lastState_append, h.state, h.resumes, hword]

theorem lexemes_eq (h : AsyncAt body n xs zs ys word) :
    lexemes (scan (stepsText xs ++ (word ++ stepsText ys))) =
      (lexemes (scan body)).take n ++ withAsync ((lexemes (scan body)).drop n) := by
  have hword : lexemes (word.map (codeStep 0)) = [asyncWord] := by
    rcases h.spelling with rfl | rfl <;> decide
  have hlast : ∀ x, (word.map (codeStep 0)).getLast? = some x → x.tokenKind? = some .word := by
    rcases h.spelling with rfl | rfl <;> decide
  have hright : Parted (word.map (codeStep 0)) ys := by
    intro x hx y hy
    have hnext := h.next
    rw [hy, Option.bind_some] at hnext
    simp [Step.joins, hlast x hx, hnext]
  have hleft : Parted xs (word.map (codeStep 0) ++ ys) := by
    have hne : word.map (codeStep 0) ≠ [] := by
      rcases h.spelling with rfl | rfl <;> decide
    intro x hx y hy
    rw [List.head?_append_of_ne_nil _ hne] at hy
    exact h.joint x hx y hy
  rw [h.scan_eq, lexemes_append hleft, lexemes_append hright, hword, h.head, h.tail]
  rfl

theorem xs_ne (h : AsyncAt body n xs zs ys word) (hn : indexEnd? (tokenize body) = some n) :
    xs ≠ [] := by
  rintro rfl
  obtain ⟨head, rest, htokens, hhead, rfl⟩ := indexHead_of_indexEnd? hn
  have hnil := h.head
  rw [← tokenize_lexemes, htokens, List.map_append, ← List.length_map Token.lexeme,
    List.take_left, lexemes_nil] at hnil
  cases hhead <;> cases hnil

theorem separators (h : AsyncAt body n xs zs ys word)
    (hbody : ∀ step ∈ scan body, step.isTopLevel ';' = false) :
    ∀ step ∈ xs ++ (word.map (codeStep 0) ++ ys), step.isTopLevel ';' = false := by
  have hword : ∀ step ∈ word.map (codeStep 0), step.isTopLevel ';' = false := by
    rcases h.spelling with rfl | rfl <;> decide
  rw [h.split] at hbody
  intro step hstep
  rcases List.mem_append.1 hstep with hstep | hstep
  · exact hbody step (List.mem_append_left _ hstep)
  · rcases List.mem_append.1 hstep with hstep | hstep
    · exact hword step hstep
    · exact hbody step (List.mem_append_right _ (List.mem_append_right _ hstep))

theorem chars (h : AsyncAt body n xs zs ys word) :
    ∀ c ∈ stepsText xs ++ (word ++ stepsText ys), c ∈ body ∨ c ∈ " ASYNC".toList := by
  have hbody := stepsText_scan body
  rw [h.split, stepsText_append, stepsText_append] at hbody
  intro c hc
  rw [← hbody]
  simp only [List.mem_append] at hc ⊢
  rcases hc with hc | hc | hc
  · exact .inl (.inl hc)
  · refine .inr ?_
    rcases h.spelling with rfl | rfl
    · exact hc
    · exact List.mem_cons_of_mem ' ' hc
  · exact .inl (.inr (.inr hc))

theorem lineTidy (h : AsyncAt body n xs zs ys word) (htidy : LineTidy (scan body)) :
    LineTidy (xs ++ (word.map (codeStep 0) ++ ys)) := by
  rw [h.split] at htidy
  have hxs : LineTidy xs := List.IsChain.left_of_append htidy
  have hys : LineTidy ys := List.IsChain.right_of_append (List.IsChain.right_of_append htidy)
  have hword : LineTidy (word.map (codeStep 0)) := by
    unfold LineTidy
    rcases h.spelling with rfl | rfl <;> decide
  have hfirst : ∀ y ∈ (word.map (codeStep 0)).head?, y.isLineBreak = false := by
    rcases h.spelling with rfl | rfl <;> decide
  have hlast : ∀ x ∈ (word.map (codeStep 0)).getLast?, x.isLineBlank = false := by
    rcases h.spelling with rfl | rfl <;> decide
  have hne : word.map (codeStep 0) ≠ [] := by
    rcases h.spelling with rfl | rfl <;> decide
  refine List.IsChain.append hxs (List.IsChain.append hword hys ?_) ?_
  · rintro x hx y - ⟨hblank, -⟩
    rw [hlast x hx] at hblank
    cases hblank
  · rintro x - y hy ⟨-, hbreak⟩
    rw [List.head?_append_of_ne_nil _ hne] at hy
    rw [hfirst y hy] at hbreak
    cases hbreak

theorem last (h : AsyncAt body n xs zs ys word)
    (hbody : ∀ step, (scan body).getLast? = some step → step.isSignificant = true) {step : Step}
    (hstep : (xs ++ (word.map (codeStep 0) ++ ys)).getLast? = some step) :
    step.isSignificant = true := by
  have hlast : ∀ x, (word.map (codeStep 0)).getLast? = some x → x.isSignificant = true := by
    rcases h.spelling with rfl | rfl <;> decide
  have hne : word.map (codeStep 0) ≠ [] := by
    rcases h.spelling with rfl | rfl <;> decide
  rw [List.getLast?_append_of_ne_nil _ (by simp [hne])] at hstep
  by_cases hys : ys = []
  · rw [hys, List.append_nil] at hstep
    exact hlast step hstep
  · rw [List.getLast?_append_of_ne_nil _ hys] at hstep
    apply hbody
    rw [h.split, List.getLast?_append_of_ne_nil _ (by simp [hys]),
      List.getLast?_append_of_ne_nil _ hys, hstep]

end AsyncAt

theorem withAsync_ne_nil (found : List Lexeme) : withAsync found ≠ [] := by
  unfold withAsync
  split
  · simp
  · split
    · simp
    · split <;> simp

theorem withAsync_head (found : List Lexeme) :
    startsWith ["ASYNC"] ((withAsync found).map Lexeme.token) = true := by
  have hword : asyncWord.token.isKeyword "ASYNC" = true := by decide
  unfold withAsync
  split
  · simp [startsWith, hword]
  · split
    · rename_i hnext
      simp [startsWith, hnext]
    · split <;> simp [startsWith, hword]

theorem asyncLexemes_of_indexEnd? {body : Text} {n : Nat}
    (h : indexEnd? (tokenize body) = some n) :
    asyncLexemes (lexemes (scan body)) =
      (lexemes (scan body)).take n ++ withAsync ((lexemes (scan body)).drop n) := by
  have hsame : indexEnd? ((lexemes (scan body)).map Lexeme.token) = some n := by
    rw [← h, ← tokenize_lexemes]
    exact indexEnd?_congr (alike_token _)
  simp only [asyncLexemes, hsame]

/-- The index of a converted body is built asynchronously. -/
theorem AsyncAt.indexEnd? {body : Text} {n : Nat} {xs zs ys : List Step} {word : Text}
    (h : AsyncAt body n xs zs ys word) (hn : indexEnd? (tokenize body) = some n) :
    indexEnd? (tokenize (stepsText xs ++ (word ++ stepsText ys))) = some n ∧
      startsWith ["ASYNC"] ((tokenize (stepsText xs ++ (word ++ stepsText ys))).drop n) = true := by
  obtain ⟨head, rest, htokens, hhead, rfl⟩ := indexHead_of_indexEnd? hn
  generalize hnew : withAsync ((lexemes (scan body)).drop head.length) = later
  have hlater : startsWith ["ASYNC"] (later.map Lexeme.token) = true := by
    rw [← hnew]
    exact withAsync_head _
  have halike : Alike (tokenize (stepsText xs ++ (word ++ stepsText ys)))
      (head ++ later.map Lexeme.token) := by
    have hlex := h.lexemes_eq
    rw [hnew, ← tokenize_lexemes, ← tokenize_lexemes, htokens, List.map_append,
      ← List.length_map Token.lexeme, List.take_left] at hlex
    have hback : (later.map Lexeme.token).map Token.lexeme = later := by
      rw [List.map_map]
      exact List.map_id later
    rw [Alike, hlex, List.map_append, hback]
  constructor
  · rw [indexEnd?_congr halike, hhead.indexEnd?]
  · have hdrop := halike.drop head.length
    rw [List.drop_left] at hdrop
    rw [startsWith_congr hdrop, hlater]

theorem marker_none_of_indexEnd? {tokens : List Token} {n : Nat}
    (h : indexEnd? tokens = some n) : Marker.ofTokens? tokens = none := by
  obtain ⟨head, rest, rfl, hhead, -⟩ := indexHead_of_indexEnd? h
  cases hhead with
  | plain hcreate _ => exact marker_none_of_keyword hcreate (by decide)
  | unique hcreate _ _ => exact marker_none_of_keyword hcreate (by decide)

/-- What the conversion of an index makes of a body, and that it is done once. -/
theorem adaptation_of_index {body : Text} (htidy : TidyBody body) (hclosed : ClosedBody body)
    {n : Nat} (hn : indexEnd? (tokenize body) = some n)
    (hasync : startsWith ["ASYNC"] ((tokenize body).drop n) = false) :
    ∃ converted, Adaptation.ofBody body = { body := some converted, indexesConverted := 1 } ∧
      TidyBody converted ∧ ClosedBody converted ∧
      lexemes (scan converted) = asyncLexemes (lexemes (scan body)) ∧
      Adaptation.ofBody converted = { body := some converted } ∧
      ∀ c ∈ converted, c ∈ body ∨ c ∈ " ASYNC".toList := by
  obtain ⟨xs, zs, ys, word, hat, hconverted⟩ := asyncIndex?_spec hn hasync
  obtain ⟨unique, hkind⟩ := ofBody_of_indexEnd? hn
  obtain ⟨hn', hasync'⟩ := hat.indexEnd? hn
  obtain ⟨unique', hkind'⟩ := ofBody_of_indexEnd? hn'
  have hlex := hat.lexemes_eq
  have htidy' : TidyBody (stepsText xs ++ (word ++ stepsText ys)) := by
    refine htidy.of_head ?_ ?_ ?_ ?_ ?_
    · rw [hat.scan_eq, hat.split]
      have hne := hat.xs_ne hn
      rw [List.head?_append_of_ne_nil _ hne, List.head?_append_of_ne_nil _ hne]
    · rw [hat.scan_eq]
      exact hat.lineTidy htidy.lines
    · rw [hat.scan_eq]
      exact fun step => hat.last htidy.last
    · rw [hat.scanEnd_eq]
      exact htidy.mode
    · rw [hlex]
      simp [withAsync_ne_nil]
  refine ⟨_, ?_, htidy', ⟨?_, ?_, ?_, htidy'.tokens, ?_⟩, ?_, ?_, hat.chars⟩
  · simp only [Adaptation.ofBody, hkind, hasync, hconverted]
  · rw [hat.scanEnd_eq, hclosed.ends]
  · rw [hat.scan_eq]
    exact hat.separators hclosed.separators
  · rw [htidy'.trimEnd, htidy'.trimComments]
  · rw [← tokenize_lexemes, markerOfLexemes_map]
    exact marker_none_of_indexEnd? hn'
  · rw [hlex, asyncLexemes_of_indexEnd? hn]
  · simp only [Adaptation.ofBody, hkind', hasync']

/-! ## One word apart -/

/--
What the conversion of an index changes: the word `ASYNC` stands right after the
first `INDEX`, in place of a `CONCURRENTLY` that stood there.
-/
inductive GainsAsync : List Lexeme → List Lexeme → Prop
  | inserted {before after : List Lexeme} {index : Lexeme} :
      (∀ lexeme ∈ before, lexeme.token.isKeyword "INDEX" = false) →
      index.token.isKeyword "INDEX" = true →
      after.head?.any (·.token.isKeyword "CONCURRENTLY") = false →
      GainsAsync (before ++ index :: after) (before ++ index :: asyncWord :: after)
  | replaced {before after : List Lexeme} {index next : Lexeme} :
      (∀ lexeme ∈ before, lexeme.token.isKeyword "INDEX" = false) →
      index.token.isKeyword "INDEX" = true → next.token.isKeyword "CONCURRENTLY" = true →
      GainsAsync (before ++ index :: next :: after) (before ++ index :: asyncWord :: after)

theorem gainsAsync_withAsync {before rest : List Token} {index : Token}
    (hbefore : ∀ t ∈ before, t.isKeyword "INDEX" = false) (hindex : index.isKeyword "INDEX" = true)
    (hasync : startsWith ["ASYNC"] rest = false) :
    GainsAsync ((before ++ index :: rest).map Token.lexeme)
      (before.map Token.lexeme ++ index.lexeme :: withAsync (rest.map Token.lexeme)) := by
  have hbefore' : ∀ lexeme ∈ before.map Token.lexeme, lexeme.token.isKeyword "INDEX" = false := by
    intro lexeme hlexeme
    obtain ⟨t, ht, rfl⟩ := List.mem_map.1 hlexeme
    rw [isKeyword_token, hbefore t ht]
  have hindex' : index.lexeme.token.isKeyword "INDEX" = true := by
    rw [isKeyword_token, hindex]
  rw [List.map_append, List.map_cons]
  cases rest with
  | nil => exact .inserted hbefore' hindex' rfl
  | cons next after =>
      have hnext : next.isKeyword "ASYNC" = false := by simpa [startsWith] using hasync
      rw [List.map_cons]
      cases hword : next.isKeyword "CONCURRENTLY" with
      | true =>
          rw [withAsync_of_concurrently hword]
          exact .replaced hbefore' hindex' (by rw [isKeyword_token, hword])
      | false =>
          rw [withAsync_of_other hnext hword]
          exact .inserted hbefore' hindex' (by simpa using hword)

/-- An index that is not built asynchronously gains one word and stays the same index. -/
theorem asyncIndex?_of_indexEnd? {body : Text} {n : Nat} (hn : indexEnd? (tokenize body) = some n)
    (hasync : startsWith ["ASYNC"] ((tokenize body).drop n) = false) :
    ∃ converted, asyncIndex? body = some converted ∧
      StatementKind.ofBody converted = .createIndex (n == 3) true ∧
      GainsAsync (lexemes (scan body)) (lexemes (scan converted)) := by
  obtain ⟨xs, zs, ys, word, hat, hconverted⟩ := asyncIndex?_spec hn hasync
  obtain ⟨hn', hasync'⟩ := hat.indexEnd? hn
  refine ⟨_, hconverted, by rw [ofBody_indexEnd hn', hasync'], ?_⟩
  obtain ⟨head, rest, htokens, hhead, rfl⟩ := indexHead_of_indexEnd? hn
  obtain ⟨before, index, rfl, hindex, hbefore⟩ := hhead.split
  rw [htokens, List.drop_left] at hasync
  have hgains := gainsAsync_withAsync hbefore hindex hasync
  rw [hat.lexemes_eq, ← tokenize_lexemes, htokens, ← List.map_take, ← List.map_drop,
    List.take_left, List.drop_left]
  simpa using hgains

theorem asyncIndex?_of_async {body : Text} {n : Nat} (hn : indexEnd? (tokenize body) = some n)
    (hasync : startsWith ["ASYNC"] ((tokenize body).drop n) = true) : asyncIndex? body = none := by
  obtain ⟨index, rest, xs, ys, hdrop, hindex, -⟩ := indexToken_spec hn
  rw [hdrop] at hasync
  simp only [asyncIndex?, hindex, hasync, if_true]

/--
Recognising and converting an index agree, also on bodies that end inside quotes
or parentheses: an index that is not built asynchronously is converted, by one
word, into the same kind of index that is; any other is left alone.
-/
theorem index_converted_by_one_word (body : Text) (unique : Bool) :
    (StatementKind.ofBody body = .createIndex unique false →
      ∃ converted, asyncIndex? body = some converted ∧
        StatementKind.ofBody converted = .createIndex unique true ∧
        GainsAsync ((tokenize body).map Token.lexeme) ((tokenize converted).map Token.lexeme)) ∧
    (StatementKind.ofBody body = .createIndex unique true → asyncIndex? body = none) := by
  constructor
  · intro hkind
    obtain ⟨n, hn, hasync⟩ := indexEnd?_of_ofBody hkind
    obtain ⟨converted, hconverted, hagain, hgains⟩ := asyncIndex?_of_indexEnd? hn hasync
    rw [ofBody_indexEnd hn, StatementKind.createIndex.injEq] at hkind
    rw [hkind.1] at hagain
    refine ⟨converted, hconverted, hagain, ?_⟩
    rw [tokenize_lexemes, tokenize_lexemes]
    exact hgains
  · intro hkind
    obtain ⟨n, hn, hasync⟩ := indexEnd?_of_ofBody hkind
    exact asyncIndex?_of_async hn hasync

theorem index_converted_by_one_word_open :
    StatementKind.ofBody "create unique index/**/concurrently on t (a".toList =
        .createIndex true false ∧
      ∃ converted,
        asyncIndex? "create unique index/**/concurrently on t (a".toList = some converted ∧
        StatementKind.ofBody converted = .createIndex true true ∧
        GainsAsync
          ((tokenize "create unique index/**/concurrently on t (a".toList).map Token.lexeme)
          ((tokenize converted).map Token.lexeme) := by
  have hkind : StatementKind.ofBody "create unique index/**/concurrently on t (a".toList =
      .createIndex true false := by
    decide +kernel
  exact ⟨hkind, (index_converted_by_one_word _ true).1 hkind⟩

end AuroraMigration
