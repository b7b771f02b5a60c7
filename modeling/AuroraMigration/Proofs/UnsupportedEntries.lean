import AuroraMigration.Proofs.Accounting

/-!
# Unsupported statements read back

A dropped constraint is listed as a statement of its own, made of the trimmed
head of the altered table and of the clause. Blanks in front of a statement only
move its tokens, so the listed statement is read as the same table with the one
clause that drops the constraint.
-/

namespace AuroraMigration

/-! ## Blanks in front of a statement -/

/-- A token with `k` more characters before it. -/
def Token.shift (k : Nat) (token : Token) : Token :=
  { token with start := token.start + k }

@[simp] theorem Token.shift_start (k : Nat) (token : Token) :
    (token.shift k).start = token.start + k := rfl

@[simp] theorem Token.shift_isIdentifier (k : Nat) (token : Token) :
    (token.shift k).isIdentifier = token.isIdentifier := rfl

@[simp] theorem Token.shift_isSymbol (k : Nat) (c : Char) (token : Token) :
    (token.shift k).isSymbol c = token.isSymbol c := rfl

@[simp] theorem Token.shift_stop (k : Nat) (token : Token) :
    (token.shift k).stop = token.stop + k :=
  Nat.add_right_comm token.start k token.text.length

theorem alike_shift (k : Nat) (tokens : List Token) :
    Alike (tokens.map (Token.shift k)) tokens := by
  rw [Alike, List.map_map]
  rfl

theorem Token.attach_shift (k : Nat) (token : Token) (later : List Token) :
    (token.shift k).attach (later.map (Token.shift k)) =
      (token.attach later).map (Token.shift k) := by
  cases later with
  | nil => rfl
  | cons next rest =>
      have hmeets : (token.shift k).Meets (next.shift k) ↔ token.Meets next := by
        simp only [Token.Meets, Token.shift_start, Token.shift_stop, Nat.add_right_cancel_iff]
        rfl
      by_cases h : token.Meets next
      · rw [List.map_cons, Token.attach_meets (hmeets.2 h), Token.attach_meets h]
        rfl
      · rw [List.map_cons, Token.attach_apart (by simpa using fun h' => h (hmeets.1 h')),
          Token.attach_apart (by simpa using h)]
        rfl

theorem tokensFrom_shift (k offset : Nat) (steps : List Step) :
    tokensFrom (offset + k) steps = (tokensFrom offset steps).map (Token.shift k) := by
  induction steps generalizing offset with
  | nil => rfl
  | cons step later ih =>
      have ih := ih (offset + step.chars.length)
      rw [Nat.add_right_comm] at ih
      cases hkind : step.tokenKind? with
      | none => simp only [tokensFrom, hkind, ih]
      | some kind =>
          simp only [tokensFrom, hkind, ih]
          exact Token.attach_shift k ⟨kind, step.chars, offset⟩ _

theorem tokenize_blank_append {front : Text} (hfront : ∀ c ∈ front, isBlank c = true)
    (text : Text) : tokenize (front ++ text) = (tokenize text).map (Token.shift front.length) := by
  have hskip := skipped_blank hfront
  have hnone : tokensFrom 0 (front.map (codeStep 0)) = [] := by
    rw [← List.map_eq_nil_iff, tokensFrom_lexemes, lexemes_eq_nil_iff]
    exact hskip.inert
  have hparted : Parted (front.map (codeStep 0)) (scan text) :=
    parted_of_left fun step hstep => hskip.inert step (List.mem_of_getLast? hstep)
  rw [tokenize, hskip.scan_append, tokensFrom_append hparted, hnone, stepsText_codeSteps,
    List.nil_append, tokensFrom_shift]
  rfl

theorem skipIfExists_shift (k : Nat) (tokens : List Token) :
    skipIfExists (tokens.map (Token.shift k)) = (skipIfExists tokens).map (Token.shift k) := by
  unfold skipIfExists
  rw [startsWith_congr (alike_shift k tokens)]
  split
  · exact (List.map_drop ..).symm
  · rfl

theorem skipOnly_shift (k : Nat) (tokens : List Token) :
    skipOnly (tokens.map (Token.shift k)) = (skipOnly tokens).map (Token.shift k) := by
  unfold skipOnly
  rw [startsWith_congr (alike_shift k tokens)]
  split
  · exact (List.map_drop ..).symm
  · rfl

theorem qualifiedStop_shift (k stop : Nat) (tokens : List Token) :
    qualifiedStop (stop + k) (tokens.map (Token.shift k)) = qualifiedStop stop tokens + k := by
  fun_induction qualifiedStop stop tokens with
  | case1 stop dot part rest hname ih =>
      rw [List.map_cons, List.map_cons, qualifiedStop, Token.shift_isSymbol,
        Token.shift_isIdentifier, if_pos hname, Token.shift_stop, ih]
  | case2 stop dot part rest hname =>
      rw [List.map_cons, List.map_cons, qualifiedStop, Token.shift_isSymbol,
        Token.shift_isIdentifier, if_neg hname]
  | case3 tokens stop hshort =>
      cases tokens with
      | nil => rfl
      | cons dot rest =>
          cases rest with
          | nil => rfl
          | cons part rest => exact absurd rfl (hshort dot part rest)

theorem qualifiedName?_shift (k : Nat) (tokens : List Token) :
    qualifiedName? (tokens.map (Token.shift k)) =
      (qualifiedName? tokens).map fun span => (span.1 + k, span.2 + k) := by
  cases tokens with
  | nil => rfl
  | cons first rest =>
      by_cases hident : first.isIdentifier = true
      · rw [List.map_cons, qualifiedName?_cons hident, qualifiedName?_cons
          ((first.shift_isIdentifier k).trans hident), Token.shift_stop, qualifiedStop_shift]
        rfl
      · rw [List.map_cons, qualifiedName?, qualifiedName?, Token.shift_isIdentifier,
          if_neg hident, if_neg hident]
        rfl

/-- An altered table is read behind blanks as it is read without them. -/
theorem ofTokens?_shift (front body : Text) (tokens : List Token) :
    AlterTable.ofTokens? (front ++ body) (tokens.map (Token.shift front.length)) =
      (AlterTable.ofTokens? body tokens).map fun alter =>
        { alter with head := front ++ alter.head } := by
  have hdrop : ∀ n, (front ++ body).drop (n + front.length) = body.drop n := by
    intro n
    rw [Nat.add_comm, List.drop_length_add_append]
  have htake : ∀ n, (front ++ body).take (n + front.length) = front ++ body.take n := by
    intro n
    rw [Nat.add_comm, List.take_length_add_append]
  unfold AlterTable.ofTokens?
  rw [skipIfExists_shift, skipOnly_shift, qualifiedName?_shift]
  cases qualifiedName? (skipOnly (skipIfExists tokens)) with
  | none => rfl
  | some span =>
      simp only [Option.map_some, hdrop, htake]
      split
      · rfl
      · rw [Nat.add_comm span.1, List.drop_length_add_append]
        rfl

theorem ofBody_blank_append {front body : Text} (hfront : ∀ c ∈ front, isBlank c = true)
    {alter : AlterTable} (h : StatementKind.ofBody (front ++ body) = .alterTable alter) :
    ∃ head, alter.head = front ++ head ∧
      StatementKind.ofBody body = .alterTable { alter with head } := by
  obtain ⟨a, t, tokens, htokens, ha, ht, hof⟩ := ofBody_alterTable h
  rw [tokenize_blank_append hfront] at htokens
  obtain ⟨a, rest, hbody, rfl, hrest⟩ := List.map_eq_cons_iff.1 htokens
  obtain ⟨t, tokens, rfl, rfl, rfl⟩ := List.map_eq_cons_iff.1 hrest
  rw [ofTokens?_shift] at hof
  obtain ⟨found, hfound, rfl⟩ := Option.map_eq_some_iff.1 hof
  refine ⟨found.head, rfl, ?_⟩
  rw [ofBody_of_alter hbody ha ht, hfound]
  rfl

/-! ## Clauses that drop a constraint -/

theorem startsWith_of_isDrop {tokens : List Token}
    (h : (ClauseKind.ofTokens tokens).isDrop = true) :
    startsWith ["DROP", "CONSTRAINT"] tokens = true := by
  by_cases hdrop : startsWith ["DROP", "CONSTRAINT"] tokens = true
  · exact hdrop
  · exfalso
    rw [ClauseKind.ofTokens, if_neg hdrop] at h
    split at h
    · unfold ClauseKind.ofAdded at h
      repeat' split at h
      all_goals cases h
    · cases h

theorem endsName_of_isDrop {tokens : List Token}
    (h : (ClauseKind.ofTokens tokens).isDrop = true) : tokens ≠ [] ∧ EndsName tokens := by
  obtain ⟨drop, rest, rfl, hdrop, -⟩ := startsWith_cons_iff.1 (startsWith_of_isDrop h)
  have hexists := isKeyword_false (b := "EXISTS") hdrop (by decide)
  refine ⟨by simp, ?_, by simp [startsWith, hexists]⟩
  simp [Token.isSymbol, (isKeyword_iff.1 hdrop).1]

/-- The head of a statement that starts with no blank is trimmed. -/
theorem AlterAt.trim_head {body : Text} {alter : AlterTable} {a t : Token} {before : List Token}
    {part : Token} {after : List Token} {start : Nat} {hs ys : List Step}
    (h : AlterAt body alter a t before part after start hs ys)
    (hsolid : ∀ c, body.head? = some c → isBlank c = false) :
    Text.trim alter.head = stepsText hs := by
  rw [Text.trim, Text.trimStart_eq_self, h.trimEnd_head]
  intro c hc
  apply hsolid
  rw [← stepsText_scan body, h.split, stepsText_append, List.head?_append, ← h.head, hc]
  rfl

/-- What is listed for a clause that drops a constraint. -/
def AlterTable.entry (alter : AlterTable) (clause : Clause) : Text :=
  Text.trim alter.head ++ [' '] ++ trimComments clause.text

theorem ofBody_entry {body : Text} {alter : AlterTable}
    (hkind : StatementKind.ofBody body = .alterTable alter) {clause : Clause}
    (hclause : clause ∈ alter.clauses) (hdrop : clause.kind.isDrop = true) :
    StatementKind.ofBody (alter.entry clause) =
      .alterTable { alter with head := Text.trim alter.head, clauses := [clause.trimmed] } := by
  have hblank : ∀ c ∈ body.takeWhile isBlank, isBlank c = true := fun c => List.mem_takeWhile_imp
  have hsplit : body.takeWhile isBlank ++ Text.trimStart body = body :=
    List.takeWhile_append_dropWhile
  rw [← hsplit] at hkind
  obtain ⟨head, hhead, hkind⟩ := ofBody_blank_append hblank hkind
  obtain ⟨a, t, before, part, after, start, hs, ys, hat⟩ := alterAt_of_ofBody hkind
  have htrim : Text.trim alter.head = stepsText hs := by
    rw [← hat.trim_head fun c => Text.trimStart_head, hhead, Text.trim,
      Text.trimStart_append_of_blank hblank]
    rfl
  have hof : clause = Clause.ofText clause.text := (hat.clauseText hclause).1
  rw [hof] at hdrop
  obtain ⟨htokens, hends⟩ := endsName_of_isDrop hdrop
  have hread := hat.clauses_read_back (List.singleton_sublist.2 hclause) (by simp)
    (by simpa using htokens) (by simpa using hends)
  have hheadTrim : head = stepsText hs := hat.head
  rw [AlterTable.entry, htrim, List.append_assoc, ← hheadTrim]
  rw [← hheadTrim] at hread
  exact hread

/--
Every unsupported statement is itself the statement that was taken out.

The list has one entry for each clause that drops a constraint, in order. An
entry is read as an altered table of the same name with one clause, which drops
the constraint of the same name.
-/
theorem unsupported_read_back {body : Text} {alter : AlterTable}
    (hkind : StatementKind.ofBody body = .alterTable alter) :
    List.Forall₂ (fun clause entry => StatementKind.ofBody entry =
        .alterTable { alter with head := Text.trim alter.head, clauses := [clause.trimmed] })
      (alter.clauses.filter (·.kind.isDrop)) (Adaptation.ofBody body).unsupported := by
  have hlist : (Adaptation.ofBody body).unsupported = alter.unsupported := by
    simp only [Adaptation.ofBody, hkind]
  rw [hlist, unsupported_eq, List.forall₂_map_right_iff, List.forall₂_same]
  intro clause hclause
  obtain ⟨hmem, hdrop⟩ := List.mem_filter.1 hclause
  exact ofBody_entry hkind hmem hdrop

/-- A comment in front of the clause stays in its entry, one behind it does not. -/
theorem unsupported_read_back_commented :
    (Adaptation.ofBody (" ALTER TABLE ONLY s.\"IF\" -- u\n DROP CONSTRAINT " ++
        "IF EXISTS \"K\"\"\" -- k, (\n, ADD c INT").toList).unsupported =
      ["ALTER TABLE ONLY s.\"IF\" -- u\n DROP CONSTRAINT IF EXISTS \"K\"\"\"".toList] ∧
    StatementKind.ofBody
        "ALTER TABLE ONLY s.\"IF\" -- u\n DROP CONSTRAINT IF EXISTS \"K\"\"\"".toList =
      .alterTable
        { table := "s.\"IF\"".toList
          head := "ALTER TABLE ONLY s.\"IF\"".toList
          clauses := [{ text := "-- u\n DROP CONSTRAINT IF EXISTS \"K\"\"\"".toList
                        kind := .dropConstraint ⟨"\"K\"\"\"".toList, "K\"".toList⟩ }] } := by
  have hkind : StatementKind.ofBody (" ALTER TABLE ONLY s.\"IF\" -- u\n DROP CONSTRAINT " ++
      "IF EXISTS \"K\"\"\" -- k, (\n, ADD c INT").toList =
      .alterTable
        { table := "s.\"IF\"".toList
          head := " ALTER TABLE ONLY s.\"IF\"".toList
          clauses := ["-- u\n DROP CONSTRAINT IF EXISTS \"K\"\"\" -- k, (".toList,
            "ADD c INT".toList].map Clause.ofText } := by
    decide +kernel
  have hread := unsupported_read_back hkind
  have hdrops : (["-- u\n DROP CONSTRAINT IF EXISTS \"K\"\"\" -- k, (".toList,
      "ADD c INT".toList].map Clause.ofText).filter (·.kind.isDrop) =
      [Clause.ofText "-- u\n DROP CONSTRAINT IF EXISTS \"K\"\"\" -- k, (".toList] := by
    decide +kernel
  have hlist : (Adaptation.ofBody (" ALTER TABLE ONLY s.\"IF\" -- u\n DROP CONSTRAINT " ++
      "IF EXISTS \"K\"\"\" -- k, (\n, ADD c INT").toList).unsupported =
      ["ALTER TABLE ONLY s.\"IF\" -- u\n DROP CONSTRAINT IF EXISTS \"K\"\"\"".toList] := by
    decide +kernel
  rw [hdrops, hlist] at hread
  exact ⟨hlist, (List.forall₂_cons.1 hread).1.trans (by decide +kernel)⟩

end AuroraMigration
