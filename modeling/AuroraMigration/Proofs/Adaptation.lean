import AuroraMigration.Proofs.AlterTable

/-!
# What an adaptation emits

Each kind of statement is adapted in its own way: an index is converted, a table
loses clauses, all else stays. What comes out is always closed, and adapting it
again changes nothing.
-/

namespace AuroraMigration

/-- Whether a statement is written again without some of its clauses. -/
def AlterTable.LosesClauses (alter : AlterTable) : Prop :=
  alter.survivors ≠ [] ∧ alter.survivors.length ≠ alter.clauses.length

instance (alter : AlterTable) : Decidable alter.LosesClauses :=
  inferInstanceAs (Decidable (_ ∧ _))

/-- All that can become of a body. -/
inductive Adapted (body : Text) : Prop
  | same : Adaptation.ofBody body = { body := some body } → asyncLexemes (lexemes (scan body)) =
      lexemes (scan body) → Adapted body
  | converted (n : Nat) : indexEnd? (tokenize body) = some n →
      startsWith ["ASYNC"] ((tokenize body).drop n) = false → Adapted body
  | removed (alter : AlterTable) : StatementKind.ofBody body = .alterTable alter →
      alter.survivors = [] → Adapted body
  | rewritten (alter : AlterTable) : StatementKind.ofBody body = .alterTable alter →
      alter.LosesClauses → Adapted body

theorem asyncLexemes_of_none {body : Text} (h : indexEnd? (tokenize body) = none) :
    asyncLexemes (lexemes (scan body)) = lexemes (scan body) := by
  have hsame : indexEnd? ((lexemes (scan body)).map Lexeme.token) = none := by
    rw [← h, ← tokenize_lexemes]
    exact indexEnd?_congr (alike_token _)
  simp only [asyncLexemes, hsame]

theorem asyncLexemes_of_async {body : Text} {n : Nat} (h : indexEnd? (tokenize body) = some n)
    (hasync : startsWith ["ASYNC"] ((tokenize body).drop n) = true) :
    asyncLexemes (lexemes (scan body)) = lexemes (scan body) := by
  obtain ⟨t, rest, hdrop, ht, -⟩ := startsWith_cons_iff.1 hasync
  have hwith : withAsync ((lexemes (scan body)).drop n) = (lexemes (scan body)).drop n := by
    rw [← tokenize_lexemes, ← List.map_drop, hdrop, List.map_cons, withAsync,
      isKeyword_token, ht]
    rfl
  rw [asyncLexemes_of_indexEnd? h, hwith, List.take_append_drop]

/-- A statement that builds no index keeps its tokens in the form with `ASYNC`. -/
theorem asyncLexemes_of_kind {body : Text}
    (h : ∀ unique async, StatementKind.ofBody body ≠ .createIndex unique async) :
    asyncLexemes (lexemes (scan body)) = lexemes (scan body) := by
  cases hn : indexEnd? (tokenize body) with
  | none => exact asyncLexemes_of_none hn
  | some n =>
      obtain ⟨unique, hkind⟩ := ofBody_of_indexEnd? hn
      exact absurd hkind (h _ _)

theorem survivors_length_eq {alter : AlterTable}
    (h : alter.survivors.length = alter.clauses.length) :
    ∀ clause ∈ alter.clauses, clause.kind.runs = true := by
  intro clause hclause
  exact runs_of_survives (List.length_filter_eq_length_iff.1 h clause hclause)

theorem adapted (body : Text) : Adapted body := by
  have hother : ∀ {kind : StatementKind}, StatementKind.ofBody body = kind →
      (∀ unique async, kind ≠ .createIndex unique async) →
      Adaptation.ofBody body = { body := some body } → Adapted body := by
    rintro kind rfl hkind hbody
    exact .same hbody (asyncLexemes_of_kind hkind)
  cases hkind : StatementKind.ofBody body with
  | createTable =>
      exact hother hkind (by simp) (by simp only [Adaptation.ofBody, hkind])
  | drop =>
      exact hother hkind (by simp) (by simp only [Adaptation.ofBody, hkind])
  | other =>
      exact hother hkind (by simp) (by simp only [Adaptation.ofBody, hkind])
  | createIndex unique async =>
      obtain ⟨n, hn, hasync⟩ := indexEnd?_of_ofBody hkind
      cases async with
      | false => exact .converted n hn hasync
      | true =>
          exact .same (by simp only [Adaptation.ofBody, hkind]) (asyncLexemes_of_async hn hasync)
  | alterTable alter =>
      by_cases hnone : alter.survivors = []
      · exact .removed alter hkind hnone
      · by_cases hall : alter.survivors.length = alter.clauses.length
        · exact hother hkind (by simp) (adaptation_of_runs hkind (survivors_length_eq hall))
        · exact .rewritten alter hkind ⟨hnone, hall⟩

theorem adaptation_of_losesClauses {body : Text} {alter : AlterTable}
    (hkind : StatementKind.ofBody body = .alterTable alter) (h : alter.LosesClauses) :
    (Adaptation.ofBody body).body = some (rewritten alter) := by
  have hsome : alter.survivors.isEmpty = false := by simpa using h.1
  simp only [Adaptation.ofBody, hkind, AlterTable.remaining?, hsome, Bool.false_eq_true, if_false,
    if_neg h.2]
  rfl

/-- The altered table that a statement is about, if it is. -/
def StatementKind.alter? : StatementKind → Option AlterTable
  | .alterTable alter => some alter
  | _ => none

/-- No surviving clause of a statement that loses clauses starts with a dot or with `EXISTS`. -/
def KeepsName (body : Text) : Prop :=
  ∀ alter ∈ (StatementKind.ofBody body).alter?, alter.LosesClauses →
    ∀ clause ∈ alter.survivors, EndsName (tokenize clause.text)

instance (body : Text) : Decidable (KeepsName body) :=
  inferInstanceAs (Decidable (∀ alter ∈ _, _ → _))

/-- What is emitted for a body can be a statement of a script. -/
theorem emitted_spec {body : Text} (htidy : TidyBody body) (hclosed : ClosedBody body)
    {out : Text} (h : (Adaptation.ofBody body).body = some out) :
    ClosedBody out ∧ TidyBody (Text.trimEnd out) ∧
      (KeepsName body → Adaptation.ofBody (Text.trimEnd out) =
        { body := some (Text.trimEnd out) }) := by
  cases adapted body with
  | same hbody =>
      rw [hbody] at h
      obtain rfl := Option.some.inj h
      rw [htidy.trimEnd]
      exact ⟨hclosed, htidy, fun _ => hbody⟩
  | converted n hn hasync =>
      obtain ⟨converted, hbody, htidy', hclosed', -, hagain, -⟩ :=
        adaptation_of_index htidy hclosed hn hasync
      rw [hbody] at h
      obtain rfl := Option.some.inj h
      rw [htidy'.trimEnd]
      exact ⟨hclosed', htidy', fun _ => hagain⟩
  | removed alter hkind hnone =>
      simp [Adaptation.ofBody, hkind, AlterTable.remaining?, hnone] at h
  | rewritten alter hkind hloses =>
      rw [adaptation_of_losesClauses hkind hloses] at h
      obtain rfl := Option.some.inj h
      obtain ⟨a, t, before, part, after, start, hs, ys, hat⟩ := alterAt_of_ofBody hkind
      have hcores := hat.closedCores hclosed.ends htidy.lines
      obtain ⟨rs, parts, hr⟩ := hat.rewritten_spec hcores hloses.1
      refine ⟨hat.rewritten_closed hcores hclosed.separators hr,
        hat.rewritten_tidy hcores htidy hr, ?_⟩
      intro hkeeps
      exact hat.rewritten_again hr (hkeeps alter (by rw [hkind]; rfl) hloses)

/-- No carriage return gets into what is emitted. -/
theorem emitted_return {body : Text} (htidy : TidyBody body) (hclosed : ClosedBody body)
    {out : Text} (h : (Adaptation.ofBody body).body = some out) (hreturn : '\r' ∉ body) :
    '\r' ∉ out := by
  have hadded : ∀ {added : Text}, '\r' ∉ added → (∀ c ∈ out, c ∈ body ∨ c ∈ added) →
      '\r' ∉ out := by
    intro added hadded hchars hmem
    rcases hchars _ hmem with hmem | hmem
    · exact hreturn hmem
    · exact hadded hmem
  cases adapted body with
  | same hbody =>
      rw [hbody] at h
      obtain rfl := Option.some.inj h
      exact hreturn
  | converted n hn hasync =>
      obtain ⟨converted, hbody, -, -, -, -, hchars⟩ := adaptation_of_index htidy hclosed hn hasync
      rw [hbody] at h
      obtain rfl := Option.some.inj h
      exact hadded (by decide) hchars
  | removed alter hkind hnone =>
      simp [Adaptation.ofBody, hkind, AlterTable.remaining?, hnone] at h
  | rewritten alter hkind hloses =>
      rw [adaptation_of_losesClauses hkind hloses] at h
      obtain rfl := Option.some.inj h
      obtain ⟨a, t, before, part, after, start, hs, ys, hat⟩ := alterAt_of_ofBody hkind
      exact hadded (by decide) (hat.rewritten_chars)

/-! ## Nothing is removed unseen -/

theorem runs_of_nothing_removed {alter : AlterTable} (hunsupported : alter.unsupported = [])
    (hkeys : alter.foreignKeysRemoved = 0) :
    ∀ clause ∈ alter.clauses, clause.kind.runs = true := by
  intro clause hclause
  have hdrop := (List.filterMap_eq_nil_iff.1 hunsupported) clause hclause
  have hparts : alter.foreignKeyNames.eraseDups.length = 0 ∧ alter.unnamedForeignKeys = 0 := by
    unfold AlterTable.foreignKeysRemoved at hkeys
    omega
  have hnames : alter.foreignKeyNames = [] := by
    cases hl : alter.foreignKeyNames with
    | nil => rfl
    | cons name names =>
        rw [hl, List.eraseDups_cons, List.length_cons] at hparts
        omega
  have hname := (List.filterMap_eq_nil_iff.1 hnames) clause hclause
  have hunnamed := (List.countP_eq_zero.1 hparts.2) clause hclause
  cases hk : clause.kind with
  | dropConstraint name => simp [hk] at hdrop
  | addForeignKey name =>
      cases name with
      | none => simp [hk] at hunnamed
      | some name => simp [hk] at hname
  | addConstraint name => rfl
  | addColumn => rfl
  | other => rfl

/-- An adaptation that reports nothing as removed keeps all tokens up to `ASYNC`. -/
theorem emitted_lexemes {body : Text} (htidy : TidyBody body) (hclosed : ClosedBody body)
    (hunsupported : (Adaptation.ofBody body).unsupported = [])
    (hkeys : (Adaptation.ofBody body).foreignKeysRemoved = 0) :
    ∃ out, (Adaptation.ofBody body).body = some out ∧
      lexemes (scan out) = asyncLexemes (lexemes (scan body)) := by
  have halter : ∀ alter, StatementKind.ofBody body = .alterTable alter →
      alter.survivors = alter.clauses := by
    intro alter hkind
    simp only [Adaptation.ofBody, hkind] at hunsupported hkeys
    exact survivors_of_runs (runs_of_nothing_removed hunsupported hkeys)
  cases adapted body with
  | same hbody hlex => exact ⟨body, by rw [hbody], hlex.symm⟩
  | converted n hn hasync =>
      obtain ⟨converted, hbody, -, -, hlex, -, -⟩ := adaptation_of_index htidy hclosed hn hasync
      exact ⟨converted, by rw [hbody], hlex⟩
  | removed alter hkind hnone =>
      rw [halter alter hkind] at hnone
      exact absurd hnone (clauses_ne_nil hkind)
  | rewritten alter hkind hloses =>
      exact absurd (by rw [halter alter hkind]) hloses.2

end AuroraMigration
