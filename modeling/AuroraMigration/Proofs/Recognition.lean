import AuroraMigration.Proofs.Lexeme
import AuroraMigration.Adaptation
import AuroraMigration.Sql.Statement

/-!
# Recognition without places

Markers, clauses and kinds of statements are recognised by the kinds and texts
of tokens. Where the tokens stand never matters, and what stands in quotes is
looked at for the names of constraints only.
-/

namespace AuroraMigration

/-- Two lists of tokens that differ in the places of the tokens only. -/
def Alike (a b : List Token) : Prop :=
  a.map Token.lexeme = b.map Token.lexeme

/-- The token that a lexeme is at the start of a text. -/
def Lexeme.token (lexeme : Lexeme) : Token :=
  ⟨lexeme.kind, lexeme.text, 0⟩

theorem alike_token (tokens : List Token) :
    Alike ((tokens.map Token.lexeme).map Lexeme.token) tokens := by
  unfold Alike
  rw [List.map_map, List.map_map]
  rfl

theorem Alike.symm {a b : List Token} (h : Alike a b) : Alike b a :=
  Eq.symm h

theorem alike_nil_iff {b : List Token} : Alike [] b ↔ b = [] := by
  simp [Alike, eq_comm]

theorem alike_cons_iff {t : Token} {a b : List Token} :
    Alike (t :: a) b ↔ ∃ u b', b = u :: b' ∧ t.lexeme = u.lexeme ∧ Alike a b' := by
  cases b with
  | nil => simp [Alike]
  | cons u b =>
      simp only [Alike, List.map_cons, List.cons.injEq]
      constructor
      · rintro ⟨hlex, hrest⟩
        exact ⟨u, b, ⟨rfl, rfl⟩, hlex, hrest⟩
      · rintro ⟨_, _, ⟨rfl, rfl⟩, hlex, hrest⟩
        exact ⟨hlex, hrest⟩

theorem Alike.drop {a b : List Token} (h : Alike a b) (n : Nat) :
    Alike (a.drop n) (b.drop n) := by
  unfold Alike at h ⊢
  rw [List.map_drop, List.map_drop, h]

theorem Token.lexeme_inj {t u : Token} (h : t.lexeme = u.lexeme) :
    t.kind = u.kind ∧ t.text = u.text :=
  Lexeme.mk.inj h

/-! ## What is not hidden -/

/-- What is read of a text of some kind without looking into quotes: words in capitals, symbols. -/
def TokenKind.shown : TokenKind → Text → Text
  | .word, text => Text.asciiUpper text
  | .symbol, text => text
  | .name, _ => []
  | .literal, _ => []

/-- A lexeme with only what is shown of its text. -/
def Lexeme.outline (lexeme : Lexeme) : Lexeme :=
  ⟨lexeme.kind, lexeme.kind.shown lexeme.text⟩

/-- Two lists of tokens that differ in quoted texts, in the case of letters and in places only. -/
def SameOutline (a b : List Token) : Prop :=
  a.map (·.lexeme.outline) = b.map (·.lexeme.outline)

instance (a b : List Token) : Decidable (SameOutline a b) :=
  inferInstanceAs (Decidable (a.map (·.lexeme.outline) = b.map (·.lexeme.outline)))

theorem Alike.sameOutline {a b : List Token} (h : Alike a b) : SameOutline a b := by
  have houtline := congrArg (List.map Lexeme.outline) h
  rw [List.map_map, List.map_map] at houtline
  exact houtline

theorem sameOutline_nil_iff {b : List Token} : SameOutline [] b ↔ b = [] := by
  rw [SameOutline, List.map_nil, eq_comm, List.map_eq_nil_iff]

theorem sameOutline_cons_iff {t : Token} {a b : List Token} :
    SameOutline (t :: a) b ↔
      ∃ u b', b = u :: b' ∧ t.lexeme.outline = u.lexeme.outline ∧ SameOutline a b' := by
  unfold SameOutline
  rw [List.map_cons, eq_comm, List.map_eq_cons_iff]
  constructor
  · rintro ⟨u, b', rfl, hlex, hrest⟩
    exact ⟨u, b', rfl, hlex.symm, hrest.symm⟩
  · rintro ⟨u, b', rfl, hlex, hrest⟩
    exact ⟨u, b', rfl, hlex.symm, hrest.symm⟩

theorem SameOutline.drop {a b : List Token} (h : SameOutline a b) (n : Nat) :
    SameOutline (a.drop n) (b.drop n) := by
  unfold SameOutline at h ⊢
  rw [List.map_drop, List.map_drop, h]

theorem Token.outline_inj {t u : Token} (h : t.lexeme.outline = u.lexeme.outline) :
    t.kind = u.kind ∧ u.kind.shown t.text = u.kind.shown u.text := by
  obtain ⟨hkind, htext⟩ := Lexeme.mk.inj h
  simp only [Token.lexeme_kind, Token.lexeme_text] at hkind htext
  exact ⟨hkind, hkind ▸ htext⟩

theorem isKeyword_outline {t u : Token} (h : t.lexeme.outline = u.lexeme.outline)
    (keyword : String) : t.isKeyword keyword = u.isKeyword keyword := by
  obtain ⟨hkind, htext⟩ := Token.outline_inj h
  rw [Bool.eq_iff_iff]
  simp only [Token.isKeyword, Bool.and_eq_true, beq_iff_eq, hkind]
  refine and_congr_right fun hword => ?_
  rw [hword] at htext
  exact ⟨htext.symm.trans, htext.trans⟩

theorem isSymbol_outline {t u : Token} (h : t.lexeme.outline = u.lexeme.outline) (c : Char) :
    t.isSymbol c = u.isSymbol c := by
  obtain ⟨hkind, htext⟩ := Token.outline_inj h
  rw [Bool.eq_iff_iff]
  simp only [Token.isSymbol, Bool.and_eq_true, beq_iff_eq, hkind]
  refine and_congr_right fun hsymbol => ?_
  rw [hsymbol] at htext
  rw [show t.text = u.text from htext]

theorem isIdentifier_outline {t u : Token} (h : t.lexeme.outline = u.lexeme.outline) :
    t.isIdentifier = u.isIdentifier := by
  simp [Token.isIdentifier, (Token.outline_inj h).1]

theorem startsWith_outline {a b : List Token} (h : SameOutline a b) (keywords : List String) :
    startsWith keywords a = startsWith keywords b := by
  induction keywords generalizing a b with
  | nil => simp [startsWith]
  | cons keyword keywords ih =>
      cases a with
      | nil =>
          rw [sameOutline_nil_iff.1 h]
      | cons t a =>
          obtain ⟨u, b, rfl, hlex, hrest⟩ := sameOutline_cons_iff.1 h
          simp only [startsWith, isKeyword_outline hlex, ih hrest]

theorem mentionsForeignKey_outline {a b : List Token} (h : SameOutline a b) :
    mentionsForeignKey a = mentionsForeignKey b := by
  induction a generalizing b with
  | nil => rw [sameOutline_nil_iff.1 h]
  | cons t a ih =>
      have hstart := startsWith_outline h ["FOREIGN", "KEY"]
      obtain ⟨u, b, rfl, -, hrest⟩ := sameOutline_cons_iff.1 h
      simp only [mentionsForeignKey, hstart, ih hrest]

theorem leadingName?_outline {a b : List Token} (h : SameOutline a b) :
    (leadingName? a).isSome = (leadingName? b).isSome := by
  cases a with
  | nil => rw [sameOutline_nil_iff.1 h]
  | cons t a =>
      obtain ⟨u, b, rfl, hlex, -⟩ := sameOutline_cons_iff.1 h
      simp only [leadingName?, isIdentifier_outline hlex]
      split <;> rfl

theorem SameOutline.skipIfExists {a b : List Token} (h : SameOutline a b) :
    SameOutline (skipIfExists a) (skipIfExists b) := by
  simp only [AuroraMigration.skipIfExists, startsWith_outline h]
  split
  · exact h.drop 2
  · exact h

/-! ## Tokens in other places -/

theorem isKeyword_congr {t u : Token} (h : t.lexeme = u.lexeme) (keyword : String) :
    t.isKeyword keyword = u.isKeyword keyword :=
  isKeyword_outline (congrArg Lexeme.outline h) keyword

@[simp] theorem isKeyword_token (t : Token) (keyword : String) :
    t.lexeme.token.isKeyword keyword = t.isKeyword keyword :=
  isKeyword_congr rfl keyword

theorem isSymbol_congr {t u : Token} (h : t.lexeme = u.lexeme) (c : Char) :
    t.isSymbol c = u.isSymbol c :=
  isSymbol_outline (congrArg Lexeme.outline h) c

theorem startsWith_congr {a b : List Token} (h : Alike a b) (keywords : List String) :
    startsWith keywords a = startsWith keywords b :=
  startsWith_outline h.sameOutline keywords

theorem leadingName?_congr {a b : List Token} (h : Alike a b) :
    leadingName? a = leadingName? b := by
  cases a with
  | nil => rw [alike_nil_iff.1 h]
  | cons t a =>
      obtain ⟨u, b, rfl, hlex, -⟩ := alike_cons_iff.1 h
      simp only [leadingName?, isIdentifier_outline (congrArg Lexeme.outline hlex),
        (Token.lexeme_inj hlex).2]

theorem Alike.skipIfExists {a b : List Token} (h : Alike a b) :
    Alike (skipIfExists a) (skipIfExists b) := by
  simp only [AuroraMigration.skipIfExists, startsWith_congr h]
  split
  · exact h.drop 2
  · exact h

theorem markerOfTokens_congr {a b : List Token} (h : Alike a b) :
    Marker.ofTokens? a = Marker.ofTokens? b := by
  have hall : ∀ tokens : List Token,
      tokens.all (·.kind == .word) = (tokens.map Token.lexeme).all (·.kind == .word) := by
    intro tokens
    rw [List.all_map]
    rfl
  have hupper : ∀ tokens : List Token, tokens.map (fun token => Text.asciiUpper token.text) =
      (tokens.map Token.lexeme).map fun lexeme => Text.asciiUpper lexeme.text := by
    intro tokens
    rw [List.map_map]
    rfl
  unfold Alike at h
  simp only [Marker.ofTokens?, hall, hupper, h]

theorem clauseOfAdded_congr {a b : List Token} (h : Alike a b) :
    ClauseKind.ofAdded a = ClauseKind.ofAdded b := by
  simp only [ClauseKind.ofAdded, startsWith_congr h, leadingName?_congr h,
    leadingName?_congr (h.drop 1), mentionsForeignKey_outline (h.drop 2).sameOutline]

theorem clauseOfTokens_congr {a b : List Token} (h : Alike a b) :
    ClauseKind.ofTokens a = ClauseKind.ofTokens b := by
  simp only [ClauseKind.ofTokens, startsWith_congr h, leadingName?_congr (h.drop 2).skipIfExists,
    clauseOfAdded_congr (h.drop 1)]

end AuroraMigration
