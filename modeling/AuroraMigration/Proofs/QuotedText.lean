import AuroraMigration.Proofs.Splitting

/-!
# What becomes of quoted text

Strings, dollar-quoted blocks and quoted names are data, and splitting a
migration hands them on one by one and in order. It reads the text of a
statement line by line, though, and a line that ends in a carriage return and a
line feed ends in a line feed alone afterwards, inside quotes as outside. So
quoted text survives exactly where it holds no such line end.
-/

namespace AuroraMigration

/-! ## Carriage returns -/

theorem Text.dropReturns_eq_self_iff (text : Text) :
    Text.dropReturns text = text ↔ Text.hasPart "\r\n".toList text = false := by
  fun_induction Text.dropReturns text with
  | case1 => decide
  | case2 rest ih =>
      have hpart : Text.hasPart "\r\n".toList ('\r' :: '\n' :: rest) = true := rfl
      rw [hpart]
      simp
  | case3 c rest hreturn ih =>
      have hahead : "\r\n".toList.isPrefixOf (c :: rest) = false := by
        rw [← Bool.not_eq_true, List.isPrefixOf_iff_prefix]
        intro hahead
        obtain ⟨more, hmore⟩ := hahead
        obtain ⟨hc, hrest⟩ := List.cons.inj hmore
        exact hreturn more hc.symm hrest.symm
      rw [Text.hasPart, hahead, Bool.false_or, ← ih, List.cons.injEq]
      simp

/-! ## Quoted lexemes -/

/-- Whether a lexeme is a string, a dollar-quoted block or a quoted name. -/
def Lexeme.isQuoted (lexeme : Lexeme) : Bool :=
  lexeme.kind == .literal || lexeme.kind == .name

/-- The texts of the strings, dollar-quoted blocks and quoted names, delimiters included. -/
def quotedTexts (found : List Lexeme) : List Text :=
  (found.filter Lexeme.isQuoted).map Lexeme.text

theorem quotedTexts_flatten (groups : List (List Lexeme)) :
    quotedTexts groups.flatten = groups.flatMap quotedTexts := by
  induction groups with
  | nil => rfl
  | cons group groups ih =>
      rw [List.flatten_cons, List.flatMap_cons, ← ih]
      simp [quotedTexts]

theorem quotedTexts_dropReturns (found : List Lexeme) :
    quotedTexts (found.map Lexeme.dropReturns) = (quotedTexts found).map Text.dropReturns := by
  rw [quotedTexts, quotedTexts, List.filter_map, List.map_map, List.map_map]
  rfl

/-- A transaction marker is made of words. -/
theorem quotedTexts_marker {found : List Lexeme} (h : (Marker.ofLexemes? found).isNone = false) :
    quotedTexts found = [] := by
  have hwords : (found.map Lexeme.token).all (·.kind == .word) = true := by
    unfold Marker.ofLexemes? Marker.ofTokens? at h
    split at h
    · assumption
    · cases h
  rw [quotedTexts, List.map_eq_nil_iff, List.filter_eq_nil_iff]
  intro lexeme hlexeme
  have hword := List.all_eq_true.1 hwords lexeme.token (List.mem_map_of_mem hlexeme)
  have hkind : lexeme.kind = .word := by simpa [Lexeme.token] using hword
  simp [Lexeme.isQuoted, hkind]

/-- Cutting a text at separators takes no quoted text away, as a separator is a symbol. -/
theorem quotedTexts_pieces {c : Char} (hc : isSeparator c = true) (sql : Text) :
    ((pieceSteps c sql).map lexemes).flatMap quotedTexts = quotedTexts (lexemes (scan sql)) := by
  rw [← quotedTexts_flatten, ← List.flatMap_def, ← filter_separators hc, ← tokenize_lexemes,
    quotedTexts, quotedTexts, List.filter_map, List.filter_map, List.filter_filter]
  congr 2
  apply List.filter_congr
  intro token _
  cases hkind : token.kind <;> simp [Lexeme.isQuoted, Token.isSymbol, hkind]

/-! ## Quoted text of statements -/

theorem statements_quotedTexts {sql : Text} (hend : (scanEnd sql).mode.isQuoted = false) :
    (statements sql).flatMap (fun statement => quotedTexts (lexemes (scan statement.body))) =
      (quotedTexts (lexemes (scan sql))).map Text.dropReturns := by
  have hbodies := congrArg (List.flatMap fun body => quotedTexts (lexemes (scan body)))
    (statementsFrom_bodies false [] (fragments sql))
  rw [List.flatMap_map, List.flatMap_map, flatMap_filter] at hbodies
  · calc (statements sql).flatMap (fun statement => quotedTexts (lexemes (scan statement.body)))
        = ((fragments sql).map fun fragment => lexemes (scan fragment.body)).flatMap
            quotedTexts := by
          rw [List.flatMap_map]
          exact hbodies
      _ = ((pieceSteps ';' sql).map lexemes).flatMap
            (fun group => quotedTexts (group.map Lexeme.dropReturns)) := by
          rw [fragments_lexemes hend, List.flatMap_map, flatMap_filter]
          intro group _ hempty
          rw [Bool.not_eq_false', List.isEmpty_iff] at hempty
          rw [hempty]
          rfl
      _ = (((pieceSteps ';' sql).map lexemes).flatMap quotedTexts).map Text.dropReturns := by
          simp only [quotedTexts_dropReturns, List.map_flatMap]
      _ = (quotedTexts (lexemes (scan sql))).map Text.dropReturns := by
          rw [quotedTexts_pieces (by decide)]
  · intro fragment _ hmarker
    rw [marker?_eq] at hmarker
    exact quotedTexts_marker hmarker

/-- The quoted texts of a migration are those of its statements, in order, but for carriage
returns at line ends. They are unchanged exactly if none of them holds such a line end. -/
theorem quoted_text_survives {sql : Text} (hend : (scanEnd sql).mode.isQuoted = false) :
    (statements sql).flatMap
        (fun statement => quotedTexts ((tokenize statement.body).map Token.lexeme)) =
      (quotedTexts ((tokenize sql).map Token.lexeme)).map Text.dropReturns ∧
    ((statements sql).flatMap
        (fun statement => quotedTexts ((tokenize statement.body).map Token.lexeme)) =
      quotedTexts ((tokenize sql).map Token.lexeme) ↔
        ∀ text ∈ quotedTexts ((tokenize sql).map Token.lexeme),
          Text.hasPart "\r\n".toList text = false) := by
  simp only [tokenize_lexemes, statements_quotedTexts hend, true_and]
  conv_lhs => rhs; rw [← List.map_id (quotedTexts (lexemes (scan sql)))]
  rw [List.map_eq_map_iff]
  simp only [id_eq, Text.dropReturns_eq_self_iff]

/-- Line feeds, blanks before them, dashes and semicolons in quotes are kept, also where the lines
around them end in a carriage return and a line feed. -/
theorem quoted_text_survives_lines :
    (scanEnd "SELECT\r\n 'a  \n-- b;' AS \"c\nd\";\r\nDO $x$;\n$x$".toList).mode.isQuoted = false ∧
      (statements "SELECT\r\n 'a  \n-- b;' AS \"c\nd\";\r\nDO $x$;\n$x$".toList).flatMap
          (fun statement => quotedTexts ((tokenize statement.body).map Token.lexeme)) =
        quotedTexts ((tokenize
          "SELECT\r\n 'a  \n-- b;' AS \"c\nd\";\r\nDO $x$;\n$x$".toList).map Token.lexeme) :=
  ⟨by decide +kernel, (quoted_text_survives (by decide +kernel)).2.2 (by decide +kernel)⟩

/-- A carriage return before a line feed inside a string is lost. -/
theorem quoted_text_loses_return :
    (scanEnd "SELECT 'a\r\nb';".toList).mode.isQuoted = false ∧
      quotedTexts ((tokenize "SELECT 'a\r\nb';".toList).map Token.lexeme) = ["'a\r\nb'".toList] ∧
      (statements "SELECT 'a\r\nb';".toList).flatMap
          (fun statement => quotedTexts ((tokenize statement.body).map Token.lexeme)) =
        ["'a\nb'".toList] := by
  decide +kernel

end AuroraMigration
