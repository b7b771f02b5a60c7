import AuroraMigration.Proofs.SplitAgain
import AuroraMigration.Proofs.Outline

/-!
# Parts between commas

Cutting a text at the commas outside all parentheses takes these commas away and
no other token: the parts, read on their own, have the tokens that are left, in
order. And it is done once and for all, as a part has no such comma in it.
-/

namespace AuroraMigration

/-! ## Tokens of the parts -/

/-- The parts have the tokens of the pieces, as a piece that is left out has none. -/
theorem lexemes_commaParts {sql : Text} (hend : (scanEnd sql).mode.isQuoted = false) :
    (commaParts sql).flatMap (fun part => lexemes (scan part)) =
      (pieceSteps ',' sql).flatMap lexemes := by
  rw [commaParts_eq, flatMap_filter, List.flatMap_map]
  · apply List.flatMap_congr
    intro steps hsteps
    have hpiece : PieceOf ',' sql steps := pieceOf_of_mem (by decide) hsteps
    rw [lexemes_trim (scan_trim (hpiece.unquoted hend)).1, hpiece.scan]
  · intro part _ hempty
    rw [Bool.not_eq_false', List.isEmpty_iff] at hempty
    rw [hempty]
    rfl

/-- The lexemes but for the commas outside all parentheses, of which `depth` are open at the
start. -/
def withoutCommas : (depth : Nat) → List Lexeme → List Lexeme
  | _, [] => []
  | depth, lexeme :: rest =>
      if lexeme = ⟨.symbol, [',']⟩ ∧ depth = 0 then withoutCommas 0 rest
      else lexeme :: withoutCommas (lexeme.depthAfter depth) rest

theorem commaGroups_ne_nil (depth : Nat) (found : List Lexeme) : commaGroups depth found ≠ [] := by
  induction found generalizing depth with
  | nil => simp [commaGroups]
  | cons lexeme rest ih =>
      rw [commaGroups]
      split
      · simp
      · rw [ne_eq, List.modifyHead_eq_nil_iff]
        exact ih _

theorem flatten_commaGroups (depth : Nat) (found : List Lexeme) :
    (commaGroups depth found).flatten = withoutCommas depth found := by
  induction found generalizing depth with
  | nil => rfl
  | cons lexeme rest ih =>
      rw [commaGroups, withoutCommas]
      split
      · rw [List.flatten_cons, List.nil_append, ih]
      · obtain ⟨group, groups, hgroups⟩ :=
          List.exists_cons_of_ne_nil (commaGroups_ne_nil (lexeme.depthAfter depth) rest)
        rw [← ih, hgroups]
        rfl

/-- The pieces have all tokens but the commas outside all parentheses. -/
theorem lexemes_pieces (sql : Text) :
    (pieceSteps ',' sql).flatMap lexemes = withoutCommas 0 (lexemes (scan sql)) := by
  have hgroups : commaGroups 0 (lexemes (scan sql)) = (pieceSteps ',' sql).map lexemes :=
    commaGroups_lexemes (trace_scan sql)
  rw [← flatten_commaGroups, hgroups]
  rfl

/-! ## Parts of a part -/

theorem trim_trim (text : Text) : Text.trim (Text.trim text) = Text.trim text :=
  Text.trim_eq_self (fun _ hc => Text.trim_head hc) (fun _ hc => Text.trim_last hc)

/-- No comma of a part stands outside all parentheses, wherever the text ends. -/
theorem commaParts_of_mem {sql part : Text} (h : part ∈ commaParts sql) :
    part ≠ [] ∧ Text.trim part = part ∧ commaParts part = [part] := by
  rw [commaParts_eq] at h
  obtain ⟨hmem, hfilled⟩ := List.mem_filter.1 h
  obtain ⟨steps, hsteps, rfl⟩ := List.mem_map.1 hmem
  have hpiece : PieceOf ',' sql steps := pieceOf_of_mem (by decide) hsteps
  have hcommas : ∀ step ∈ scan (Text.trim (stepsText steps)), step.isTopLevel ',' = false :=
    fun step hstep => hpiece.separators step (hpiece.trimmed.subset hstep)
  have hne : Text.trim (stepsText steps) ≠ [] := by simpa using hfilled
  refine ⟨hne, trim_trim _, ?_⟩
  rw [commaParts, piecesAt_eq_self hcommas, List.map_singleton, trim_trim, List.filter_eq_self]
  intro text htext
  rw [List.mem_singleton.1 htext]
  exact hfilled

/--
Cutting a text at commas is lossless and final.

If the text does not end in quotes, the tokens of its parts are the tokens of the
text but for the commas in code and outside all parentheses; the parentheses may
be counted by the scan or among the tokens. Wherever the text ends, a part is not
empty, is trimmed and is its own only part.
-/
theorem comma_parts_lossless (sql : Text) :
    ((scanEnd sql).mode.isQuoted = false →
      (commaParts sql).flatMap (fun part => (tokenize part).map Token.lexeme) =
        ((tokenize sql).filter fun token => !(token.isSymbol ',' &&
          (separatorPlaces ',' 0 (scan sql)).contains token.start)).map Token.lexeme ∧
      (commaParts sql).flatMap (fun part => (tokenize part).map Token.lexeme) =
        withoutCommas 0 ((tokenize sql).map Token.lexeme)) ∧
    ∀ part ∈ commaParts sql, part ≠ [] ∧ Text.trim part = part ∧ commaParts part = [part] := by
  refine ⟨fun hend => ?_, fun part hpart => commaParts_of_mem hpart⟩
  simp only [tokenize_lexemes]
  rw [filter_separators (by decide), lexemes_commaParts hend]
  exact ⟨rfl, lexemes_pieces sql⟩

/-- A parenthesis that closes none, commas in parentheses, in a comment and in a string, and a part
of blanks. -/
theorem comma_parts_lossless_comment :
    (scanEnd "a), f(b,c) -- ,\n, ,'x,y'".toList).mode.isQuoted = false ∧
      (commaParts "a), f(b,c) -- ,\n, ,'x,y'".toList).flatMap
          (fun part => (tokenize part).map Token.lexeme) =
        withoutCommas 0 ((tokenize "a), f(b,c) -- ,\n, ,'x,y'".toList).map Token.lexeme) ∧
      "f(b,c) -- ,".toList ∈ commaParts "a), f(b,c) -- ,\n, ,'x,y'".toList ∧
      commaParts "f(b,c) -- ,".toList = ["f(b,c) -- ,".toList] := by
  have hend : (scanEnd "a), f(b,c) -- ,\n, ,'x,y'".toList).mode.isQuoted = false := by
    decide +kernel
  have hpart : "f(b,c) -- ,".toList ∈ commaParts "a), f(b,c) -- ,\n, ,'x,y'".toList := by
    decide +kernel
  obtain ⟨htokens, hparts⟩ := comma_parts_lossless "a), f(b,c) -- ,\n, ,'x,y'".toList
  exact ⟨hend, (htokens hend).2, hpart, (hparts _ hpart).2.2⟩

end AuroraMigration
