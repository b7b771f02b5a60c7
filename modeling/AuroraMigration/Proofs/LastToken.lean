import AuroraMigration.Proofs.Closed
import AuroraMigration.Proofs.Regions

/-!
# The end of the last token

Freed of the comments and the white space at its end, a text reaches up to the
end of its last token. A cut behind whole steps leaves these steps as they are,
so the tokens stay; and where the last token ends can be told from the tokens
alone, so no shorter beginning of the text has the same ones.
-/

namespace AuroraMigration

/-! ## Bytes -/

theorem Text.byteSize_append (a b : Text) :
    Text.byteSize (a ++ b) = Text.byteSize a + Text.byteSize b := by
  induction a with
  | nil => simp [Text.byteSize]
  | cons c a ih => simp [Text.byteSize, ih, Nat.add_assoc]

/-- A beginning of a text that takes all the bytes of the text is the whole text. -/
theorem Text.eq_of_byteSize_eq {p text : Text} (h : p <+: text)
    (hsize : Text.byteSize p = Text.byteSize text) : p = text := by
  obtain ⟨rest, rfl⟩ := h
  cases rest with
  | nil => simp
  | cons c rest =>
      have hc := c.utf8Size_pos
      rw [Text.byteSize_append, Text.byteSize] at hsize
      omega

/-! ## Tokens and the steps around them -/

theorem tokensFrom_eq_nil_iff (offset : Nat) (steps : List Step) :
    tokensFrom offset steps = [] ↔ ∀ step ∈ steps, step.isSignificant = false := by
  rw [← lexemes_eq_nil_iff, ← tokensFrom_lexemes offset, List.map_eq_nil_iff]

theorem tokensFrom_append_inert {ys : List Step} (h : ∀ step ∈ ys, step.isSignificant = false)
    (offset : Nat) (xs : List Step) : tokensFrom offset (xs ++ ys) = tokensFrom offset xs := by
  have hparted : Parted xs ys := parted_of_right fun y hy => h y (List.mem_of_head? hy)
  rw [tokensFrom_append hparted, (tokensFrom_eq_nil_iff _ ys).2 h, List.append_nil]

theorem tokenize_trimComments (sql : Text) : tokenize (trimComments sql) = tokenize sql := by
  obtain ⟨tail, hsplit, htail⟩ := significantPart_split (scan sql)
  have hsame := tokensFrom_append_inert htail 0 (significantPart (scan sql))
  rw [← hsplit] at hsame
  rw [tokenize, scan_trimComments, ← hsame, tokenize]

theorem Token.stop_le_length {sql : Text} {token : Token} (h : token ∈ tokenize sql) :
    token.stop ≤ sql.length := by
  obtain ⟨before, after, htokens⟩ := List.append_of_mem h
  obtain ⟨xs, ts, ys, hat⟩ := tokenAt_of_tokensFrom htokens
  have hlength := hat.length
  have htext := congrArg (List.length ∘ stepsText) hat.split
  simp only [Function.comp_apply, stepsText_scan, stepsText_append, List.length_append] at htext
  rw [stepsText_append, List.length_append] at hlength
  omega

/-- A last step that belongs to a token ends the last token, which is of its kind. -/
theorem tokensFrom_last {steps : List Step} {step : Step} {kind : TokenKind}
    (hlast : steps.getLast? = some step) (hk : step.tokenKind? = some kind) (offset : Nat) :
    ∃ before token, tokensFrom offset steps = before ++ [token] ∧ token.kind = kind ∧
      token.stop = offset + (stepsText steps).length := by
  have hmem := List.mem_of_getLast? hlast
  have hsig : step.isSignificant ≠ false := by
    intro hinert
    simp [(tokenKind?_eq_none_iff step).2 hinert] at hk
  have hne : tokensFrom offset steps ≠ [] := fun hnil =>
    hsig ((tokensFrom_eq_nil_iff offset steps).1 hnil step hmem)
  rcases List.eq_nil_or_concat (tokensFrom offset steps) with hnil | ⟨before, token, htokens⟩
  · exact absurd hnil hne
  rw [List.concat_eq_append] at htokens
  obtain ⟨xs, ts, ys, hat⟩ := tokenAt_of_tokensFrom htokens
  have hinert := (tokensFrom_eq_nil_iff token.stop ys).1 hat.later
  have hys : ys = [] := by
    by_contra hys
    rw [hat.split, ← List.append_assoc, List.getLast?_append_of_ne_nil _ hys] at hlast
    exact hsig (hinert step (List.mem_of_getLast? hlast))
  have hsplit : steps = xs ++ ts := by rw [hat.split, hys, List.append_nil]
  refine ⟨before, token, htokens, ?_, by rw [hsplit, hat.length]⟩
  rw [hsplit, List.getLast?_append_of_ne_nil _ hat.nonempty] at hlast
  have hkind := hat.kinds step (List.mem_of_getLast? hlast)
  rw [hk, Option.some.injEq] at hkind
  exact hkind.symm

/-- No step of a token's kind stands right before the token. -/
theorem TokenAt.apart_before {offset : Nat} {steps xs ts ys : List Step}
    {before after : List Token} {token : Token}
    (h : TokenAt offset steps before token after xs ts ys)
    (htokens : tokensFrom offset steps = before ++ token :: after)
    (hsymbol : token.kind ≠ .symbol) {step : Step} (hlast : xs.getLast? = some step) :
    step.tokenKind? ≠ some token.kind := by
  intro hk
  obtain ⟨earlier, previous, hprevious, hkind, hstop⟩ := tokensFrom_last hlast hk offset
  rw [h.earlier] at hprevious
  have hchain := tokensFrom_apart offset steps
  rw [htokens, hprevious] at hchain
  have hapart := (List.isChain_append.1 hchain).2.2 previous (by simp) token (by simp)
  exact hapart ⟨hkind, hkind ▸ hsymbol, by rw [← h.start, hstop]⟩

/-- The last step that is neither comment nor white space ends the last token. -/
theorem length_significantPart (offset : Nat) (steps : List Step) :
    offset + (stepsText (significantPart steps)).length =
      ((tokensFrom offset steps).getLast?.map Token.stop).getD offset := by
  obtain ⟨tail, hsplit, htail⟩ := significantPart_split steps
  have hsame := tokensFrom_append_inert htail offset (significantPart steps)
  rw [← hsplit] at hsame
  rw [hsame]
  cases hlast : (significantPart steps).getLast? with
  | none =>
      rw [List.getLast?_eq_none_iff.1 hlast]
      rfl
  | some step =>
      have hsig := significantPart_last hlast
      cases hk : step.tokenKind? with
      | none => simp [(tokenKind?_eq_none_iff step).1 hk] at hsig
      | some kind =>
          obtain ⟨before, token, htokens, -, hstop⟩ := tokensFrom_last hlast hk offset
          rw [htokens, List.getLast?_concat, ← hstop]
          rfl

theorem length_trimComments (sql : Text) :
    (trimComments sql).length = ((tokenize sql).getLast?.map Token.stop).getD 0 := by
  have hlength := length_significantPart 0 (scan sql)
  rwa [Nat.zero_add] at hlength

theorem trimComments_isPrefix (sql : Text) : trimComments sql <+: sql := by
  obtain ⟨tail, hsplit, -⟩ := significantPart_split (scan sql)
  refine ⟨stepsText tail, ?_⟩
  have htext := congrArg stepsText hsplit
  rw [stepsText_scan, stepsText_append] at htext
  exact htext.symm

theorem trimComments_eq_take (sql : Text) :
    trimComments sql = sql.take (((tokenize sql).getLast?.map Token.stop).getD 0) := by
  rw [← length_trimComments]
  exact List.prefix_iff_eq_take.1 (trimComments_isPrefix sql)

/-! ## Tokens with their bytes -/

/-- The tokens of a text, each with the bytes it takes up. -/
def byteTokens (sql : Text) : List (Lexeme × Nat × Nat) :=
  (tokenize sql).map fun token => (token.lexeme, token.byteRange sql)

/-- The bytes before the end of the last token are those of the text that is kept. -/
theorem byteSize_trimComments (sql : Text) :
    Text.byteSize (trimComments sql) =
      ((byteTokens sql).getLast?.map fun entry => entry.2.2).getD 0 := by
  rw [trimComments_eq_take, byteTokens, List.getLast?_map]
  cases (tokenize sql).getLast? with
  | none => rfl
  | some token => rfl

/-- The bytes of a token are the same in every beginning of the text that holds it. -/
theorem Token.byteRange_prefix {p sql : Text} {token : Token} (hp : p <+: sql)
    (h : token.stop ≤ p.length) : token.byteRange p = token.byteRange sql := by
  obtain ⟨rest, rfl⟩ := hp
  have hstart : token.start ≤ p.length := le_trans (Nat.le_add_right _ _) h
  rw [Token.byteRange, Token.byteRange, List.take_append_of_le_length hstart,
    List.take_append_of_le_length h]

theorem byteTokens_of_tokenize {p sql : Text} (hp : p <+: sql) (h : tokenize p = tokenize sql) :
    byteTokens p = byteTokens sql := by
  unfold byteTokens
  rw [← h]
  refine List.map_congr_left fun token htoken => ?_
  rw [Token.byteRange_prefix hp (Token.stop_le_length htoken)]

/-- Beginnings of one text with the same tokens are kept up to the same place. -/
theorem trimComments_eq_of_byteTokens {p sql : Text} (hp : p <+: sql)
    (h : byteTokens p = byteTokens sql) : trimComments p = trimComments sql := by
  have hsize : Text.byteSize (trimComments p) = Text.byteSize (trimComments sql) := by
    rw [byteSize_trimComments, byteSize_trimComments, h]
  rcases List.prefix_or_prefix_of_prefix ((trimComments_isPrefix p).trans hp)
    (trimComments_isPrefix sql) with hprefix | hprefix
  · exact Text.eq_of_byteSize_eq hprefix hsize
  · exact (Text.eq_of_byteSize_eq hprefix hsize.symm).symm

/--
Of all beginnings of a text, the shortest that has the same tokens at the same
places, in characters and in bytes, is the text without the comments and the
white space at its end. So nothing more can be taken off, and the steps that are
taken off are whole and lie outside all quotes.
-/
theorem trimComments_shortest (sql : Text) :
    Shortest (fun p => tokenize p = tokenize sql) sql (trimComments sql) ∧
      Shortest (fun p => byteTokens p = byteTokens sql) sql (trimComments sql) ∧
      trimComments (trimComments sql) = trimComments sql ∧
      ∃ tail, scan sql = scan (trimComments sql) ++ tail ∧
        ∀ step ∈ tail, step.cls.isQuoted = false := by
  have hleast : ∀ p, p <+: trimComments sql → byteTokens p = byteTokens sql →
      p = trimComments sql := by
    intro p hp htokens
    have hkept := trimComments_eq_of_byteTokens (hp.trans (trimComments_isPrefix sql)) htokens
    have hback : trimComments sql <+: p := hkept ▸ trimComments_isPrefix p
    exact hp.eq_of_length_le hback.length_le
  refine ⟨⟨trimComments_isPrefix sql, tokenize_trimComments sql, fun p hp htokens => ?_⟩,
    ⟨trimComments_isPrefix sql, byteTokens_of_tokenize (trimComments_isPrefix sql)
      (tokenize_trimComments sql), hleast⟩, trimComments_idem sql, ?_⟩
  · exact hleast p hp (byteTokens_of_tokenize (hp.trans (trimComments_isPrefix sql)) htokens)
  · obtain ⟨tail, hsplit, htail⟩ := significantPart_split (scan sql)
    exact ⟨tail, by rw [scan_trimComments, ← hsplit], fun step hstep =>
      Step.not_quoted_of_inert (htail step hstep)⟩

end AuroraMigration
