import AuroraMigration.Proofs.Places
import Mathlib.Data.List.Pairwise

/-!
# Tokens among the steps of a scan

A step of a scan stands before a token, inside it or behind it, and inside it
only if it has the kind of the token. So the tokens part the steps: those that
are neither comment nor white space lie in one token each, the others in none,
and where two tokens touch, their kinds differ or both are symbols.
-/

namespace AuroraMigration

/-! ## A step and a token -/

theorem stepsText_isPrefix {xs ys : List Step} (h : xs <+: ys) : stepsText xs <+: stepsText ys := by
  obtain ⟨later, rfl⟩ := h
  rw [stepsText_append]
  exact List.prefix_append _ _

theorem byteSize_le_of_isPrefix {xs ys : List Step} (h : xs <+: ys) :
    Text.byteSize (stepsText xs) ≤ Text.byteSize (stepsText ys) := by
  obtain ⟨later, hlater⟩ := stepsText_isPrefix h
  rw [← hlater, Text.byteSize_append]
  exact Nat.le_add_right _ _

/-- A step stands before the steps of a token, among them or behind them. -/
theorem TokenAt.beside {offset : Nat} {steps xs ts ys : List Step} {before after : List Token}
    {token : Token} (h : TokenAt offset steps before token after xs ts ys)
    {front later : List Step} {step : Step} (hstep : steps = front ++ step :: later) :
    (step ∈ xs ∧ front ++ [step] <+: xs) ∨
      (step ∈ ts ∧ xs <+: front ∧ front ++ [step] <+: xs ++ ts) ∨
      ∃ inner, front = xs ++ ts ++ inner ∧ ys = inner ++ step :: later := by
  have hsplit := h.split
  rw [hstep] at hsplit
  rcases List.append_eq_append_iff.1 hsplit with ⟨more, rfl, hmore⟩ | ⟨more, rfl, hmore⟩
  · cases more with
    | nil =>
        obtain ⟨first, inner, rfl⟩ := List.exists_cons_of_ne_nil h.nonempty
        obtain ⟨rfl, -⟩ := List.cons.inj hmore
        exact .inr (.inl ⟨List.mem_cons_self, by simp, by simp⟩)
    | cons first more =>
        obtain ⟨rfl, -⟩ := List.cons.inj hmore
        exact .inl ⟨by simp, ⟨more, by simp⟩⟩
  · rcases List.append_eq_append_iff.1 hmore with ⟨inner, rfl, hinner⟩ | ⟨inner, rfl, hinner⟩
    · exact .inr (.inr ⟨inner, by simp, hinner⟩)
    · cases inner with
      | nil => exact .inr (.inr ⟨[], by simp, by simpa using hinner.symm⟩)
      | cons first inner =>
          obtain ⟨rfl, -⟩ := List.cons.inj hinner
          exact .inr (.inl ⟨by simp, List.prefix_append _ _, ⟨inner, by simp⟩⟩)

/-- Two ranges of bytes of which one ends before the other starts. -/
def RangesApart (a b : Nat × Nat) : Prop :=
  a.2 ≤ b.1 ∨ b.2 ≤ a.1

/-- The bytes of the first range are among those of the second. -/
def RangeWithin (a b : Nat × Nat) : Prop :=
  b.1 ≤ a.1 ∧ a.2 ≤ b.2

theorem placedStep_filled {sql : Text} {placed : PlacedStep} (h : placed ∈ placedSteps sql) :
    placed.range.1 < placed.range.2 := by
  obtain ⟨xs, ys, -, hrange⟩ := range_of_mem_placedSteps h
  have hpos := placed.step.byteSize_chars_pos
  rw [hrange, byteSize_stepsText_concat]
  omega

/-- A step and a token have no byte in common, or the step is one of the steps of the token. -/
theorem placedStep_beside {sql : Text} {placed : PlacedStep} (hplaced : placed ∈ placedSteps sql)
    {token : Token} (htoken : token ∈ tokenize sql) :
    RangesApart placed.range (token.byteRange sql) ∨
      (RangeWithin placed.range (token.byteRange sql) ∧
        placed.step.tokenKind? = some token.kind) := by
  obtain ⟨front, later, hscan, hrange⟩ := range_of_mem_placedSteps hplaced
  obtain ⟨before, after, xs, ts, ys, hat⟩ := tokenAt_of_mem htoken
  rw [hrange, hat.byteRange]
  rcases hat.beside hscan with ⟨-, hbefore⟩ | ⟨hmem, hfront, hback⟩ | ⟨inner, hbehind, -⟩
  · exact .inl (.inl (byteSize_le_of_isPrefix hbefore))
  · exact .inr ⟨⟨byteSize_le_of_isPrefix hfront, byteSize_le_of_isPrefix hback⟩, hat.kinds _ hmem⟩
  · exact .inl (.inr (byteSize_le_of_isPrefix ⟨inner, hbehind.symm⟩))

/-! ## All tokens -/

theorem tokenAt_first {offset : Nat} {steps : List Step} {token : Token} {rest : List Token}
    (h : tokensFrom offset steps = token :: rest) :
    ∃ xs ts ys, TokenAt offset steps [] token rest xs ts ys :=
  tokenAt_of_tokensFrom (show tokensFrom offset steps = [] ++ token :: rest from h)

/-- A step that is neither comment nor white space is one of the steps of a token. -/
theorem exists_token_of_significant {offset : Nat} {steps front later : List Step} {step : Step}
    (hsteps : steps = front ++ step :: later) (hsig : step.isSignificant = true) :
    ∃ token ∈ tokensFrom offset steps, token.start ≤ offset + (stepsText front).length ∧
      offset + (stepsText (front ++ [step])).length ≤ token.stop := by
  induction htokens : tokensFrom offset steps generalizing offset steps front with
  | nil =>
      have hinert := (tokensFrom_eq_nil_iff offset steps).1 htokens step (by simp [hsteps])
      rw [hsig] at hinert
      cases hinert
  | cons token rest ih =>
      obtain ⟨xs, ts, ys, hat⟩ := tokenAt_first htokens
      rcases hat.beside hsteps with ⟨hmem, -⟩ | ⟨-, hfront, hback⟩ | ⟨inner, hfront, hys⟩
      · have hinert := (tokensFrom_eq_nil_iff offset xs).1 hat.earlier step hmem
        rw [hsig] at hinert
        cases hinert
      · have hstart := (stepsText_isPrefix hfront).length_le
        have hstop := (stepsText_isPrefix hback).length_le
        refine ⟨token, List.mem_cons_self, ?_, ?_⟩
        · rw [← hat.start]
          omega
        · rw [← hat.length]
          omega
      · obtain ⟨found, hfound, hstart, hstop⟩ := ih hys hat.later
        have hplace := hat.length
        have hlength : offset + (stepsText front).length =
            token.stop + (stepsText inner).length := by
          rw [hfront, stepsText_append _ inner, List.length_append]
          omega
        refine ⟨found, List.mem_cons_of_mem token hfound, by omega, ?_⟩
        rw [stepsText_append, List.length_append] at hstop ⊢
        omega

theorem tokenKind?_of_start {offset : Nat} {steps : List Step} {token : Token}
    (h : token ∈ tokensFrom offset steps) (hstart : token.start = offset) :
    steps.head?.bind Step.tokenKind? = some token.kind := by
  obtain ⟨before, after, xs, ts, ys, hat⟩ := tokenAt_of_mem h
  have hplace := hat.start
  have hxs : xs = [] := by
    rw [← stepsText_eq_nil_iff, ← List.length_eq_zero_iff]
    omega
  obtain ⟨first, inner, rfl⟩ := List.exists_cons_of_ne_nil hat.nonempty
  rw [hat.split, hxs]
  exact hat.kinds first List.mem_cons_self

/-- Tokens follow each other, and those that touch differ in kind or are symbols. -/
theorem tokensFrom_pairwise (offset : Nat) (steps : List Step) :
    (tokensFrom offset steps).Pairwise fun t u =>
      t.stop ≤ u.start ∧ (t.stop = u.start → t.kind = u.kind → t.kind = .symbol) := by
  induction htokens : tokensFrom offset steps generalizing offset steps with
  | nil => exact List.Pairwise.nil
  | cons token rest ih =>
      obtain ⟨xs, ts, ys, hat⟩ := tokenAt_first htokens
      refine List.pairwise_cons.2 ⟨fun next hnext => ?_, ih _ _ hat.later⟩
      rw [← hat.later] at hnext
      refine ⟨tokensFrom_start_ge hnext, fun htouch hkind => ?_⟩
      by_contra hsymbol
      have hhead := tokenKind?_of_start hnext htouch.symm
      rw [← hkind] at hhead
      exact hat.apart htokens hsymbol hhead

/-- A symbol is one step. -/
theorem TokenAt.symbol {offset : Nat} {steps xs ts ys : List Step} {before after : List Token}
    {token : Token} (h : TokenAt offset steps before token after xs ts ys)
    (htokens : tokensFrom offset steps = before ++ token :: after)
    (hsymbol : token.kind = .symbol) : ∃ step, ts = [step] := by
  obtain ⟨step, more, rfl⟩ := List.exists_cons_of_ne_nil h.nonempty
  have hkinds := h.kinds
  rw [hsymbol] at hkinds
  have hstep := hkinds step List.mem_cons_self
  have hleft : Parted xs ([step] ++ more) := parted_of_symbol_right (by simpa using hstep)
  have hright : Parted [step] more := parted_of_symbol_left (by simpa using hstep)
  have hself : ∀ place, (tokensFrom place [step]).length = 1 := by
    intro place
    simp [tokensFrom, hstep, Token.attach]
  have hupTo := (h.upTo htokens).2
  rw [← List.singleton_append, tokensFrom_append hleft, tokensFrom_append hright,
    h.earlier] at hupTo
  have hlength := congrArg List.length (List.append_cancel_left hupTo)
  rw [List.length_append, hself, List.length_singleton] at hlength
  have hnone := List.length_eq_zero_iff.1 (Nat.add_eq_left.1 hlength)
  have hinert := (tokensFrom_eq_nil_iff _ more).1 hnone
  cases more with
  | nil => exact ⟨step, rfl⟩
  | cons next more =>
      have hkind := hkinds next (by simp)
      rw [(tokenKind?_eq_none_iff next).2 (hinert next List.mem_cons_self)] at hkind
      cases hkind

theorem Step.Shape.chars_of_symbol {step : Step} (h : step.Shape)
    (hkind : step.tokenKind? = some .symbol) : step.chars = [step.first] := by
  cases h with
  | code _ _ hmore => rw [Step.chars, hmore]
  | quoted _ hcls => cases hc : step.cls <;> simp_all [CharClass.isQuoted, Step.tokenKind?]
  | comment _ hcls => simp [Step.tokenKind?, hcls] at hkind

theorem length_symbol {sql : Text} {token : Token} (h : token ∈ tokenize sql)
    (hsymbol : token.kind = .symbol) : token.text.length = 1 := by
  obtain ⟨before, after, htokens⟩ := List.append_of_mem h
  obtain ⟨xs, ts, ys, hat⟩ := tokenAt_of_tokensFrom htokens
  obtain ⟨step, rfl⟩ := hat.symbol htokens hsymbol
  have hmem : step ∈ scan sql := by
    rw [hat.split]
    simp
  have hkind := hat.kinds step List.mem_cons_self
  rw [hsymbol] at hkind
  have hchars := ((trace_scan sql).shape step hmem).chars_of_symbol hkind
  rw [← hat.text, stepsText_cons, hchars]
  rfl

/-! ## Tokens in bytes -/

theorem byteSize_take_le (text : Text) {m n : Nat} (h : m ≤ n) :
    Text.byteSize (text.take m) ≤ Text.byteSize (text.take n) := by
  obtain ⟨rest, hrest⟩ := List.take_prefix_take_left (l := text) h
  rw [← hrest, Text.byteSize_append]
  exact Nat.le_add_right _ _

/-- Places of a text that have the same bytes before them are the same. -/
theorem eq_of_byteSize_take {text : Text} {m n : Nat} (hm : m ≤ n) (hn : n ≤ text.length)
    (h : Text.byteSize (text.take m) = Text.byteSize (text.take n)) : m = n := by
  have htake := Text.eq_of_byteSize_eq (List.take_prefix_take_left hm) h
  have hlength := congrArg List.length htake
  rw [List.length_take, List.length_take] at hlength
  omega

theorem byteRange_filled {sql : Text} {token : Token} (h : token ∈ tokenize sql) :
    token.text ≠ [] ∧ (token.byteRange sql).1 < (token.byteRange sql).2 := by
  obtain ⟨before, after, xs, ts, ys, hat⟩ := tokenAt_of_mem h
  obtain ⟨step, more, rfl⟩ := List.exists_cons_of_ne_nil hat.nonempty
  have hpos := step.byteSize_chars_pos
  refine ⟨?_, ?_⟩
  · rw [← hat.text, ne_eq, stepsText_eq_nil_iff]
    simp
  · rw [hat.byteRange, stepsText_append, stepsText_cons, Text.byteSize_append,
      Text.byteSize_append]
    omega

/-- A step that is neither comment nor white space lies in a token. -/
theorem exists_token_around {sql : Text} {placed : PlacedStep} (hplaced : placed ∈ placedSteps sql)
    (hsig : placed.step.isSignificant = true) :
    ∃ token ∈ tokenize sql, RangeWithin placed.range (token.byteRange sql) := by
  obtain ⟨front, later, hscan, hrange⟩ := range_of_mem_placedSteps hplaced
  have hexists := @exists_token_of_significant 0 _ _ _ _ hscan hsig
  simp only [Nat.zero_add] at hexists
  obtain ⟨token, htoken, hstart, hstop⟩ := hexists
  have htake : ∀ xs ys, scan sql = xs ++ ys → sql.take (stepsText xs).length = stepsText xs := by
    intro xs ys hsplit
    rw [← stepsText_scan sql, hsplit, stepsText_append, List.take_left]
  refine ⟨token, htoken, ?_⟩
  rw [hrange, ← htake front _ hscan, ← htake (front ++ [placed.step]) later (by simp [hscan])]
  exact ⟨byteSize_take_le sql hstart, byteSize_take_le sql hstop⟩

/-- The first token ends before the second one, and where they touch they differ in kind or are
symbols. -/
structure Token.Precedes (sql : Text) (t u : Token) : Prop where
  ordered : (t.byteRange sql).2 ≤ (u.byteRange sql).1
  touching : (t.byteRange sql).2 = (u.byteRange sql).1 → t.kind = u.kind → t.kind = .symbol

theorem tokenize_pairwise (sql : Text) : (tokenize sql).Pairwise (Token.Precedes sql) := by
  refine (tokensFrom_pairwise 0 (scan sql)).imp_of_mem ?_
  intro t u _ hu hpair
  refine ⟨byteSize_take_le sql hpair.1, fun htouch => hpair.2 ?_⟩
  have hstart : u.start ≤ sql.length := le_trans (Nat.le_add_right _ _) (Token.stop_le_length hu)
  exact eq_of_byteSize_take hpair.1 hstart htouch

/-- Of two tokens one precedes the other. -/
theorem precedes_of_ne {sql : Text} {t u : Token} (ht : t ∈ tokenize sql) (hu : u ∈ tokenize sql)
    (hne : t ≠ u) : Token.Precedes sql t u ∨ Token.Precedes sql u t := by
  have heither : (tokenize sql).Pairwise fun t u =>
      Token.Precedes sql t u ∨ Token.Precedes sql u t :=
    (tokenize_pairwise sql).imp .inl
  have hsymm : Std.Symm fun t u => Token.Precedes sql t u ∨ Token.Precedes sql u t :=
    ⟨fun _ _ => Or.symm⟩
  exact heither.forall ht hu hne

/--
The tokens of a text part what is neither comment nor white space.

Each token is a slice of the text that is not empty, and the tokens follow each
other. A step that is neither comment nor white space lies in exactly one token,
any other step has no byte in common with a token, and the steps in a token are
of its kind. A symbol is one character, and two tokens of one kind that touch are
symbols.
-/
theorem tokens_part_text (sql : Text) :
    (∀ token ∈ tokenize sql, token.text ≠ [] ∧
      (token.byteRange sql).1 < (token.byteRange sql).2 ∧
      Text.slice? sql (token.byteRange sql) = some token.text ∧
      (token.kind = .symbol → token.text.length = 1)) ∧
    (tokenize sql).Pairwise (fun t u => (t.byteRange sql).2 ≤ (u.byteRange sql).1) ∧
    (∀ placed ∈ placedSteps sql,
      (placed.step.isSignificant = true →
        ∃! token, token ∈ tokenize sql ∧ RangeWithin placed.range (token.byteRange sql)) ∧
      (placed.step.isSignificant = false →
        ∀ token ∈ tokenize sql, RangesApart placed.range (token.byteRange sql)) ∧
      ∀ token ∈ tokenize sql, ¬ RangesApart placed.range (token.byteRange sql) →
        placed.step.tokenKind? = some token.kind) ∧
    ∀ t ∈ tokenize sql, ∀ u ∈ tokenize sql, (t.byteRange sql).2 = (u.byteRange sql).1 →
      t.kind = u.kind → t.kind = .symbol := by
  refine ⟨fun token htoken => ?_, (tokenize_pairwise sql).imp Token.Precedes.ordered,
    fun placed hplaced => ⟨fun hsig => ?_, fun hinert token htoken => ?_,
      fun token htoken hmeet => ?_⟩, fun t ht u hu htouch hkind => ?_⟩
  · obtain ⟨hne, hfilled⟩ := byteRange_filled htoken
    exact ⟨hne, hfilled, (slice?_token htoken).2, length_symbol htoken⟩
  · obtain ⟨token, htoken, haround⟩ := exists_token_around hplaced hsig
    refine ⟨token, ⟨htoken, haround⟩, ?_⟩
    rintro other ⟨hother, hwithin⟩
    by_contra hne
    have hfilled := placedStep_filled hplaced
    unfold RangeWithin at haround hwithin
    rcases precedes_of_ne htoken hother (Ne.symm hne) with horder | horder
    · have hordered := horder.ordered
      omega
    · have hordered := horder.ordered
      omega
  · rcases placedStep_beside hplaced htoken with hapart | ⟨-, hkind⟩
    · exact hapart
    · rw [(tokenKind?_eq_none_iff _).2 hinert] at hkind
      cases hkind
  · exact ((placedStep_beside hplaced htoken).resolve_left hmeet).2
  · have hfilled := (byteRange_filled ht).2
    have hfilled' := (byteRange_filled hu).2
    have hne : t ≠ u := by
      rintro rfl
      omega
    rcases precedes_of_ne ht hu hne with horder | horder
    · exact horder.touching htouch hkind
    · have hordered := horder.ordered
      omega

/-- A string and a dollar quote that touch are one token, and two commas that touch are two. -/
theorem tokens_part_text_touching :
    (∃ placed ∈ placedSteps "'é'$$b$$ ,,".toList, placed.range = (4, 6) ∧
      placed.step.isSignificant = true ∧
      ∃! token, token ∈ tokenize "'é'$$b$$ ,,".toList ∧
        RangeWithin (4, 6) (token.byteRange "'é'$$b$$ ,,".toList)) ∧
    ∃ t ∈ tokenize "'é'$$b$$ ,,".toList, ∃ u ∈ tokenize "'é'$$b$$ ,,".toList,
      (t.byteRange "'é'$$b$$ ,,".toList).2 = (u.byteRange "'é'$$b$$ ,,".toList).1 ∧
        t.kind = u.kind ∧ t.kind = .symbol := by
  have hplaced : ⟨⟨'$', ['$'], .dollar, ⟨.code, 0⟩, ⟨.dollar [], 0⟩⟩, (4, 6)⟩ ∈
      placedSteps "'é'$$b$$ ,,".toList := by
    decide +kernel
  have ht : ⟨.symbol, [','], 9⟩ ∈ tokenize "'é'$$b$$ ,,".toList := by decide +kernel
  have hu : ⟨.symbol, [','], 10⟩ ∈ tokenize "'é'$$b$$ ,,".toList := by decide +kernel
  have htouch : (Token.byteRange "'é'$$b$$ ,,".toList ⟨.symbol, [','], 9⟩).2 =
      (Token.byteRange "'é'$$b$$ ,,".toList ⟨.symbol, [','], 10⟩).1 := by
    decide +kernel
  obtain ⟨-, -, hsteps, htouching⟩ := tokens_part_text "'é'$$b$$ ,,".toList
  exact ⟨⟨_, hplaced, rfl, rfl, (hsteps _ hplaced).1 rfl⟩,
    ⟨_, ht, _, hu, htouch, rfl, htouching _ ht _ hu htouch rfl⟩⟩

end AuroraMigration
