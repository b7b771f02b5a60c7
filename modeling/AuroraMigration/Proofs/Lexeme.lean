import AuroraMigration.Proofs.Trace
import AuroraMigration.Sql.Token
import Mathlib.Data.List.Chain

/-!
# Tokens without their places

A lexeme is the kind and the text of a token. The lexemes of a list of steps
depend on the steps alone, not on what stands before them, so they can be put
together and cut where no token crosses the joint. Places are needed only to cut
a text at a token; the stretch of steps that a token is tells where that is.
-/

namespace AuroraMigration

/-- A token without its place. -/
structure Lexeme where
  kind : TokenKind
  text : Text
  deriving DecidableEq, Repr

/-- What a token is, wherever it stands. -/
def Token.lexeme (token : Token) : Lexeme :=
  ⟨token.kind, token.text⟩

@[simp] theorem Token.lexeme_kind (token : Token) : token.lexeme.kind = token.kind := rfl

@[simp] theorem Token.lexeme_text (token : Token) : token.lexeme.text = token.text := rfl

/-- Whether two steps, one right after the other, belong to one token. -/
def Step.joins (step next : Step) : Bool :=
  step.tokenKind?.any fun kind => kind != .symbol && next.tokenKind? == some kind

/-- Put a step in front of the lexemes of the steps after it. -/
def Lexeme.attach (kind : TokenKind) (text : Text) (joined : Bool) : List Lexeme → List Lexeme
  | [] => [⟨kind, text⟩]
  | next :: rest =>
      if joined then ⟨kind, text ++ next.text⟩ :: rest else ⟨kind, text⟩ :: next :: rest

/-- The lexemes of consecutive steps. -/
def lexemes : List Step → List Lexeme
  | [] => []
  | step :: later =>
      match step.tokenKind? with
      | none => lexemes later
      | some kind =>
          Lexeme.attach kind step.chars (later.head?.any step.joins) (lexemes later)

@[simp] theorem lexemes_nil : lexemes [] = [] := rfl

theorem lexemes_cons_none {step : Step} (h : step.tokenKind? = none) (later : List Step) :
    lexemes (step :: later) = lexemes later := by
  simp [lexemes, h]

theorem lexemes_cons_some {step : Step} {kind : TokenKind} (h : step.tokenKind? = some kind)
    (later : List Step) :
    lexemes (step :: later) =
      Lexeme.attach kind step.chars (later.head?.any step.joins) (lexemes later) := by
  simp [lexemes, h]

/-! ## Tokens and lexemes -/

theorem tokenKind?_eq_none_iff (step : Step) :
    step.tokenKind? = none ↔ step.isSignificant = false := by
  unfold Step.tokenKind? Step.isSignificant
  cases step.cls with
  | code =>
      cases hb : isBlank step.first
      · simp only [Bool.false_eq_true, if_false, Bool.not_false]
        split <;> simp
      · simp
  | string => simp
  | name => simp
  | dollar => simp
  | comment => simp

/-- Whether a step joins the next one depends on the kinds of both only. -/
theorem Step.any_joins (step : Step) (later : List Step) :
    later.head?.any step.joins =
      step.tokenKind?.any fun kind =>
        kind != .symbol && later.head?.bind Step.tokenKind? == some kind := by
  cases later with
  | nil => cases step.tokenKind? <;> simp
  | cons next later => rfl

@[simp] theorem step_chars_length_pos (step : Step) : 0 < step.chars.length := by
  simp [Step.chars]

theorem Token.attach_mem_start {token : Token} {later : List Token} {t : Token}
    (h : t ∈ token.attach later) : t.start = token.start ∨ t ∈ later := by
  cases later with
  | nil => simp_all [Token.attach]
  | cons next rest =>
      simp only [Token.attach] at h
      split at h
      · rcases List.mem_cons.1 h with rfl | h
        · exact .inl rfl
        · exact .inr (List.mem_cons_of_mem _ h)
      · rcases List.mem_cons.1 h with rfl | h
        · exact .inl rfl
        · exact .inr h

theorem tokensFrom_start_ge {offset : Nat} {steps : List Step} {t : Token}
    (h : t ∈ tokensFrom offset steps) : offset ≤ t.start := by
  induction steps generalizing offset with
  | nil => simp [tokensFrom] at h
  | cons step later ih =>
      unfold tokensFrom at h
      cases hk : step.tokenKind? with
      | none =>
          simp only [hk] at h
          have := ih h
          omega
      | some kind =>
          simp only [hk] at h
          rcases Token.attach_mem_start h with hstart | h
          · simp [hstart]
          · have := ih h
            omega

/-- The first token starts with the first step exactly if that step belongs to a token. -/
theorem tokensFrom_head (offset : Nat) (steps : List Step) :
    (∀ kind, steps.head?.bind Step.tokenKind? = some kind →
      ∃ t ts, tokensFrom offset steps = t :: ts ∧ t.kind = kind ∧ t.start = offset) ∧
    (steps.head?.bind Step.tokenKind? = none →
      ∀ t ∈ tokensFrom offset steps, offset < t.start) := by
  cases steps with
  | nil => simp [tokensFrom]
  | cons step later =>
      cases hk : step.tokenKind? with
      | none =>
          refine ⟨by simp [hk], ?_⟩
          intro _ t ht
          simp only [tokensFrom, hk] at ht
          have hge := tokensFrom_start_ge ht
          have hpos := step_chars_length_pos step
          omega
      | some kind =>
          refine ⟨?_, by simp [hk]⟩
          intro kind' hkind'
          simp only [List.head?_cons, Option.bind_some, hk, Option.some.injEq] at hkind'
          subst hkind'
          simp only [tokensFrom, hk]
          cases tokensFrom (offset + step.chars.length) later with
          | nil => exact ⟨_, _, rfl, rfl, rfl⟩
          | cons next rest =>
              simp only [Token.attach]
              split <;> exact ⟨_, _, rfl, rfl, rfl⟩

/-- Whether a token and the next one are one run of steps. -/
def Token.Meets (token next : Token) : Prop :=
  token.kind = next.kind ∧ token.kind ≠ .symbol ∧ next.start = token.stop

theorem Token.attach_meets {token next : Token} (h : token.Meets next) (rest : List Token) :
    token.attach (next :: rest) = { token with text := token.text ++ next.text } :: rest :=
  if_pos h

theorem Token.attach_apart {token : Token} {later : List Token}
    (h : ∀ next, later.head? = some next → ¬ token.Meets next) :
    token.attach later = token :: later := by
  cases later with
  | nil => rfl
  | cons next rest => exact if_neg (h next rfl)

/-- A step lengthens the token after it exactly if both steps at the joint belong to one token. -/
theorem Token.meets_head {offset : Nat} {step : Step} {kind : TokenKind}
    (hk : step.tokenKind? = some kind) {later : List Step} {next : Token}
    (hnext : (tokensFrom (offset + step.chars.length) later).head? = some next) :
    Token.Meets ⟨kind, step.chars, offset⟩ next ↔ later.head?.any step.joins = true := by
  obtain ⟨hsome, hnone⟩ := tokensFrom_head (offset + step.chars.length) later
  rw [Step.any_joins, hk]
  cases hl : later.head?.bind Step.tokenKind? with
  | none =>
      have hlt := hnone hl next (List.mem_of_head? hnext)
      simp only [Token.Meets, Token.stop, Option.any_some, Bool.and_eq_true]
      constructor
      · rintro ⟨-, -, hstart⟩
        omega
      · rintro ⟨-, h⟩
        cases h
  | some kind' =>
      obtain ⟨t, ts, ht, hkind, hstart⟩ := hsome kind' hl
      rw [ht, List.head?_cons, Option.some.injEq] at hnext
      subst hnext
      simp only [Token.Meets, Token.stop, hkind, hstart, Option.any_some, Bool.and_eq_true,
        bne_iff_ne, beq_iff_eq, Option.some.injEq]
      constructor
      · rintro ⟨hsame, hsymbol, -⟩
        exact ⟨hsymbol, hsame.symm⟩
      · rintro ⟨hsymbol, hsame⟩
        exact ⟨hsame.symm, hsymbol, trivial⟩

theorem Token.attach_lexeme {offset : Nat} {step : Step} {kind : TokenKind}
    (hk : step.tokenKind? = some kind) (later : List Step) :
    (Token.attach ⟨kind, step.chars, offset⟩
        (tokensFrom (offset + step.chars.length) later)).map Token.lexeme =
      Lexeme.attach kind step.chars (later.head?.any step.joins)
        ((tokensFrom (offset + step.chars.length) later).map Token.lexeme) := by
  cases ht : tokensFrom (offset + step.chars.length) later with
  | nil => rfl
  | cons next rest =>
      have hnext : (tokensFrom (offset + step.chars.length) later).head? = some next := by
        rw [ht]
        rfl
      have hiff := Token.meets_head hk hnext
      by_cases hmeets : Token.Meets ⟨kind, step.chars, offset⟩ next
      · rw [Token.attach_meets hmeets, hiff.1 hmeets]
        rfl
      · have hjoin : later.head?.any step.joins = false := by
          cases hj : later.head?.any step.joins
          · rfl
          · exact absurd (hiff.2 hj) hmeets
        rw [Token.attach_apart (by simpa using hmeets), hjoin]
        rfl

/-- The lexemes of steps are their tokens without the places. -/
theorem tokensFrom_lexemes (offset : Nat) (steps : List Step) :
    (tokensFrom offset steps).map Token.lexeme = lexemes steps := by
  induction steps generalizing offset with
  | nil => rfl
  | cons step later ih =>
      cases hk : step.tokenKind? with
      | none => simp [tokensFrom, hk, lexemes_cons_none hk, ih]
      | some kind =>
          rw [lexemes_cons_some hk, ← ih (offset + step.chars.length), ← Token.attach_lexeme hk]
          simp [tokensFrom, hk]

theorem tokenize_lexemes (sql : Text) : (tokenize sql).map Token.lexeme = lexemes (scan sql) :=
  tokensFrom_lexemes 0 (scan sql)

theorem tokenize_isEmpty (sql : Text) :
    (tokenize sql).isEmpty = true ↔ lexemes (scan sql) = [] := by
  rw [← tokenize_lexemes, List.map_eq_nil_iff, List.isEmpty_iff]

theorem Lexeme.attach_ne_nil (kind : TokenKind) (text : Text) (joined : Bool)
    (later : List Lexeme) : Lexeme.attach kind text joined later ≠ [] := by
  cases later with
  | nil => simp [Lexeme.attach]
  | cons next rest => cases joined <;> simp [Lexeme.attach]

/-- Steps that are comment or white space are all that hold no token. -/
theorem lexemes_eq_nil_iff (steps : List Step) :
    lexemes steps = [] ↔ ∀ step ∈ steps, step.isSignificant = false := by
  induction steps with
  | nil => simp
  | cons step later ih =>
      cases hk : step.tokenKind? with
      | none =>
          have hstep := (tokenKind?_eq_none_iff step).1 hk
          rw [lexemes_cons_none hk, ih]
          simp [hstep]
      | some kind =>
          rw [lexemes_cons_some hk]
          constructor
          · intro h
            exact absurd h (Lexeme.attach_ne_nil _ _ _ _)
          · intro h
            rw [(tokenKind?_eq_none_iff step).2 (h step List.mem_cons_self)] at hk
            cases hk

/-- Steps of one kind are one token. -/
theorem tokensFrom_of_kind {kind : TokenKind} (hkind : kind ≠ .symbol) {steps : List Step}
    (hne : steps ≠ []) (h : ∀ step ∈ steps, step.tokenKind? = some kind) (offset : Nat) :
    tokensFrom offset steps = [⟨kind, stepsText steps, offset⟩] := by
  induction steps generalizing offset with
  | nil => exact absurd rfl hne
  | cons step later ih =>
      have hstep := h step List.mem_cons_self
      have hlater : ∀ x ∈ later, x.tokenKind? = some kind :=
        fun x hx => h x (List.mem_cons_of_mem step hx)
      simp only [tokensFrom, hstep]
      cases later with
      | nil => simp [tokensFrom, Token.attach]
      | cons next later =>
          have hmeets : Token.Meets ⟨kind, step.chars, offset⟩
              ⟨kind, stepsText (next :: later), offset + step.chars.length⟩ := ⟨rfl, hkind, rfl⟩
          rw [ih (by simp) hlater]
          exact Token.attach_meets hmeets []

theorem lexemes_of_kind {kind : TokenKind} (hkind : kind ≠ .symbol) {steps : List Step}
    (hne : steps ≠ []) (h : ∀ step ∈ steps, step.tokenKind? = some kind) :
    lexemes steps = [⟨kind, stepsText steps⟩] := by
  rw [← tokensFrom_lexemes 0, tokensFrom_of_kind hkind hne h]
  rfl

/-! ## Joints -/

/-- No token crosses the joint between two lists of steps. -/
def Parted (xs ys : List Step) : Prop :=
  ∀ x, xs.getLast? = some x → ∀ y, ys.head? = some y → x.joins y = false

theorem parted_of_left {xs ys : List Step}
    (h : ∀ x, xs.getLast? = some x → x.isSignificant = false) : Parted xs ys := by
  intro x hx y _
  simp [Step.joins, (tokenKind?_eq_none_iff x).2 (h x hx)]

theorem parted_of_right {xs ys : List Step}
    (h : ∀ y, ys.head? = some y → y.isSignificant = false) : Parted xs ys := by
  intro x _ y hy
  cases hk : x.tokenKind? with
  | none => simp [Step.joins, hk]
  | some kind => simp [Step.joins, hk, (tokenKind?_eq_none_iff y).2 (h y hy)]

theorem parted_of_symbol_left {xs ys : List Step}
    (h : ∀ x, xs.getLast? = some x → x.tokenKind? = some .symbol) : Parted xs ys := by
  intro x hx y _
  simp [Step.joins, h x hx]

theorem parted_of_symbol_right {xs ys : List Step}
    (h : ∀ y, ys.head? = some y → y.tokenKind? = some .symbol) : Parted xs ys := by
  intro x _ y hy
  cases hk : x.tokenKind? with
  | none => simp [Step.joins, hk]
  | some kind => cases kind <;> simp [Step.joins, hk, h y hy]

theorem tokensFrom_append {xs ys : List Step} (h : Parted xs ys) (offset : Nat) :
    tokensFrom offset (xs ++ ys) =
      tokensFrom offset xs ++ tokensFrom (offset + (stepsText xs).length) ys := by
  induction xs generalizing offset with
  | nil => simp [tokensFrom]
  | cons step xs ih =>
      have hlater : Parted xs ys := by
        intro x hx
        cases xs with
        | nil => simp at hx
        | cons x' xs => exact h x (by simpa [List.getLast?_cons_cons] using hx)
      have ih := ih hlater (offset + step.chars.length)
      have hoffset : offset + (stepsText (step :: xs)).length =
          offset + step.chars.length + (stepsText xs).length := by
        simp [Nat.add_assoc]
      rw [List.cons_append, hoffset]
      cases hk : step.tokenKind? with
      | none => simp only [tokensFrom, hk, ih]
      | some kind =>
          simp only [tokensFrom, hk, ih]
          cases ht : tokensFrom (offset + step.chars.length) xs with
          | cons next rest =>
              by_cases hmeets : Token.Meets ⟨kind, step.chars, offset⟩ next
              · rw [List.cons_append, Token.attach_meets hmeets, Token.attach_meets hmeets]
                rfl
              · rw [List.cons_append, Token.attach_apart (by simpa using hmeets),
                  Token.attach_apart (by simpa using hmeets)]
                rfl
          | nil =>
              rw [ht, List.nil_append] at ih
              have hjoin : (xs ++ ys).head?.any step.joins = false := by
                cases xs with
                | nil =>
                    cases hy : ys.head? with
                    | none => simp [hy]
                    | some y => simpa [hy] using h step (by simp) y hy
                | cons x xs =>
                    have hlex := tokensFrom_lexemes (offset + step.chars.length) (x :: xs)
                    rw [ht] at hlex
                    have hsig := (lexemes_eq_nil_iff (x :: xs)).1 hlex.symm x List.mem_cons_self
                    simp [Step.joins, hk, (tokenKind?_eq_none_iff x).2 hsig]
              rw [List.nil_append, ← ih]
              apply Token.attach_apart
              intro next hnext hmeets
              rw [(Token.meets_head hk hnext).1 hmeets] at hjoin
              cases hjoin

theorem lexemes_append {xs ys : List Step} (h : Parted xs ys) :
    lexemes (xs ++ ys) = lexemes xs ++ lexemes ys := by
  rw [← tokensFrom_lexemes 0 (xs ++ ys), tokensFrom_append h, List.map_append, tokensFrom_lexemes,
    tokensFrom_lexemes]

theorem lexemes_inert_append {xs : List Step} (h : ∀ step ∈ xs, step.isSignificant = false)
    (ys : List Step) : lexemes (xs ++ ys) = lexemes ys := by
  have hparted : Parted xs ys :=
    parted_of_left fun x hx => h x (List.mem_of_getLast? hx)
  rw [lexemes_append hparted, (lexemes_eq_nil_iff xs).2 h, List.nil_append]

theorem lexemes_append_inert {ys : List Step} (h : ∀ step ∈ ys, step.isSignificant = false)
    (xs : List Step) : lexemes (xs ++ ys) = lexemes xs := by
  have hparted : Parted xs ys :=
    parted_of_right fun y hy => h y (List.mem_of_head? hy)
  rw [lexemes_append hparted, (lexemes_eq_nil_iff ys).2 h, List.append_nil]

/-! ## The place of a token -/

theorem stepsText_eq_nil_iff (steps : List Step) : stepsText steps = [] ↔ steps = [] := by
  cases steps with
  | nil => simp
  | cons step later => simp [Step.chars]

/-- A token is a stretch of steps of its kind, between the steps of the tokens around it. -/
structure TokenAt (offset : Nat) (steps : List Step) (before : List Token) (token : Token)
    (after : List Token) (xs ts ys : List Step) : Prop where
  split : steps = xs ++ (ts ++ ys)
  start : offset + (stepsText xs).length = token.start
  text : stepsText ts = token.text
  nonempty : ts ≠ []
  kinds : ∀ step ∈ ts, step.tokenKind? = some token.kind
  earlier : tokensFrom offset xs = before
  later : tokensFrom token.stop ys = after

theorem TokenAt.length {offset : Nat} {steps xs ts ys : List Step} {before after : List Token}
    {token : Token} (h : TokenAt offset steps before token after xs ts ys) :
    offset + (stepsText (xs ++ ts)).length = token.stop := by
  rw [stepsText_append, List.length_append, h.text, Token.stop, ← h.start, Nat.add_assoc]

theorem TokenAt.cons {offset : Nat} {steps xs ts ys : List Step} {before before' after : List Token}
    {token : Token} {step : Step}
    (h : TokenAt (offset + step.chars.length) steps before token after xs ts ys)
    (hearlier : tokensFrom offset (step :: xs) = before') :
    TokenAt offset (step :: steps) before' token after (step :: xs) ts ys where
  split := by rw [h.split, List.cons_append]
  start := by
    rw [← h.start, stepsText_cons, List.length_append]
    omega
  text := h.text
  nonempty := h.nonempty
  kinds := h.kinds
  earlier := hearlier
  later := h.later

/-- A step in front of a token that it meets is the start of the token. -/
theorem TokenAt.lengthen {offset : Nat} {steps xs ts ys : List Step} {after : List Token}
    {next : Token} {step : Step} {kind : TokenKind} (hk : step.tokenKind? = some kind)
    (hmeets : Token.Meets ⟨kind, step.chars, offset⟩ next)
    (h : TokenAt (offset + step.chars.length) steps [] next after xs ts ys) :
    TokenAt offset (step :: steps) [] ⟨kind, step.chars ++ next.text, offset⟩ after []
      (step :: ts) ys := by
  obtain ⟨hkind, -, hstart⟩ := hmeets
  have hplace : next.start = offset + step.chars.length := hstart
  have hxs : xs = [] := by
    have hlen := h.start
    have hnil : stepsText xs = [] := List.eq_nil_of_length_eq_zero (by omega)
    exact (stepsText_eq_nil_iff xs).1 hnil
  refine ⟨by simp [h.split, hxs], rfl, by simp [h.text], by simp, ?_, rfl, ?_⟩
  · intro x hx
    rcases List.mem_cons.1 hx with rfl | hx
    · exact hk
    · rw [h.kinds x hx, ← hkind]
  · rw [← h.later]
    congr 1
    simp only [Token.stop, hplace, List.length_append]
    omega

theorem tokenAt_of_tokensFrom {offset : Nat} {steps : List Step} {before after : List Token}
    {token : Token} (h : tokensFrom offset steps = before ++ token :: after) :
    ∃ xs ts ys, TokenAt offset steps before token after xs ts ys := by
  induction steps generalizing offset before token with
  | nil => simp [tokensFrom] at h
  | cons step rest ih =>
      cases hk : step.tokenKind? with
      | none =>
          simp only [tokensFrom, hk] at h
          obtain ⟨xs, ts, ys, hat⟩ := ih h
          exact ⟨step :: xs, ts, ys, hat.cons (by simpa [tokensFrom, hk] using hat.earlier)⟩
      | some kind =>
          let first : Token := ⟨kind, step.chars, offset⟩
          have hcons : ∀ xs, tokensFrom offset (step :: xs) =
              first.attach (tokensFrom (offset + step.chars.length) xs) := by
            intro xs
            simp [tokensFrom, hk, first]
          rw [hcons] at h
          by_cases hmeets : ∃ next, (tokensFrom (offset + step.chars.length) rest).head? =
              some next ∧ first.Meets next
          · obtain ⟨next, hnext, hmeets⟩ := hmeets
            obtain ⟨others, hothers⟩ := List.head?_eq_some_iff.1 hnext
            rw [hothers, Token.attach_meets hmeets] at h
            cases before with
            | nil =>
                obtain ⟨rfl, rfl⟩ := List.cons.inj h
                obtain ⟨xs, ts, ys, hat⟩ := ih (show _ = [] ++ next :: others from hothers)
                exact ⟨[], step :: ts, ys, hat.lengthen hk hmeets⟩
            | cons b before =>
                obtain ⟨rfl, rfl⟩ := List.cons.inj h
                obtain ⟨xs, ts, ys, hat⟩ :=
                  ih (show _ = (next :: before) ++ token :: after from hothers)
                refine ⟨step :: xs, ts, ys, hat.cons ?_⟩
                rw [hcons, hat.earlier, Token.attach_meets hmeets]
          · have hapart : ∀ next, (tokensFrom (offset + step.chars.length) rest).head? =
                some next → ¬ first.Meets next := fun next hnext hm => hmeets ⟨next, hnext, hm⟩
            rw [Token.attach_apart hapart] at h
            cases before with
            | nil =>
                obtain ⟨rfl, rfl⟩ := List.cons.inj h
                refine ⟨[], [step], rest, rfl, rfl, by simp [first], by simp, ?_, rfl, rfl⟩
                intro x hx
                rw [List.mem_singleton.1 hx, hk]
            | cons b before =>
                obtain ⟨rfl, hrest⟩ := List.cons.inj h
                obtain ⟨xs, ts, ys, hat⟩ := ih hrest
                refine ⟨step :: xs, ts, ys, hat.cons ?_⟩
                rw [hcons, hat.earlier]
                apply Token.attach_apart
                intro next hnext
                apply hapart next
                rw [hrest]
                cases before <;> simp_all

theorem tokensFrom_apart (offset : Nat) (steps : List Step) :
    (tokensFrom offset steps).IsChain fun t u => ¬ t.Meets u := by
  induction steps generalizing offset with
  | nil => exact List.isChain_nil
  | cons step later ih =>
      have ih := ih (offset + step.chars.length)
      cases hk : step.tokenKind? with
      | none => simpa [tokensFrom, hk] using ih
      | some kind =>
          simp only [tokensFrom, hk]
          cases ht : tokensFrom (offset + step.chars.length) later with
          | nil => exact List.isChain_singleton _
          | cons next rest =>
              rw [ht] at ih
              by_cases hmeets : Token.Meets ⟨kind, step.chars, offset⟩ next
              · rw [Token.attach_meets hmeets]
                obtain ⟨hnext, hrest⟩ := List.isChain_cons.1 ih
                refine List.isChain_cons.2 ⟨fun u hu hu' => hnext u hu ?_, hrest⟩
                obtain ⟨hkind, hsymbol, hstart⟩ := hmeets
                obtain ⟨hkind', hsymbol', hstart'⟩ := hu'
                refine ⟨hkind.symm.trans hkind', hkind ▸ hsymbol', ?_⟩
                rw [hstart']
                simp [Token.stop, hstart, Nat.add_assoc]
              · rw [Token.attach_apart (by simpa using hmeets)]
                exact List.isChain_cons_cons.2 ⟨hmeets, ih⟩

/-- No step of a token's kind follows the token. -/
theorem TokenAt.apart {offset : Nat} {steps xs ts ys : List Step} {before after : List Token}
    {token : Token} (h : TokenAt offset steps before token after xs ts ys)
    (htokens : tokensFrom offset steps = before ++ token :: after)
    (hsymbol : token.kind ≠ .symbol) :
    ys.head?.bind Step.tokenKind? ≠ some token.kind := by
  intro hhead
  obtain ⟨u, us, hu, hkind, hstart⟩ := (tokensFrom_head token.stop ys).1 _ hhead
  have hchain := tokensFrom_apart offset steps
  rw [htokens, ← h.later, hu] at hchain
  have hpair := (List.isChain_append.1 hchain).2.1
  rw [List.isChain_cons_cons] at hpair
  exact hpair.1 ⟨hkind.symm, hsymbol, hstart⟩

/-- The tokens up to the end of a token, and no more. -/
theorem TokenAt.upTo {offset : Nat} {steps xs ts ys : List Step} {before after : List Token}
    {token : Token} (h : TokenAt offset steps before token after xs ts ys)
    (htokens : tokensFrom offset steps = before ++ token :: after) :
    Parted (xs ++ ts) ys ∧ tokensFrom offset (xs ++ ts) = before ++ [token] := by
  have hlast : ∀ x, (xs ++ ts).getLast? = some x → x.tokenKind? = some token.kind := by
    intro x hx
    rw [List.getLast?_append_of_ne_nil _ h.nonempty] at hx
    exact h.kinds x (List.mem_of_getLast? hx)
  have hparted : Parted (xs ++ ts) ys := by
    by_cases hsymbol : token.kind = .symbol
    · exact parted_of_symbol_left fun x hx => (hlast x hx).trans (congrArg some hsymbol)
    · have hnext := h.apart htokens hsymbol
      intro x hx y hy
      rw [hy, Option.bind_some] at hnext
      simp [Step.joins, hlast x hx, hnext]
  refine ⟨hparted, ?_⟩
  have happend := tokensFrom_append hparted offset
  rw [List.append_assoc, ← h.split, htokens, h.length, h.later, List.append_cons] at happend
  exact (List.append_cancel_right happend).symm

theorem tokensFrom_symbol (offset : Nat) {steps : List Step} {step : Step} (h : step ∈ steps)
    (hk : step.tokenKind? = some .symbol) :
    ∃ t ∈ tokensFrom offset steps, t.lexeme = ⟨.symbol, step.chars⟩ := by
  induction steps generalizing offset with
  | nil => cases h
  | cons first later ih =>
      rcases List.mem_cons.1 h with rfl | h
      · refine ⟨⟨.symbol, step.chars, offset⟩, ?_, rfl⟩
        simp only [tokensFrom, hk]
        rw [Token.attach_apart]
        · exact List.mem_cons_self
        · intro next _ hmeets
          exact hmeets.2.1 rfl
      · obtain ⟨t, ht, hlex⟩ := ih (offset + first.chars.length) h
        refine ⟨t, ?_, hlex⟩
        cases hfirst : first.tokenKind? with
        | none => simpa [tokensFrom, hfirst] using ht
        | some kind =>
            simp only [tokensFrom, hfirst]
            cases hlater : tokensFrom (offset + first.chars.length) later with
            | nil => simp [hlater] at ht
            | cons next rest =>
                rw [hlater] at ht
                by_cases hmeets : Token.Meets ⟨kind, first.chars, offset⟩ next
                · rw [Token.attach_meets hmeets]
                  rcases List.mem_cons.1 ht with rfl | ht
                  · have hsymbol := congrArg Lexeme.kind hlex
                    exact absurd (hmeets.1.trans hsymbol) hmeets.2.1
                  · exact List.mem_cons_of_mem _ ht
                · rw [Token.attach_apart (by simpa using hmeets)]
                  exact List.mem_cons_of_mem _ ht

/-- Only parentheses change the depth. -/
theorem Trace.depth_eq {s : ScanState} {steps : List Step} {rest : Text} (h : Trace s steps rest)
    (hparens : ∀ lexeme ∈ lexemes steps, lexeme ≠ ⟨.symbol, ['(']⟩ ∧ lexeme ≠ ⟨.symbol, [')']⟩) :
    (lastState s steps).depth = s.depth := by
  have hsteps : ∀ step ∈ steps, step.cls = .code → step.more = [] →
      step.first ≠ '(' ∧ step.first ≠ ')' := by
    intro step hstep hcls hmore
    have hlex : step.tokenKind? = some .symbol → ⟨.symbol, [step.first]⟩ ∈ lexemes steps := by
      intro hk
      obtain ⟨t, ht, hlex⟩ := tokensFrom_symbol 0 hstep hk
      rw [← tokensFrom_lexemes 0 steps]
      refine List.mem_map.2 ⟨t, ht, ?_⟩
      rw [hlex, Step.chars, hmore]
    constructor
    · intro hfirst
      rw [hfirst] at hlex
      refine (hparens _ (hlex ?_)).1 rfl
      simp only [Step.tokenKind?, hcls, hfirst]
      decide
    · intro hfirst
      rw [hfirst] at hlex
      refine (hparens _ (hlex ?_)).2 rfl
      simp only [Step.tokenKind?, hcls, hfirst]
      decide
  clear hparens
  induction steps generalizing s with
  | nil => rfl
  | cons step later ih =>
      obtain ⟨hstep, hlater⟩ := h
      have hbefore : step.before = s := by rw [← hstep, stepAt_before]
      have hshape : step.Shape := by
        rw [← hstep]
        exact stepAt_shape s _ _
      have hdepth : step.after.depth = step.before.depth := by
        rw [hshape.depth_eq]
        by_cases hcls : step.cls = .code
        · obtain ⟨hopen, hclose⟩ :=
            hsteps step List.mem_cons_self hcls (hshape.of_code hcls).2.1
          exact Step.nest_of_ne hopen hclose step.before.depth
        · exact Step.nest_of_ne_code hcls step.before.depth
      rw [lastState_cons, ih hlater fun x hx => hsteps x (List.mem_cons_of_mem step hx), hdepth,
        hbefore]

end AuroraMigration
