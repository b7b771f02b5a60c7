import AuroraMigration.Proofs.Lexeme

/-!
# Pieces between separators

A text cut at separators outside all parentheses falls into pieces, each of
which is scanned on its own just as it was scanned within the text. Cutting the
tokens of the text at the same separators gives the tokens of the pieces.
-/

namespace AuroraMigration

/-- A list is these parts with one member that satisfies `p` between neighbours. -/
inductive SplitsOn {α : Type} (p : α → Bool) : List α → List (List α) → Prop
  | last {part : List α} : (∀ x ∈ part, p x = false) → SplitsOn p part [part]
  | cut {part rest : List α} {x : α} {parts : List (List α)} : (∀ y ∈ part, p y = false) →
      p x = true → SplitsOn p rest parts → SplitsOn p (part ++ x :: rest) (part :: parts)

theorem splitsOn_splitOnP {α : Type} (p : α → Bool) (l : List α) :
    SplitsOn p l (l.splitOnP p) := by
  induction l with
  | nil => exact .last (by simp)
  | cons x l ih =>
      rw [List.splitOnP_cons_eq_if_modifyHead]
      cases hx : p x with
      | true =>
          have hnil : ∀ y ∈ ([] : List α), p y = false := by simp
          exact .cut hnil hx ih
      | false =>
          have hcons : ∀ part : List α, (∀ y ∈ part, p y = false) →
              ∀ y ∈ x :: part, p y = false := by
            intro part hpart y hy
            rcases List.mem_cons.1 hy with rfl | hy
            · exact hx
            · exact hpart y hy
          generalize l.splitOnP p = parts at ih
          cases ih with
          | last hpart => exact .last (hcons _ hpart)
          | cut hpart hy hrest => exact .cut (hcons _ hpart) hy hrest

theorem SplitsOn.splitOnP_eq {α : Type} {p : α → Bool} {l : List α} {parts : List (List α)}
    (h : SplitsOn p l parts) : l.splitOnP p = parts := by
  induction h with
  | last hpart => exact List.splitOnP_eq_singleton hpart
  | cut hpart hx _ ih => rw [List.splitOnP_append_cons_of_forall_mem hpart _ hx, ih]

theorem SplitsOn.flatten {α : Type} {p : α → Bool} {l : List α} {parts : List (List α)}
    (h : SplitsOn p l parts) : parts.flatten = l.filter (!p ·) := by
  have hkeep : ∀ {part : List α}, (∀ x ∈ part, p x = false) → part.filter (!p ·) = part := by
    intro part hpart
    exact List.filter_eq_self.2 fun x hx => by simp [hpart x hx]
  induction h with
  | last hpart => rw [List.flatten_singleton, hkeep hpart]
  | cut hpart hx _ ih =>
      rw [List.flatten_cons, ih, List.filter_append, hkeep hpart,
        List.filter_cons_of_neg (by simp [hx])]

/-! ## Scans of pieces -/

/-- A separator outside all parentheses stands between two starts of a scan. -/
theorem Step.Shape.topLevel_state {separator : Char} (hsep : isPlain separator = true)
    {step : Step} (h : step.Shape) (htop : step.isTopLevel separator = true) :
    step.before = .start ∧ step.after = .start := by
  simp only [Step.isTopLevel, Bool.and_eq_true, beq_iff_eq, Step.depth] at htop
  obtain ⟨⟨hcls, hdepth⟩, hfirst⟩ := htop
  obtain ⟨hbefore, -, hafter⟩ := h.of_code hcls
  have hplain : isPlain step.first = true := by
    rw [hfirst]
    exact hsep
  have hkeep := h.depth_eq
  rw [Step.nest_of_ne (fun h => absurd hplain (by rw [h]; decide))
    (fun h => absurd hplain (by rw [h]; decide)), hdepth] at hkeep
  constructor
  · cases hb : step.before
    simp_all [ScanState.start]
  · cases ha : step.after
    simp_all [ScanState.start]

/-- Around a separator outside all parentheses a trace falls into two. -/
theorem Trace.cutAt {separator : Char} (hsep : isPlain separator = true) {part later : List Step}
    {x : Step} {rest : Text} (h : Trace .start (part ++ x :: later) rest)
    (hx : x.isTopLevel separator = true) :
    Trace .start part [] ∧ lastState .start part = .start ∧ x.after = .start ∧
      Trace .start later rest := by
  obtain ⟨hfirst, hstep, htail⟩ := trace_append.1 h
  have hshape : x.Shape := by
    rw [← hstep]
    exact stepAt_shape _ _ _
  obtain ⟨hbefore, hafter⟩ := hshape.topLevel_state hsep hx
  have hstart : lastState .start part = .start := by
    have hat := congrArg Step.before hstep
    rw [stepAt_before, hbefore] at hat
    exact hat
  rw [hafter] at htail
  exact ⟨hfirst.cut wellTagged_start boundary_nil, hstart, hafter, htail⟩

/-- Each piece is a trace of its own, from the start to the start or to the end of the text. -/
theorem SplitsOn.pieces {separator : Char} (hsep : isPlain separator = true)
    {steps : List Step} {parts : List (List Step)} {rest : Text}
    (h : SplitsOn (Step.isTopLevel separator) steps parts) (ht : Trace .start steps rest) :
    ∀ part ∈ parts, Trace .start part [] ∧
      (lastState .start part = .start ∨ lastState .start part = lastState .start steps) ∧
      (∀ step ∈ part, step.isTopLevel separator = false) ∧ part <:+: steps := by
  induction h with
  | @last part hpart =>
      intro piece hpiece
      rw [List.mem_singleton.1 hpiece]
      exact ⟨ht.cut wellTagged_start boundary_nil, .inr rfl, hpart, List.infix_rfl⟩
  | @cut part later x parts hpart hx _ ih =>
      obtain ⟨hfirst, hstart, hafter, htail⟩ := ht.cutAt hsep hx
      intro piece hpiece
      rcases List.mem_cons.1 hpiece with rfl | hpiece
      · exact ⟨hfirst, .inl hstart, hpart, (List.prefix_append _ _).isInfix⟩
      · obtain ⟨htrace, hlast, htop, hwithin⟩ := ih htail piece hpiece
        refine ⟨htrace, ?_, htop, ?_⟩
        · rw [lastState_append, lastState_cons, hafter]
          exact hlast
        · have hlater : later <:+: part ++ x :: later :=
            ((List.suffix_cons x later).trans (List.suffix_append _ _)).isInfix
          exact hwithin.trans hlater

/-- Only the last piece can end inside quotes, comments or parentheses. -/
theorem SplitsOn.closed {separator : Char} (hsep : isPlain separator = true)
    {steps : List Step} {parts : List (List Step)} {rest : Text}
    (h : SplitsOn (Step.isTopLevel separator) steps parts) (ht : Trace .start steps rest) :
    parts.Pairwise fun part _ => lastState .start part = .start := by
  induction h with
  | last _ => exact List.pairwise_singleton _ _
  | cut _ hx _ ih =>
      obtain ⟨-, hstart, -, htail⟩ := ht.cutAt hsep hx
      exact List.pairwise_cons.2 ⟨fun _ _ => hstart, ih htail⟩

/-- The steps of the pieces between separators outside all parentheses. -/
def pieceSteps (separator : Char) (sql : Text) : List (List Step) :=
  (scan sql).splitOnP (Step.isTopLevel separator)

/-- What is known of the steps of a piece of `sql`. -/
structure PieceOf (separator : Char) (sql : Text) (part : List Step) : Prop where
  trace : Trace .start part []
  ends : lastState .start part = .start ∨ lastState .start part = scanEnd sql
  separators : ∀ step ∈ part, step.isTopLevel separator = false
  within : part <:+: scan sql

theorem pieceOf_of_mem {separator : Char} (hsep : isPlain separator = true) {sql : Text}
    {part : List Step} (h : part ∈ pieceSteps separator sql) : PieceOf separator sql part := by
  have hsplit := splitsOn_splitOnP (Step.isTopLevel separator) (scan sql)
  obtain ⟨htrace, hlast, htop, hwithin⟩ := hsplit.pieces hsep (trace_scan sql) part h
  rw [← scanEnd_eq_lastState] at hlast
  exact ⟨htrace, hlast, htop, hwithin⟩

theorem PieceOf.scan {separator : Char} {sql : Text} {part : List Step}
    (h : PieceOf separator sql part) : scan (stepsText part) = part :=
  h.trace.scanFrom_stepsText wellTagged_start

theorem PieceOf.scanEnd {separator : Char} {sql : Text} {part : List Step}
    (h : PieceOf separator sql part) : scanEnd (stepsText part) = lastState .start part := by
  rw [scanEnd_eq_lastState, h.scan]

theorem PieceOf.unquoted {separator : Char} {sql : Text} {part : List Step}
    (h : PieceOf separator sql part) (hend : (AuroraMigration.scanEnd sql).mode.isQuoted = false) :
    (AuroraMigration.scanEnd (stepsText part)).mode.isQuoted = false := by
  rw [h.scanEnd]
  rcases h.ends with hstart | hsame
  · rw [hstart]
    rfl
  · rw [hsame]
    exact hend

theorem PieceOf.chars {separator : Char} {sql : Text} {part : List Step}
    (h : PieceOf separator sql part) : ∀ c ∈ stepsText part, c ∈ sql := by
  intro c hc
  obtain ⟨step, hstep, hcstep⟩ := List.mem_flatMap.1 hc
  rw [← stepsText_scan sql]
  exact List.mem_flatMap.2 ⟨step, h.within.subset hstep, hcstep⟩

/-! ## Tokens between separators -/

/-- The places of the separators that a scan sees in code and outside all parentheses. -/
def separatorPlaces (separator : Char) (offset : Nat) : List Step → List Nat
  | [] => []
  | step :: later =>
      let places := separatorPlaces separator (offset + step.chars.length) later
      if step.isTopLevel separator then offset :: places else places

/-- The tokens of a text in groups, cut at the separators that the scan sees outside parentheses. -/
def tokenGroups (separator : Char) (sql : Text) : List (List Token) :=
  (tokenize sql).splitOnP fun token =>
    token.isSymbol separator && (separatorPlaces separator 0 (scan sql)).contains token.start

theorem separatorPlaces_ge {separator : Char} {offset : Nat} {steps : List Step} {place : Nat}
    (h : place ∈ separatorPlaces separator offset steps) : offset ≤ place := by
  induction steps generalizing offset with
  | nil => simp [separatorPlaces] at h
  | cons step later ih =>
      simp only [separatorPlaces] at h
      split at h
      · rcases List.mem_cons.1 h with rfl | h
        · omega
        · have := ih h
          omega
      · have := ih h
        omega

theorem separatorPlaces_append {separator : Char} {part : List Step}
    (h : ∀ step ∈ part, step.isTopLevel separator = false) (offset : Nat) (later : List Step) :
    separatorPlaces separator offset (part ++ later) =
      separatorPlaces separator (offset + (stepsText part).length) later := by
  induction part generalizing offset with
  | nil => simp
  | cons step part ih =>
      have hstep := h step List.mem_cons_self
      have ih := ih (fun x hx => h x (List.mem_cons_of_mem step hx)) (offset + step.chars.length)
      simp only [List.cons_append, separatorPlaces, hstep, Bool.false_eq_true, if_false, ih,
        stepsText_cons, List.length_append, Nat.add_assoc]

theorem tokensFrom_start_lt {offset : Nat} {steps : List Step} {t : Token}
    (h : t ∈ tokensFrom offset steps) : t.start < offset + (stepsText steps).length := by
  induction steps generalizing offset with
  | nil => simp [tokensFrom] at h
  | cons step later ih =>
      have hpos := step_chars_length_pos step
      rw [stepsText_cons, List.length_append]
      unfold tokensFrom at h
      cases hk : step.tokenKind? with
      | none =>
          simp only [hk] at h
          have := ih h
          omega
      | some kind =>
          simp only [hk] at h
          rcases Token.attach_mem_start h with hstart | h
          · rw [hstart]
            dsimp only
            omega
          · have := ih h
            omega

/-- Whether `c` is a token of its own wherever it stands in code. -/
def isSeparator (c : Char) : Bool :=
  isPlain c && !(isBlank c || isAlphanumeric c || c == '_' || c == '$')

theorem tokenKind?_separator {c : Char} (hc : isSeparator c = true) {step : Step}
    (htop : step.isTopLevel c = true) : step.tokenKind? = some .symbol := by
  simp only [Step.isTopLevel, Bool.and_eq_true, beq_iff_eq] at htop
  simp only [isSeparator, Bool.and_eq_true, Bool.not_eq_true', Bool.or_eq_false_iff] at hc
  obtain ⟨-, ⟨⟨hblank, halnum⟩, hunder⟩, hdollar⟩ := hc
  simp [Step.tokenKind?, htop.1.1, htop.2, hblank, halnum, hunder, hdollar]

/-- Around a separator, the tokens are those of the steps before it, itself and those after it. -/
theorem tokensFrom_separator {c : Char} (hc : isSeparator c = true) {step : Step}
    (htop : step.isTopLevel c = true) (hmore : step.more = []) (offset : Nat)
    (part later : List Step) :
    tokensFrom offset (part ++ step :: later) =
      tokensFrom offset part ++ ⟨.symbol, [c], offset + (stepsText part).length⟩ ::
        tokensFrom (offset + (stepsText part).length + 1) later := by
  have hkind := tokenKind?_separator hc htop
  have hfirst : step.first = c := by
    simp only [Step.isTopLevel, Bool.and_eq_true, beq_iff_eq] at htop
    exact htop.2
  have hleft : Parted part (step :: later) :=
    parted_of_symbol_right (by simpa using hkind)
  have hright : Parted [step] later :=
    parted_of_symbol_left (by simpa using hkind)
  rw [tokensFrom_append hleft]
  congr 1
  have happ := tokensFrom_append hright (offset + (stepsText part).length)
  rw [List.singleton_append] at happ
  rw [happ]
  simp [tokensFrom, hkind, Step.chars, hmore, hfirst, Token.attach]

/-- Cutting tokens at the separators gives the tokens of the pieces. -/
theorem SplitsOn.tokens {c : Char} (hc : isSeparator c = true) {steps : List Step}
    {parts : List (List Step)} (h : SplitsOn (Step.isTopLevel c) steps parts)
    (hshape : ∀ step ∈ steps, step.Shape) (offset : Nat) (q : Token → Bool)
    (hq : ∀ t ∈ tokensFrom offset steps,
      q t = (t.isSymbol c && (separatorPlaces c offset steps).contains t.start)) :
    ∃ groups, SplitsOn q (tokensFrom offset steps) groups ∧
      groups.map (List.map Token.lexeme) = parts.map lexemes := by
  induction h generalizing offset with
  | @last part hpart =>
      refine ⟨[tokensFrom offset part], .last fun t ht => ?_, by simp [tokensFrom_lexemes]⟩
      have hnone := separatorPlaces_append hpart offset []
      rw [List.append_nil] at hnone
      rw [hq t ht, hnone]
      simp [separatorPlaces]
  | @cut part later x parts hpart hx _ ih =>
      have hmore : x.more = [] := by
        simp only [Step.isTopLevel, Bool.and_eq_true, beq_iff_eq] at hx
        exact ((hshape x (by simp)).of_code hx.1.1).2.1
      have htokens := tokensFrom_separator hc hx hmore offset part later
      have hplaces := separatorPlaces_append hpart offset (x :: later)
      have hxchars : x.chars.length = 1 := by simp [Step.chars, hmore]
      simp only [separatorPlaces, hx, if_true, hxchars] at hplaces
      rw [htokens, hplaces] at hq
      have hbefore : ∀ t ∈ tokensFrom offset part, q t = false := by
        intro t ht
        have hlt := tokensFrom_start_lt ht
        rw [hq t (List.mem_append_left _ ht), Bool.and_eq_false_iff]
        refine .inr ?_
        simp only [List.contains_eq_mem, List.mem_cons, decide_eq_false_iff_not]
        rintro (hstart | hmem)
        · omega
        · have := separatorPlaces_ge hmem
          omega
      have hself : q ⟨.symbol, [c], offset + (stepsText part).length⟩ = true := by
        rw [hq _ (by simp)]
        simp [Token.isSymbol]
      have hafter : ∀ t ∈ tokensFrom (offset + (stepsText part).length + 1) later,
          q t = (t.isSymbol c &&
            (separatorPlaces c (offset + (stepsText part).length + 1) later).contains t.start) := by
        intro t ht
        have hge := tokensFrom_start_ge ht
        have hne : t.start ≠ offset + (stepsText part).length := by omega
        rw [hq t (List.mem_append_right _ (List.mem_cons_of_mem _ ht))]
        simp [hne]
      obtain ⟨groups, hgroups, hlex⟩ := ih
        (fun step hs => hshape step (List.mem_append_right _ (List.mem_cons_of_mem x hs)))
        (offset + (stepsText part).length + 1) hafter
      rw [htokens]
      refine ⟨tokensFrom offset part :: groups, .cut hbefore hself hgroups, ?_⟩
      rw [List.map_cons, List.map_cons, hlex, tokensFrom_lexemes]

theorem tokenGroups_lexemes {c : Char} (hc : isSeparator c = true) (sql : Text) :
    (tokenGroups c sql).map (List.map Token.lexeme) = (pieceSteps c sql).map lexemes := by
  have hsplit := splitsOn_splitOnP (Step.isTopLevel c) (scan sql)
  obtain ⟨groups, hgroups, hlex⟩ := hsplit.tokens hc (trace_scan sql).shape 0 _ fun t _ => rfl
  rw [pieceSteps, ← hlex, ← hgroups.splitOnP_eq]
  rfl

/-- The tokens that are no separator outside all parentheses are those of the pieces. -/
theorem filter_separators {c : Char} (hc : isSeparator c = true) (sql : Text) :
    ((tokenize sql).filter fun token => !(token.isSymbol c &&
        (separatorPlaces c 0 (scan sql)).contains token.start)).map Token.lexeme =
      (pieceSteps c sql).flatMap lexemes := by
  have hflatten := (splitsOn_splitOnP (fun token =>
    token.isSymbol c && (separatorPlaces c 0 (scan sql)).contains token.start)
      (tokenize sql)).flatten
  rw [← hflatten, List.map_flatten]
  exact congrArg List.flatten (tokenGroups_lexemes hc sql)

end AuroraMigration
