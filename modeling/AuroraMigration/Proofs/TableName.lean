import AuroraMigration.Proofs.Index

/-!
# The name of an altered table

The name of a table ends at the same token whatever clauses follow it, as long
as these do not start with a dot, which would continue the name, or with
`EXISTS`, which would turn a table called `IF` into keywords.
-/

namespace AuroraMigration

/-- The tokens neither continue a name before them nor are keywords together with it. -/
def EndsName (tokens : List Token) : Prop :=
  tokens.head?.any (Token.isSymbol '.') = false ∧ startsWith ["EXISTS"] tokens = false

instance (tokens : List Token) : Decidable (EndsName tokens) :=
  inferInstanceAs (Decidable (_ ∧ _))

theorem endsName_congr {a b : List Token} (h : Alike a b) (ha : EndsName a) : EndsName b := by
  refine ⟨?_, by rw [← startsWith_congr h]; exact ha.2⟩
  cases a with
  | nil =>
      rw [alike_nil_iff.1 h]
      rfl
  | cons t a =>
      obtain ⟨u, b, rfl, hlex, -⟩ := alike_cons_iff.1 h
      have hdot := ha.1
      simp only [List.head?_cons, Option.any_some] at hdot ⊢
      rw [← isSymbol_congr hlex, hdot]

theorem endsName_of_symbol {t : Token} {rest : List Token} (hkind : t.kind = .symbol)
    (hdot : t.isSymbol '.' = false) : EndsName (t :: rest) := by
  refine ⟨by simpa using hdot, ?_⟩
  simp [startsWith, Token.isKeyword, hkind]

theorem qualifiedStop_of_endsName {stop : Nat} {tokens : List Token} (h : EndsName tokens) :
    qualifiedStop stop tokens = stop := by
  unfold qualifiedStop
  split
  · rename_i dot part rest
    have hdot : dot.isSymbol '.' = false := by simpa using h.1
    rw [if_neg (by simp [hdot])]
  · rfl

/-- The tokens behind a qualified name of which `tokens` follow the first part. -/
def afterParts : List Token → List Token
  | dot :: part :: rest =>
      if dot.isSymbol '.' && part.isIdentifier then afterParts rest else dot :: part :: rest
  | tokens => tokens

/-- The tokens behind the name of a table, where `tokens` follow `ALTER TABLE`. -/
def afterName (tokens : List Token) : List Token :=
  afterParts ((skipOnly (skipIfExists tokens)).drop 1)

/-- Where a name ends that `find` sees at the start of tokens, and that it is found again before
other tokens. -/
structure NameEnd (find : List Token → Option (Nat × Nat)) (tokens before : List Token)
    (part : Token) (after : List Token) (start : Nat) : Prop where
  split : tokens = before ++ part :: after
  names : ∀ t ∈ before, t.isIdentifier = true ∨ t.isSymbol '.' = true
  ident : part.isIdentifier = true
  found : find tokens = some (start, part.stop)
  again : ∀ other, EndsName other → find (before ++ part :: other) = some (start, part.stop)

theorem NameEnd.cons {find find' : List Token → Option (Nat × Nat)}
    {tokens before after : List Token} {part t : Token} {start : Nat}
    (h : NameEnd find tokens before part after start)
    (ht : t.isIdentifier = true ∨ t.isSymbol '.' = true)
    (hskip : ∀ found, find' (t :: found) = find found) :
    NameEnd find' (t :: tokens) (t :: before) part after start where
  split := by rw [h.split, List.cons_append]
  names := by
    intro u hu
    rcases List.mem_cons.1 hu with rfl | hu
    · exact ht
    · exact h.names u hu
  ident := h.ident
  found := by rw [hskip, h.found]
  again := by
    intro other hother
    rw [List.cons_append, hskip, h.again other hother]

theorem NameEnd.congr {find find' : List Token → Option (Nat × Nat)}
    {tokens before after : List Token} {part : Token} {start : Nat}
    (h : NameEnd find tokens before part after start) (hsame : find' tokens = find tokens)
    (hother : ∀ other, EndsName other →
      find' (before ++ part :: other) = find (before ++ part :: other)) :
    NameEnd find' tokens before part after start :=
  ⟨h.split, h.names, h.ident, hsame.trans h.found,
    fun other hends => (hother other hends).trans (h.again other hends)⟩

theorem qualifiedName?_cons {first : Token} (h : first.isIdentifier = true) (rest : List Token) :
    qualifiedName? (first :: rest) = some (first.start, qualifiedStop first.stop rest) := by
  rw [qualifiedName?, if_pos h]

theorem qualifiedStop_cons {dot part : Token} (hdot : dot.isSymbol '.' = true)
    (hpart : part.isIdentifier = true) (stop : Nat) (rest : List Token) :
    qualifiedStop stop (dot :: part :: rest) = qualifiedStop part.stop rest := by
  rw [qualifiedStop, hdot, hpart]
  rfl

/-- A name behind another name and a dot ends where it ends alone. -/
theorem NameEnd.dotted {first dot part last : Token} {rest before after : List Token}
    (hfirst : first.isIdentifier = true) (hdot : dot.isSymbol '.' = true)
    (hpart : part.isIdentifier = true)
    (h : NameEnd qualifiedName? (part :: rest) before last after part.start) :
    NameEnd qualifiedName? (first :: dot :: part :: rest) (first :: dot :: before) last after
      first.start where
  split := by
    rw [h.split]
    rfl
  names := by
    intro t ht
    rcases List.mem_cons.1 ht with rfl | ht
    · exact .inl hfirst
    · rcases List.mem_cons.1 ht with rfl | ht
      · exact .inr hdot
      · exact h.names t ht
  ident := h.ident
  found := by
    have hfound := h.found
    rw [qualifiedName?_cons hpart] at hfound
    rw [qualifiedName?_cons hfirst, qualifiedStop_cons hdot hpart,
      (Prod.mk.inj (Option.some.inj hfound)).2]
  again := by
    intro other hother
    have hhead : ∃ found, before ++ last :: other = part :: found := by
      have hsplit := h.split
      cases before with
      | nil =>
          rw [(List.cons.inj hsplit).1]
          exact ⟨other, rfl⟩
      | cons b before =>
          rw [(List.cons.inj hsplit).1]
          exact ⟨before ++ last :: other, rfl⟩
    obtain ⟨found, hfound⟩ := hhead
    have hagain := h.again other hother
    rw [hfound, qualifiedName?_cons hpart] at hagain
    rw [List.cons_append, List.cons_append, hfound, qualifiedName?_cons hfirst,
      qualifiedStop_cons hdot hpart, (Prod.mk.inj (Option.some.inj hagain)).2]

theorem nameEnd_of_qualifiedName? {tokens : List Token} {start stop : Nat}
    (h : qualifiedName? tokens = some (start, stop)) :
    ∃ before part, NameEnd qualifiedName? tokens before part (afterParts (tokens.drop 1)) start ∧
      part.stop = stop := by
  -- two tokens of the name at a time
  induction hn : tokens.length using Nat.strongRecOn generalizing tokens start with
  | ind n ih =>
      cases tokens with
      | nil => cases h
      | cons first rest =>
          have hfirst : first.isIdentifier = true := by
            rw [qualifiedName?] at h
            split at h
            · assumption
            · cases h
          rw [qualifiedName?_cons hfirst] at h
          obtain ⟨rfl, hstop⟩ := Prod.mk.inj (Option.some.inj h)
          by_cases hnext : ∃ dot part more, rest = dot :: part :: more ∧
              dot.isSymbol '.' = true ∧ part.isIdentifier = true
          · obtain ⟨dot, part, more, rfl, hdot, hpart⟩ := hnext
            rw [qualifiedStop_cons hdot hpart] at hstop
            have hlater : qualifiedName? (part :: more) = some (part.start, stop) := by
              rw [qualifiedName?_cons hpart, hstop]
            have hlen : (part :: more).length < n := by
              simp only [List.length_cons] at hn ⊢
              omega
            obtain ⟨before, last, hend, hlast⟩ := ih _ hlen hlater rfl
            have hafter : afterParts (dot :: part :: more) = afterParts more := by
              simp [afterParts, hdot, hpart]
            refine ⟨first :: dot :: before, last, ?_, hlast⟩
            rw [List.drop_one, List.tail_cons, hafter]
            exact hend.dotted hfirst hdot hpart
          · have hself : qualifiedStop first.stop rest = first.stop ∧ afterParts rest = rest := by
              match rest with
              | [] => exact ⟨rfl, rfl⟩
              | [_] => exact ⟨rfl, rfl⟩
              | dot :: part :: more =>
                  have hcond : ¬(dot.isSymbol '.' && part.isIdentifier) = true := by
                    rw [Bool.and_eq_true]
                    rintro ⟨hdot, hpart⟩
                    exact hnext ⟨dot, part, more, rfl, hdot, hpart⟩
                  rw [qualifiedStop, afterParts, if_neg hcond, if_neg hcond]
                  exact ⟨rfl, rfl⟩
            obtain ⟨hself, hafter⟩ := hself
            rw [List.drop_one, List.tail_cons, hafter]
            refine ⟨[], first, ⟨rfl, by simp, hfirst, ?_, ?_⟩, hself.symm.trans hstop⟩
            · rw [qualifiedName?_cons hfirst, hself]
            · intro other hother
              rw [List.nil_append, qualifiedName?_cons hfirst, qualifiedStop_of_endsName hother]

theorem isIdentifier_of_isKeyword {keyword : String} {t : Token} (h : t.isKeyword keyword = true) :
    t.isIdentifier = true := by
  simp [Token.isIdentifier, (isKeyword_iff.1 h).1]

theorem nameEnd_of_skipOnly {tokens : List Token} {start stop : Nat}
    (h : qualifiedName? (skipOnly tokens) = some (start, stop)) :
    ∃ before part,
      NameEnd (fun found => qualifiedName? (skipOnly found)) tokens before part
        (afterParts ((skipOnly tokens).drop 1)) start ∧ part.stop = stop := by
  have hkeep : ∀ {found : List Token}, startsWith ["ONLY"] found = false →
      skipOnly found = found := by
    intro found hfound
    simp [skipOnly, hfound]
  cases honly : startsWith ["ONLY"] tokens with
  | true =>
      obtain ⟨o, tokens, rfl, ho, -⟩ := startsWith_cons_iff.1 honly
      have hskip : ∀ found, skipOnly (o :: found) = found := by
        intro found
        simp [skipOnly, startsWith, ho]
      rw [hskip] at h ⊢
      obtain ⟨before, part, hend, hstop⟩ := nameEnd_of_qualifiedName? h
      exact ⟨o :: before, part,
        hend.cons (.inl (isIdentifier_of_isKeyword ho)) (by simp [hskip]), hstop⟩
  | false =>
      rw [hkeep honly] at h ⊢
      obtain ⟨before, part, hend, hstop⟩ := nameEnd_of_qualifiedName? h
      refine ⟨before, part, hend.congr (by rw [hkeep honly]) ?_, hstop⟩
      intro other _
      have hsame : startsWith ["ONLY"] (before ++ part :: other) = startsWith ["ONLY"] tokens := by
        rw [hend.split]
        cases before <;> rfl
      rw [hkeep (hsame.trans honly)]

/-- The name of an altered table ends at the same token before other clauses. -/
theorem nameEnd_of_alterTable {tokens : List Token} {start stop : Nat}
    (h : qualifiedName? (skipOnly (skipIfExists tokens)) = some (start, stop)) :
    ∃ before part,
      NameEnd (fun found => qualifiedName? (skipOnly (skipIfExists found))) tokens before part
        (afterName tokens) start ∧ part.stop = stop := by
  unfold afterName
  have hkeep : ∀ {found : List Token}, startsWith ["IF", "EXISTS"] found = false →
      skipIfExists found = found := by
    intro found hfound
    simp [skipIfExists, hfound]
  cases hif : startsWith ["IF", "EXISTS"] tokens with
  | true =>
      obtain ⟨i, tokens, rfl, hi, hrest⟩ := startsWith_cons_iff.1 hif
      obtain ⟨e, tokens, rfl, he, -⟩ := startsWith_cons_iff.1 hrest
      have hskip : ∀ found, skipIfExists (i :: e :: found) = found := by
        intro found
        simp [skipIfExists, startsWith, hi, he]
      rw [hskip] at h ⊢
      obtain ⟨before, part, hend, hstop⟩ := nameEnd_of_skipOnly h
      have htail : NameEnd (fun found => qualifiedName? (skipOnly (skipIfExists (i :: found))))
          (e :: tokens) (e :: before) part (afterParts ((skipOnly tokens).drop 1)) start :=
        hend.cons (.inl (isIdentifier_of_isKeyword he)) (by simp [hskip])
      exact ⟨i :: e :: before, part,
        htail.cons (.inl (isIdentifier_of_isKeyword hi)) (by simp), hstop⟩
  | false =>
      rw [hkeep hif] at h ⊢
      obtain ⟨before, part, hend, hstop⟩ := nameEnd_of_skipOnly h
      refine ⟨before, part, hend.congr (by simp only [hkeep hif]) ?_, hstop⟩
      intro other hother
      have hfalse : startsWith ["IF", "EXISTS"] (before ++ part :: other) = false := by
        rw [hend.split] at hif
        cases before with
        | nil =>
            have hexists : startsWith ["EXISTS"] other = false := hother.2
            rw [List.nil_append, startsWith, hexists, Bool.and_false]
        | cons first before =>
            cases before with
            | nil => exact hif
            | cons second before => exact hif
      rw [hkeep hfalse]

end AuroraMigration
