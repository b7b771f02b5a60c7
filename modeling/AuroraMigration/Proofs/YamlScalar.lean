import AuroraMigration.Yaml.Writer

/-!
# Reading scalars back

A text of letters, digits and a few other characters is read back from the line
of its key, be it plain or in quotes, or from a folded block below that line.
Inside quotes nothing has to be escaped; a plain text has no colon and no number
sign, and starts and ends with a character that is not taken for anything else.
-/

namespace AuroraMigration.Yaml

/-- Letters, digits and the other characters of versions and paths. -/
def isSimpleChar (c : Char) : Bool :=
  c.isAlphanum || "_.-/:# ".toList.contains c

/-- The characters of the keys. -/
def isKeyChar (c : Char) : Bool :=
  c.isAlpha || c == '_'

theorem ne_of_isSimpleChar {c d : Char} (hc : isSimpleChar c = true) (hd : isSimpleChar d = false) :
    c ≠ d := by
  rintro rfl
  rw [hc] at hd
  cases hd

theorem isSimpleChar_of_isKeyChar {c : Char} (hc : isKeyChar c = true) : isSimpleChar c = true := by
  rw [isKeyChar, Bool.or_eq_true, beq_iff_eq] at hc
  rcases hc with hc | rfl
  · simp [isSimpleChar, Char.isAlphanum, hc]
  · rfl

theorem ne_of_isKeyChar {c d : Char} (hc : isKeyChar c = true) (hd : isKeyChar d = false) :
    c ≠ d := by
  rintro rfl
  rw [hc] at hd
  cases hd

theorem isSpace_eq_false {c : Char} (hc : isSimpleChar c = true) (hne : c ≠ ' ') :
    isSpace c = false := by
  have htab : c ≠ '\t' := ne_of_isSimpleChar hc (by decide)
  simp [isSpace, hne, htab]

/-- A text that is read as it stands, from the line of its key. -/
structure IsPlain (s : Text) : Prop where
  chars : ∀ c ∈ s, isSimpleChar c = true
  noColon : ':' ∉ s
  noSign : '#' ∉ s
  first : ∀ c ∈ s.head?, c ≠ ' ' ∧ c ≠ '-'
  last : s.getLast? ≠ some ' '
  nonempty : s ≠ []

theorem isPlain_of_isKeyChar {s : Text} (h : ∀ c ∈ s, isKeyChar c = true) (hne : s ≠ []) :
    IsPlain s where
  chars c hc := isSimpleChar_of_isKeyChar (h c hc)
  noColon hc := ne_of_isKeyChar (h _ hc) (by decide) rfl
  noSign hc := ne_of_isKeyChar (h _ hc) (by decide) rfl
  first c hc := by
    have hkey := h c (List.mem_of_head? hc)
    exact ⟨ne_of_isKeyChar hkey (by decide), ne_of_isKeyChar hkey (by decide)⟩
  last hc := ne_of_isKeyChar (h _ (List.mem_of_getLast? hc)) (by decide) rfl
  nonempty := hne

/-- Whether a text is only folded at places where a word follows. -/
def FoldsAtWords (s : Text) : Prop :=
  ∀ line ∈ foldLines s, line.head?.any (· != ' ') = true

instance (s : Text) : Decidable (FoldsAtWords s) :=
  inferInstanceAs (Decidable (∀ line ∈ foldLines s, line.head?.any (· != ' ') = true))

/-- How a text may be written as the value of a key, and in which style it is then read. -/
inductive ReadsAs : (written : Text) → ScalarStyle → (s : Text) → Prop
  | plain {s : Text} (h : IsPlain s) : ReadsAs s .plain s
  | quoted {s : Text} {quote : Char} (hquote : quote = '"' ∨ quote = '\'')
      (h : ∀ c ∈ s, isSimpleChar c = true) : ReadsAs (quote :: (s ++ [quote])) .quoted s
  | folded {s : Text} (h : ∀ c ∈ s, isSimpleChar c = true) (hfold : FoldsAtWords s) :
      ReadsAs (writeFolded s) .block s

/-! ## Spots -/

@[simp] theorem Spot.pass_line (spot : Spot) (n : Nat) : (spot.pass n).line = spot.line := rfl

@[simp] theorem Spot.pass_column (spot : Spot) (n : Nat) :
    (spot.pass n).column = spot.column + n := rfl

@[simp] theorem Spot.pass_fresh (spot : Spot) (n : Nat) : (spot.pass n).fresh = false := rfl

@[simp] theorem Spot.after_line_line (spot : Spot) : (spot.after '\n').line = spot.line + 1 := rfl

@[simp] theorem Spot.after_line_fresh (spot : Spot) : (spot.after '\n').fresh = true := rfl

@[simp] theorem Spot.pass_pass (spot : Spot) (n m : Nat) :
    (spot.pass n).pass m = spot.pass (n + m) := by
  simp [Spot.pass, Spot.skip, Nat.add_assoc]

theorem Spot.after_eq_pass {spot : Spot} (h : spot.fresh = false) {c : Char} (hc : c ≠ '\n') :
    spot.after c = spot.pass 1 := by
  simp [Spot.after, Spot.pass, Spot.skip, hc, h]

@[simp] theorem prepend_prepend (a b : Text) (scalar : ScalarEnd) :
    prepend a (prepend b scalar) = prepend (a ++ b) scalar := by
  simp [prepend]

/-! ## Plain scalars -/

theorem isPlainChar_of_ne {c : Char} (h : c ≠ ':') (rest : Text) :
    isPlainChar false c rest = true := by
  simp [isPlainChar, h]

/-- Reading goes over words and the spaces between them. -/
theorem readPlainFrom?_append (margin : Nat) (rest : Text) {s : Text}
    (hs : ∀ c ∈ s, isSimpleChar c = true) (hcolon : ':' ∉ s) (hsign : '#' ∉ s)
    (hlast : s.getLast? ≠ some ' ') {spot : Spot} (hspot : spot.fresh = false) :
    readPlainFrom? false margin .word spot (s ++ rest) =
        (readPlainFrom? false margin .word (spot.pass s.length) rest).map (prepend s) ∧
      (s ≠ [] → ∀ spaces, readPlainFrom? false margin (.gap { spaces }) spot (s ++ rest) =
        (readPlainFrom? false margin .word (spot.pass s.length) rest).map
          (prepend (spaces ++ s))) := by
  -- inside a word and in a gap, since a gap ends at a word and a word at a gap
  induction s generalizing spot with
  | nil =>
      have hpass : spot.pass 0 = spot := by
        simp [Spot.pass, Spot.skip, ← hspot]
      have hprepend : prepend [] = id := rfl
      simp [hpass, hprepend]
  | cons c s ih =>
      have hc := hs c List.mem_cons_self
      have hline : c ≠ '\n' := ne_of_isSimpleChar hc (by decide)
      have hc_colon : c ≠ ':' := fun h => hcolon (h ▸ List.mem_cons_self)
      have hc_sign : c ≠ '#' := fun h => hsign (h ▸ List.mem_cons_self)
      have hnext : s.getLast? ≠ some ' ' := by
        intro h
        apply hlast
        rw [List.getLast?_cons, h]
        rfl
      obtain ⟨hword, hgap⟩ := ih (fun d hd => hs d (List.mem_cons_of_mem c hd))
        (fun h => hcolon (List.mem_cons_of_mem c h)) (fun h => hsign (List.mem_cons_of_mem c h))
        hnext (show (spot.pass 1).fresh = false from rfl)
      rw [List.cons_append]
      by_cases hspace : c = ' '
      · subst hspace
        have hne : s ≠ [] := by
          rintro rfl
          exact hlast rfl
        have hbetween := hgap hne
        constructor
        · rw [readPlainFrom?, if_neg hline, if_pos (by decide), Spot.after_eq_pass hspot hline]
          have h := hbetween [' ']
          simpa [Gap.space, Nat.add_comm] using h
        · intro _ spaces
          rw [readPlainFrom?, if_neg hline, if_pos (by decide), Spot.after_eq_pass hspot hline]
          have h := hbetween (spaces ++ [' '])
          simpa [Gap.space, Nat.add_comm] using h
      · have hnot : isSpace c = false := isSpace_eq_false hc hspace
        constructor
        · rw [readPlainFrom?, if_neg hline, hnot]
          simp [isPlainChar_of_ne hc_colon, hword, Nat.add_comm, Function.comp_def]
        · intro _ spaces
          rw [readPlainFrom?, if_neg hline, hnot]
          simp [isPlainChar_of_ne hc_colon, hword, Nat.add_comm, Function.comp_def, hspot, hc_sign,
            isStrayDash, Gap.text]

/-- A key ends before its colon. -/
theorem readPlainFrom?_colon (margin : Nat) (spot : Spot) (rest : Text) :
    readPlainFrom? false margin .word spot (':' :: ' ' :: rest) =
      some ([], ⟨spot, ':' :: ' ' :: rest⟩) := by
  rfl

/-- A value ends with its line if the next line is not indented. -/
theorem readPlainFrom?_line {margin : Nat} (hmargin : 0 < margin) (spot : Spot) {rest : Text}
    (hrest : rest.head?.all isKeyChar = true) :
    readPlainFrom? false margin .word spot ('\n' :: rest) =
      some ([], ⟨spot.after '\n', rest⟩) := by
  rw [readPlainFrom?, if_pos rfl]
  cases rest with
  | nil => rfl
  | cons c rest =>
      have hc : isKeyChar c = true := hrest
      have hline : c ≠ '\n' := ne_of_isKeyChar hc (by decide)
      have hspace : isSpace c = false :=
        isSpace_eq_false (isSimpleChar_of_isKeyChar hc) (ne_of_isKeyChar hc (by decide))
      rw [readPlainFrom?, if_neg hline, hspace]
      simp [Gap.lineBreak, Spot.after, hmargin]

theorem readPlain?_value {s : Text} (h : IsPlain s) {margin : Nat} (hmargin : 0 < margin)
    {spot : Spot} (hspot : spot.fresh = false) {rest : Text}
    (hrest : rest.head?.all isKeyChar = true) :
    readPlain? false margin ⟨spot, s ++ '\n' :: rest⟩ =
      some (s, ⟨(spot.pass s.length).after '\n', rest⟩) := by
  have hread := (readPlainFrom?_append margin ('\n' :: rest) h.chars h.noColon h.noSign h.last
    hspot).2 h.nonempty []
  rw [readPlainFrom?_line hmargin _ hrest] at hread
  obtain ⟨c, s, rfl⟩ := List.exists_cons_of_ne_nil h.nonempty
  rw [readPlain?, hread]
  simp [prepend]

theorem atAnyMarker_of_isKeyChar {c : Char} (hc : isKeyChar c = true) (rest : Text) :
    atAnyMarker (c :: rest) = false := by
  have hdash : ('-' == c) = false := beq_false_of_ne (ne_of_isKeyChar hc (by decide)).symm
  have hdot : ('.' == c) = false := beq_false_of_ne (ne_of_isKeyChar hc (by decide)).symm
  simp [atAnyMarker, atMarker, List.isPrefixOf, hdash, hdot]

theorem readPlain?_key {key : Text} (hkey : ∀ c ∈ key, isKeyChar c = true) (hne : key ≠ [])
    (margin : Nat) (spot : Spot) (rest : Text) :
    readPlain? false margin ⟨spot, key ++ ':' :: ' ' :: rest⟩ =
      some (key, ⟨spot.pass key.length, ':' :: ' ' :: rest⟩) := by
  obtain ⟨c, key, rfl⟩ := List.exists_cons_of_ne_nil hne
  have hc := hkey c List.mem_cons_self
  have hlater : ∀ d ∈ key, isKeyChar d = true := fun d hd => hkey d (List.mem_cons_of_mem c hd)
  have hline : c ≠ '\n' := ne_of_isKeyChar hc (by decide)
  have hcolon : c ≠ ':' := ne_of_isKeyChar hc (by decide)
  have hsign : c ≠ '#' := ne_of_isKeyChar hc (by decide)
  have hspace : isSpace c = false :=
    isSpace_eq_false (isSimpleChar_of_isKeyChar hc) (ne_of_isKeyChar hc (by decide))
  have hword := (readPlainFrom?_append margin (':' :: ' ' :: rest)
    (fun d hd => isSimpleChar_of_isKeyChar (hlater d hd))
    (fun h => ne_of_isKeyChar (hlater _ h) (by decide) rfl)
    (fun h => ne_of_isKeyChar (hlater _ h) (by decide) rfl)
    (fun h => ne_of_isKeyChar (hlater _ (List.mem_of_getLast? h)) (by decide) rfl)
    (show (spot.pass 1).fresh = false from rfl)).1
  rw [readPlainFrom?_colon] at hword
  simp [readPlain?, readPlainFrom?, hline, hspace, hsign, atAnyMarker_of_isKeyChar hc, isStrayDash,
    isPlainChar_of_ne hcolon, hword, prepend, Gap.text, Nat.add_comm]

/-! ## Quoted scalars -/

theorem quotedPart_simple {quote c : Char} (hquote : quote = '"' ∨ quote = '\'')
    (hc : isSimpleChar c = true) (rest : Text) : quotedPart quote c rest = .char c 0 := by
  have hslash : c ≠ '\\' := ne_of_isSimpleChar hc (by decide)
  have hne : c ≠ quote := by
    rcases hquote with rfl | rfl
    · exact ne_of_isSimpleChar hc (by decide)
    · exact ne_of_isSimpleChar hc (by decide)
  simp [quotedPart, hne, hslash]

theorem mayResume_of_le {margin : Nat} {spot : Spot} (hcolumn : margin ≤ spot.column + 1)
    (hfirst : spot.column ≠ 0) (rest : Text) : mayResume margin spot rest = true := by
  simp [mayResume, hfirst, Nat.not_lt.2 hcolumn]

theorem readQuotedFrom?_append {quote : Char} (hquote : quote = '"' ∨ quote = '\'')
    {margin : Nat} (rest : Text) {s : Text} (hs : ∀ c ∈ s, isSimpleChar c = true)
    {gap : Option Gap} (hgap : gap.all (!·.broken) = true) {spot : Spot}
    (hspot : spot.fresh = false) (hcolumn : margin ≤ spot.column + 1) (hfirst : spot.column ≠ 0) :
    readQuotedFrom? quote margin 0 gap spot (s ++ quote :: '\n' :: rest) =
      some ((gap.getD {}).text ++ s, ⟨spot.pass (s.length + 1), '\n' :: rest⟩) := by
  induction s generalizing gap spot with
  | nil =>
      have hclose : quotedPart quote quote ('\n' :: rest) = .close := by
        rcases hquote with rfl | rfl <;> rfl
      have hline : quote ≠ '\n' := by rcases hquote with rfl | rfl <;> decide
      have hspace : isSpace quote = false := by rcases hquote with rfl | rfl <;> rfl
      simp [readQuotedFrom?, hline, hspace, mayResume_of_le hcolumn hfirst, hclose]
  | cons c s ih =>
      have hc := hs c List.mem_cons_self
      have hlater : ∀ d ∈ s, isSimpleChar d = true := fun d hd => hs d (List.mem_cons_of_mem c hd)
      have hline : c ≠ '\n' := ne_of_isSimpleChar hc (by decide)
      have hcolumn' : margin ≤ (spot.pass 1).column + 1 := Nat.le_add_right_of_le hcolumn
      have hfirst' : (spot.pass 1).column ≠ 0 := Nat.succ_ne_zero spot.column
      rw [List.cons_append, readQuotedFrom?, if_neg hline]
      by_cases hspace : c = ' '
      · subst hspace
        have hbroken : (gap.getD {}).broken = false := by
          cases gap with
          | none => rfl
          | some gap => simpa using hgap
        rw [if_pos (by decide), if_neg (by simp), Spot.after_eq_pass hspot hline,
          ih hlater (by simp [Gap.space, hbroken]) rfl hcolumn' hfirst']
        simp [Gap.space, Gap.text, hbroken, Nat.add_comm, Nat.add_left_comm]
      · have hnot : isSpace c = false := isSpace_eq_false hc hspace
        have hread := ih hlater (show (none : Option Gap).all (!·.broken) = true from rfl) rfl
          hcolumn' hfirst'
        simp [hnot, mayResume_of_le hcolumn hfirst, quotedPart_simple hquote hc, hread, prepend,
          Gap.text, Nat.add_comm, Nat.add_left_comm]

theorem readQuoted?_value {s : Text} (hs : ∀ c ∈ s, isSimpleChar c = true) {quote : Char}
    (hquote : quote = '"' ∨ quote = '\'') {margin : Nat} {spot : Spot}
    (hcolumn : margin ≤ spot.column + 1) (rest : Text) :
    readQuoted? false margin ⟨spot, quote :: (s ++ quote :: '\n' :: rest)⟩ =
      some (s, ⟨spot.pass (s.length + 2), '\n' :: rest⟩) := by
  have hread : readQuotedFrom? quote margin 0 none (spot.pass 1) (s ++ quote :: '\n' :: rest) =
      some (s, ⟨spot.pass (s.length + 2), '\n' :: rest⟩) := by
    rw [readQuotedFrom?_append hquote rest hs rfl rfl (Nat.le_add_right_of_le hcolumn)
      (Nat.succ_ne_zero spot.column)]
    simp [Gap.text, Nat.add_left_comm]
  have hline : ∀ spot : Spot, (⟨spot, '\n' :: rest⟩ : Cursor).skipLine? true =
      some (⟨spot, '\n' :: rest⟩, []) := fun _ => rfl
  simp [readQuoted?, Cursor.pass, hread, hline, mayFollowQuoted]

end AuroraMigration.Yaml
