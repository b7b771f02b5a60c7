import AuroraMigration.Proofs.Lines
import AuroraMigration.Proofs.YamlScalar
import AuroraMigration.Yaml.BlockScalar

/-!
# Folded texts

A text that is longer than a line is broken at spaces. The lines, glued together
with spaces, are the text; each is filled with as many words as it can hold. The
block that they make up is read back where no line starts with a space, as a
line that does is taken for one with a line break of its own before it.
-/

namespace AuroraMigration.Yaml

/-! ## Filling lines -/

theorem fillLines_ne_nil (line : Text) (words : List Text) : fillLines line words ≠ [] := by
  induction words generalizing line with
  | nil => simp [fillLines]
  | cons word rest ih =>
      rw [fillLines]
      split
      · exact ih (line ++ ' ' :: word)
      · simp

theorem join_fillLines (line : Text) (words : List Text) :
    Text.join [' '] (fillLines line words) = Text.join [' '] (line :: words) := by
  induction words generalizing line with
  | nil => rfl
  | cons word rest ih =>
      rw [fillLines]
      split
      · rw [ih]
        cases rest <;> simp [Text.join]
      · rw [Text.join_cons (fillLines_ne_nil word rest), ih]
        rfl

theorem fillLines_fit {line : Text} {words : List Text}
    (hline : line.length ≤ foldWidth ∨ ' ' ∉ line) (hwords : ∀ word ∈ words, ' ' ∉ word) :
    ∀ filled ∈ fillLines line words, filled.length ≤ foldWidth ∨ ' ' ∉ filled := by
  induction words generalizing line with
  | nil => simpa [fillLines] using hline
  | cons word rest ih =>
      have hrest : ∀ other ∈ rest, ' ' ∉ other := fun other hother =>
        hwords other (List.mem_cons_of_mem word hother)
      rw [fillLines]
      split
      · rename_i hfits
        refine ih (.inl ?_) hrest
        simp only [List.length_append, List.length_cons]
        omega
      · intro filled hfilled
        rcases List.mem_cons.1 hfilled with rfl | hfilled
        · exact hline
        · exact ih (.inr (hwords word List.mem_cons_self)) hrest filled hfilled

/-- The characters of a line before its first space. -/
def firstWord (line : Text) : Text :=
  line.takeWhile (· != ' ')

theorem fillLines_first (line : Text) (words : List Text) :
    ∃ tail lines, fillLines line words = (line ++ tail) :: lines ∧ tail.head?.all (· == ' ') := by
  induction words generalizing line with
  | nil => exact ⟨[], [], by simp [fillLines], rfl⟩
  | cons word rest ih =>
      rw [fillLines]
      split
      · obtain ⟨tail, lines, hlines, -⟩ := ih (line ++ ' ' :: word)
        exact ⟨' ' :: word ++ tail, lines, by simp [hlines], rfl⟩
      · exact ⟨[], fillLines word rest, by simp, rfl⟩

theorem firstWord_append {word tail : Text} (hword : ' ' ∉ word)
    (htail : tail.head?.all (· == ' ')) : firstWord (word ++ tail) = word := by
  have hstop : tail.takeWhile (· != ' ') = [] := by
    cases tail with
    | nil => rfl
    | cons c tail =>
        obtain rfl : c = ' ' := by simpa using htail
        rfl
  rw [firstWord, List.takeWhile_append_of_pos, hstop, List.append_nil]
  intro c hc
  rw [bne_iff_ne]
  rintro rfl
  exact hword hc

theorem fillLines_full {line : Text} {words : List Text} (hwords : ∀ word ∈ words, ' ' ∉ word) :
    (fillLines line words).IsChain fun filled next =>
      foldWidth < filled.length + 1 + (firstWord next).length := by
  induction words generalizing line with
  | nil => simp [fillLines]
  | cons word rest ih =>
      have hrest : ∀ other ∈ rest, ' ' ∉ other := fun other hother =>
        hwords other (List.mem_cons_of_mem word hother)
      rw [fillLines]
      split
      · exact ih hrest
      · rename_i hfull
        obtain ⟨tail, lines, hlines, htail⟩ := fillLines_first word rest
        have hlater : (fillLines word rest).IsChain fun filled next =>
            foldWidth < filled.length + 1 + (firstWord next).length := ih hrest
        rw [hlines] at hlater ⊢
        rw [List.isChain_cons_cons,
          firstWord_append (hwords word List.mem_cons_self) htail]
        exact ⟨Nat.lt_of_not_le hfull, hlater⟩

theorem foldLines_eq (s : Text) :
    ∃ word rest, s.splitOn ' ' = word :: rest ∧ foldLines s = fillLines word rest := by
  obtain ⟨word, rest, hwords⟩ := List.exists_cons_of_ne_nil (List.splitOn_ne_nil ' ' s)
  exact ⟨word, rest, hwords, by rw [foldLines, hwords]⟩

theorem foldLines_ne_nil (s : Text) : foldLines s ≠ [] := by
  obtain ⟨word, rest, -, hlines⟩ := foldLines_eq s
  rw [hlines]
  exact fillLines_ne_nil word rest

/-- Nothing but line breaks in place of spaces is new in the lines of a text. -/
theorem join_foldLines (s : Text) : Text.join [' '] (foldLines s) = s := by
  obtain ⟨word, rest, hwords, hlines⟩ := foldLines_eq s
  rw [hlines, join_fillLines, ← hwords, Text.join_splitOn]

theorem foldLines_chars {s line : Text} (h : line ∈ foldLines s) : ∀ c ∈ line, c ∈ s := by
  intro c hc
  rw [← join_foldLines s]
  exact Text.mem_join_of_mem h hc

/-- Only a word that is longer than a line by itself stands in a longer line. -/
theorem foldLines_fit {s line : Text} (h : line ∈ foldLines s) :
    line.length ≤ foldWidth ∨ ' ' ∉ line := by
  obtain ⟨word, rest, hwords, hlines⟩ := foldLines_eq s
  have hspaces : ∀ other ∈ word :: rest, ' ' ∉ other := by
    intro other hother
    exact Text.not_mem_of_mem_splitOn (hwords ▸ hother)
  rw [hlines] at h
  exact fillLines_fit (.inr (hspaces word List.mem_cons_self))
    (fun other hother => hspaces other (List.mem_cons_of_mem word hother)) line h

/-- A line ends only where the first word of the next one would not fit. -/
theorem foldLines_full (s : Text) :
    (foldLines s).IsChain fun line next =>
      foldWidth < line.length + 1 + (firstWord next).length := by
  obtain ⟨word, rest, hwords, hlines⟩ := foldLines_eq s
  rw [hlines]
  refine fillLines_full fun other hother => ?_
  exact Text.not_mem_of_mem_splitOn (hwords ▸ List.mem_cons_of_mem word hother)

/-! ## Lines that start with a word -/

theorem fillLines_head {line : Text} {words : List Text}
    (hline : line.head?.any (· != ' ') = true)
    (hwords : ∀ word ∈ words, word.head?.any (· != ' ') = true) :
    ∀ filled ∈ fillLines line words, filled.head?.any (· != ' ') = true := by
  induction words generalizing line with
  | nil => simpa [fillLines] using hline
  | cons word rest ih =>
      have hrest : ∀ other ∈ rest, other.head?.any (· != ' ') = true := fun other hother =>
        hwords other (List.mem_cons_of_mem word hother)
      rw [fillLines]
      split
      · refine ih ?_ hrest
        cases line with
        | nil => cases hline
        | cons c line => exact hline
      · intro filled hfilled
        rcases List.mem_cons.1 hfilled with rfl | hfilled
        · exact hline
        · exact ih (hwords word List.mem_cons_self) hrest filled hfilled

/-- Where single spaces part the words, every line starts with a word. -/
theorem foldsAtWords_of_splitOn {s : Text} (h : [] ∉ s.splitOn ' ') : FoldsAtWords s := by
  have hwords : ∀ word ∈ s.splitOn ' ', word.head?.any (· != ' ') = true := by
    intro word hword
    obtain ⟨c, rest, rfl⟩ := List.exists_cons_of_ne_nil (show word ≠ [] by
      rintro rfl
      exact h hword)
    have hne : c ≠ ' ' := fun hc => Text.not_mem_of_mem_splitOn hword (hc ▸ List.mem_cons_self)
    simpa using hne
  obtain ⟨word, rest, hsplit, hlines⟩ := foldLines_eq s
  rw [hsplit] at hwords
  rw [FoldsAtWords, hlines]
  exact fillLines_head (hwords word List.mem_cons_self) fun other hother =>
    hwords other (List.mem_cons_of_mem word hother)

/-- A line that starts with a character other than spaces and line breaks. -/
def IsFlush (line : Text) : Prop :=
  ∃ c rest, line = c :: rest ∧ isSpace c = false ∧ '\n' ∉ line

theorem IsFlush.exists_cons {line : Text} (h : IsFlush line) :
    ∃ c rest, line = c :: rest ∧ c ≠ '\n' ∧ c ≠ ' ' := by
  obtain ⟨c, rest, rfl, hspace, hfeed⟩ := h
  refine ⟨c, rest, rfl, fun hc => hfeed (hc ▸ List.mem_cons_self), ?_⟩
  rintro rfl
  cases hspace

theorem FoldsAtWords.isFlush {s : Text} (h : FoldsAtWords s)
    (hs : ∀ c ∈ s, isSimpleChar c = true) : ∀ line ∈ foldLines s, IsFlush line := by
  intro line hline
  have hchars : ∀ c ∈ line, isSimpleChar c = true := fun c hc => hs c (foldLines_chars hline c hc)
  have hhead := h line hline
  cases line with
  | nil => cases hhead
  | cons c rest =>
      have hne : c ≠ ' ' := by simpa using hhead
      exact ⟨c, rest, rfl, isSpace_eq_false (hchars c List.mem_cons_self) hne,
        fun hfeed => absurd (hchars _ hfeed) (by decide)⟩

/-! ## Reading blocks -/

theorem skipIndent_line (spot : Spot) {line : Text} (hline : IsFlush line)
    (hspot : spot.column = 0) (rest : Text) :
    skipIndent 2 spot (' ' :: ' ' :: (line ++ rest)) =
      (0, ⟨(spot.after ' ').after ' ', line ++ rest⟩) := by
  obtain ⟨c, tail, rfl, hc, hblank⟩ := hline.exists_cons
  simp [skipIndent, Spot.after, hspot, hc, hblank]

theorem skipIndent_key (spot : Spot) {rest : Text} (hrest : rest.head?.all isKeyChar = true) :
    skipIndent 2 spot rest = (0, ⟨spot, rest⟩) := by
  cases rest with
  | nil => rfl
  | cons c rest =>
      have hc : isKeyChar c = true := hrest
      have hblank : c ≠ ' ' := ne_of_isKeyChar hc (by decide)
      have hfeed : c ≠ '\n' := ne_of_isKeyChar hc (by decide)
      simp [skipIndent, hblank, hfeed]

theorem readBlockLines_line {line : Text} (hline : IsFlush line) {spot : Spot}
    (hspot : spot.column = 2) (broken : Bool) {below : Text} {cursor : Cursor}
    (hskip : skipIndent 2 ((spot.pass line.length).after '\n') below = (0, cursor)) (fuel : Nat) :
    readBlockLines true 2 (fuel + 1) { cursor := ⟨spot, line ++ '\n' :: below⟩, broken } =
      ((if broken then [' '] else []) ++ line ++
          (readBlockLines true 2 fuel { cursor, broken := true }).1,
        (readBlockLines true 2 fuel { cursor, broken := true }).2) := by
  obtain ⟨c, tail, rfl, hspace, hfeed⟩ := hline
  have hend : (c :: tail ++ '\n' :: below).takeWhile (· != '\n') = c :: tail := by
    rw [List.takeWhile_append_of_pos]
    · simp
    · intro d hd
      rw [bne_iff_ne]
      rintro rfl
      exact hfeed hd
  have hjoint : BlockState.joint true
      { cursor := ⟨spot, c :: tail ++ '\n' :: below⟩, broken } = if broken then [' '] else [] := by
    cases broken <;> simp [BlockState.joint, hspace]
  have hgoes :
      BlockState.goesOn 2 { cursor := ⟨spot, c :: tail ++ '\n' :: below⟩, broken } = true := by
    simp [BlockState.goesOn, hspot]
  have hspaced : (c :: tail ++ '\n' :: below).head?.any isSpace = false := by simpa using hspace
  rw [readBlockLines, if_pos hgoes]
  simp only [hend, hjoint, hspaced, Cursor.pass, List.drop_left, List.isEmpty_cons,
    Bool.false_eq_true, if_false, Cursor.breakLine, hskip]

/-- The lines of a block are read up to a line that is not indented. -/
theorem readBlockLines_flush {line : Text} {lines : List Text}
    (hlines : ∀ other ∈ line :: lines, IsFlush other) {rest : Text}
    (hrest : rest.head?.all isKeyChar = true) {spot : Spot} (hspot : spot.column = 2)
    (broken : Bool) {fuel : Nat} (hfuel : lines.length < fuel) :
    ∃ last, last.column = 0 ∧
      readBlockLines true 2 fuel
        { cursor := ⟨spot, line ++ (lines.flatMap blockLine ++ '\n' :: rest)⟩, broken } =
      ((if broken then [' '] else []) ++ Text.join [' '] (line :: lines),
        { cursor := ⟨last, rest⟩, broken := true }) := by
  have hline := hlines line List.mem_cons_self
  induction lines generalizing line spot broken fuel with
  | nil =>
      obtain ⟨fuel, rfl⟩ := Nat.exists_eq_add_of_lt hfuel
      have hover : readBlockLines true 2 fuel
          { cursor := ⟨(spot.pass line.length).after '\n', rest⟩, broken := true } =
          ([], { cursor := ⟨(spot.pass line.length).after '\n', rest⟩, broken := true }) := by
        cases fuel <;> simp [readBlockLines, BlockState.goesOn, Spot.after]
      refine ⟨(spot.pass line.length).after '\n', rfl, ?_⟩
      rw [List.flatMap_nil, List.nil_append, List.length_nil, Nat.zero_add,
        readBlockLines_line hline hspot broken (skipIndent_key _ hrest), hover, List.append_nil]
      rfl
  | cons next lines ih =>
      obtain ⟨fuel, rfl⟩ := Nat.exists_eq_add_of_lt hfuel
      rw [List.length_cons] at hfuel
      have hnext := hlines next (by simp)
      have hskip := skipIndent_line ((spot.pass line.length).after '\n') hnext rfl
        (lines.flatMap blockLine ++ '\n' :: rest)
      obtain ⟨last, hlast, hread⟩ := ih (fun other hother => hlines other
        (List.mem_cons_of_mem line hother))
        (show ((((spot.pass line.length).after '\n').after ' ').after ' ').column = 2 from rfl) true
        (show lines.length < lines.length + 1 + fuel by omega) hnext
      refine ⟨last, hlast, ?_⟩
      have htext : line ++ ((next :: lines).flatMap blockLine ++ '\n' :: rest) =
          line ++ '\n' :: (' ' :: ' ' :: (next ++ (lines.flatMap blockLine ++ '\n' :: rest))) := by
        simp [blockLine]
      rw [htext, List.length_cons, readBlockLines_line hline hspot broken hskip, hread]
      simp [Text.join]

theorem findIndent_line (spot : Spot) {line : Text} (hline : IsFlush line)
    (hspot : spot.column = 0) (rest : Text) :
    findIndent 0 spot (' ' :: ' ' :: (line ++ rest)) =
      (2, 0, ⟨(spot.after ' ').after ' ', line ++ rest⟩) := by
  obtain ⟨c, tail, rfl, hc, hblank⟩ := hline.exists_cons
  simp [findIndent, Spot.after, hspot, hc, hblank]

theorem length_blockLines (lines : List Text) :
    lines.length ≤ (lines.flatMap blockLine).length := by
  induction lines with
  | nil => exact Nat.le_refl 0
  | cons line lines ih =>
      have hblock : (blockLine line).length = line.length + 3 := by
        rw [blockLine, List.length_append, Nat.add_comm]
        rfl
      rw [List.flatMap_cons, List.length_append, List.length_cons, hblock]
      omega

/-- A text is read back from its folded block if every line starts with a word. -/
theorem readBlock?_folded {s : Text} (hs : ∀ c ∈ s, isSimpleChar c = true)
    (hfold : FoldsAtWords s) (spot : Spot) {rest : Text}
    (hrest : rest.head?.all isKeyChar = true) :
    ∃ last, last.column = 0 ∧
      readBlock? true 1 ⟨spot, writeFolded s ++ '\n' :: rest⟩ = some (s, ⟨last, rest⟩) := by
  have hflush := hfold.isFlush hs
  have hjoin := join_foldLines s
  obtain ⟨line, lines, hlines⟩ := List.exists_cons_of_ne_nil (foldLines_ne_nil s)
  rw [hlines] at hflush hjoin
  have htext : writeFolded s ++ '\n' :: rest =
      '>' :: '-' :: '\n' :: ' ' :: ' ' :: (line ++ (lines.flatMap blockLine ++ '\n' :: rest)) := by
    simp [writeFolded, hlines, blockLine]
  have hheader : ∀ text, readBlockHeader? ('-' :: '\n' :: text) =
      some { chomping := .strip, length := 1 } := fun _ => rfl
  have hskip : ∀ (spot : Spot) text, Cursor.skipLine? true ⟨spot, '\n' :: text⟩ =
      some (⟨spot.skip 0, '\n' :: text⟩, []) := fun _ _ => rfl
  have hindent := findIndent_line ((((spot.pass 1).pass 1).skip 0).after '\n')
    (hflush line List.mem_cons_self) rfl (lines.flatMap blockLine ++ '\n' :: rest)
  have hcolumn : (((((spot.pass 1).pass 1).skip 0).after '\n').after ' ' |>.after ' ').column = 2 :=
    rfl
  have hfuel : lines.length < (line ++ (lines.flatMap blockLine ++ '\n' :: rest)).length := by
    have hlength := length_blockLines lines
    simp only [List.length_append, List.length_cons]
    omega
  obtain ⟨last, hlast, hread⟩ := readBlockLines_flush hflush hrest hcolumn false hfuel
  refine ⟨last, hlast, ?_⟩
  have hblock : (line ++ (lines.flatMap blockLine ++ '\n' :: rest)).isEmpty = false := by simp
  generalize line ++ (lines.flatMap blockLine ++ '\n' :: rest) = body at *
  rw [htext]
  simp only [readBlock?, bind, Option.bind, Cursor.pass, List.drop_succ_cons, List.drop_zero,
    hheader, hskip, atLineEnd, Cursor.breakLine, hindent, if_true, hblock, hcolumn,
    show max 2 1 = 2 from rfl, hread]
  simp [BlockState.tail, hjoin]

end AuroraMigration.Yaml
