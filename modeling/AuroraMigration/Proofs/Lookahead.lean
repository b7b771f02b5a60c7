import AuroraMigration.Sql.Scan

/-!
# How far a scan looks ahead

A step that reads more than one character completes a delimiter: the second
dash of a line comment, the second of two quotes, the rest of a dollar tag. All
that a step learns from the text ahead is which completion starts there. A
character that occurs in no completion is a break: no delimiter reaches over it,
so cutting a text at a break, or replacing what follows one, changes no step.
-/

namespace AuroraMigration

/-- Whether no delimiter of more than one character can contain `c`. -/
def isBreak (c : Char) : Bool :=
  !(isTagChar c || ['\'', '"', '-', '/', '*', '$'].contains c)

/-- The text is empty or starts with a break. -/
def Boundary (text : Text) : Prop :=
  ∀ c, text.head? = some c → isBreak c = true

@[simp] theorem boundary_nil : Boundary [] := by
  simp [Boundary]

@[simp] theorem boundary_cons (c : Char) (text : Text) :
    Boundary (c :: text) ↔ isBreak c = true := by
  simp [Boundary]

/-- The tag of the dollar quote that a scan stands in holds tag characters only. -/
def ScanState.WellTagged (s : ScanState) : Prop :=
  ∀ tag, s.mode = .dollar tag → ∀ c ∈ tag, isTagChar c = true

theorem wellTagged_of_code {s : ScanState} (h : s.mode = .code) : s.WellTagged := by
  intro tag htag
  rw [h] at htag
  cases htag

@[simp] theorem wellTagged_start : ScanState.start.WellTagged :=
  wellTagged_of_code rfl

/-! ## Completions -/

/-- The texts that, when they stand right after `c`, belong to the step that reads `c`. -/
def Completes (s : ScanState) (c : Char) (ahead : Text) : Prop :=
  match s.mode with
  | .code =>
      (c = '-' ∧ ahead = ['-']) ∨ (c = '/' ∧ ahead = ['*']) ∨
        (c = '$' ∧ ∃ tag, ahead = tag ++ ['$'] ∧ (∀ d ∈ tag, isTagChar d = true) ∧
          tag.head?.any Char.isDigit = false)
  | .string => c = '\'' ∧ ahead = ['\'']
  | .name => c = '"' ∧ ahead = ['"']
  | .dollar tag => c = '$' ∧ ahead = tag ++ ['$']
  | .lineComment => False
  | .blockComment _ => (c = '/' ∧ ahead = ['*']) ∨ (c = '*' ∧ ahead = ['/'])

theorem isTagChar_dollar : isTagChar '$' = false := by decide

theorem isBreak_of_isTagChar {c : Char} (h : isTagChar c = true) : isBreak c = false := by
  simp [isBreak, h]

theorem takeWhile_tag {tag : Text} (htag : ∀ c ∈ tag, isTagChar c = true) (rest : Text) :
    (tag ++ '$' :: rest).takeWhile (· != '$') = tag := by
  have hne : ∀ c ∈ tag, (c != '$') = true := by
    intro c hc
    have hc' := htag c hc
    simp only [bne_iff_ne, ne_eq]
    rintro rfl
    simp [isTagChar_dollar] at hc'
  rw [List.takeWhile_append_of_pos hne]
  simp

/-- A dollar quote opens exactly where its tag and the closing dollar of the tag stand ahead. -/
theorem dollarTag?_eq_some_iff (rest tag : Text) :
    dollarTag? rest = some tag ↔
      (tag ++ ['$']) <+: rest ∧ (∀ c ∈ tag, isTagChar c = true) ∧
        tag.head?.any Char.isDigit = false := by
  constructor
  · intro h
    unfold dollarTag? at h
    dsimp only at h
    split at h <;> try contradiction
    rename_i hlen
    split at h <;> try contradiction
    rename_i hdigit
    split at h <;> try contradiction
    rename_i hall
    simp only [Option.some.injEq] at h
    subst h
    refine ⟨?_, by simpa using hall, by simpa using hdigit⟩
    have hsplit := List.takeWhile_append_dropWhile (p := (· != '$')) (l := rest)
    cases hdrop : rest.dropWhile (· != '$') with
    | nil =>
        rw [hdrop, List.append_nil] at hsplit
        rw [hsplit] at hlen
        omega
    | cons d more =>
        have hd := List.head_dropWhile_not (· != '$') (by rw [hdrop]; simp)
        simp only [hdrop, List.head_cons, bne_eq_false_iff_eq] at hd
        rw [hdrop, hd] at hsplit
        exact ⟨more, by simpa using hsplit⟩
  · rintro ⟨⟨more, rfl⟩, htag, hdigit⟩
    have htake := takeWhile_tag htag more
    rw [List.append_assoc, List.singleton_append]
    unfold dollarTag?
    dsimp only
    rw [htake]
    simpa [hdigit] using htag

theorem dollarTag?_eq_none_iff (rest : Text) :
    dollarTag? rest = none ↔
      ∀ tag, (∀ c ∈ tag, isTagChar c = true) → tag.head?.any Char.isDigit = false →
        ¬ (tag ++ ['$']) <+: rest := by
  constructor
  · intro h tag htag hdigit hahead
    rw [(dollarTag?_eq_some_iff rest tag).2 ⟨hahead, htag, hdigit⟩] at h
    cases h
  · intro h
    cases hd : dollarTag? rest with
    | none => rfl
    | some tag =>
        obtain ⟨hahead, htag, hdigit⟩ := (dollarTag?_eq_some_iff rest tag).1 hd
        exact absurd hahead (h tag htag hdigit)

theorem singleton_prefix_iff (c : Char) (text : Text) : [c] <+: text ↔ text.head? = some c := by
  cases text with
  | nil => simp
  | cons d rest => simp [eq_comm]

/-- All characters of a completion but the last are tag characters, and the last is no break. -/
theorem completes_chars {s : ScanState} {c : Char} {ahead : Text} (hs : s.WellTagged)
    (h : Completes s c ahead) :
    ∃ tag d, ahead = tag ++ [d] ∧ (∀ e ∈ tag, isTagChar e = true) ∧ isBreak d = false := by
  unfold Completes at h
  split at h
  · rcases h with ⟨-, rfl⟩ | ⟨-, rfl⟩ | ⟨-, tag, rfl, htag, -⟩
    · exact ⟨[], '-', rfl, by simp, by decide⟩
    · exact ⟨[], '*', rfl, by simp, by decide⟩
    · exact ⟨tag, '$', rfl, htag, by decide⟩
  · exact ⟨[], '\'', h.2, by simp, by decide⟩
  · exact ⟨[], '"', h.2, by simp, by decide⟩
  · rename_i tag hmode
    exact ⟨tag, '$', h.2, hs tag hmode, by decide⟩
  · exact h.elim
  · rcases h with ⟨-, rfl⟩ | ⟨-, rfl⟩
    · exact ⟨[], '*', rfl, by simp, by decide⟩
    · exact ⟨[], '/', rfl, by simp, by decide⟩

/-- A reading either finds one of the texts `P` ahead and takes it, or finds none. -/
def Reading.Finds (reading : Reading) (P : Text → Prop) (rest : Text) : Prop :=
  (reading.more = [] ∧ ∀ ahead, P ahead → ¬ ahead <+: rest) ∨
    (P reading.more ∧ reading.more <+: rest)

theorem readCode_finds (depth : Nat) (c : Char) (rest : Text) :
    (readCode depth c rest).Finds (Completes ⟨.code, depth⟩ c) rest := by
  unfold readCode Completes
  split
  case h_3 =>
    split
    · exact .inr ⟨.inl ⟨rfl, rfl⟩, by simp⟩
    · rename_i hno
      refine .inl ⟨rfl, ?_⟩
      rintro ahead (⟨-, rfl⟩ | ⟨h, -⟩ | ⟨h, -⟩)
      · rintro ⟨more, rfl⟩
        exact hno more rfl
      · simp at h
      · simp at h
  case h_4 =>
    split
    · exact .inr ⟨.inr (.inl ⟨rfl, rfl⟩), by simp⟩
    · rename_i hno
      refine .inl ⟨rfl, ?_⟩
      rintro ahead (⟨h, -⟩ | ⟨-, rfl⟩ | ⟨h, -⟩)
      · simp at h
      · rintro ⟨more, rfl⟩
        exact hno more rfl
      · simp at h
  case h_5 =>
    cases htag : dollarTag? rest with
    | some tag =>
        obtain ⟨hahead, hchars, hdigit⟩ := (dollarTag?_eq_some_iff rest tag).1 htag
        exact .inr ⟨.inr (.inr ⟨rfl, tag, rfl, hchars, hdigit⟩), hahead⟩
    | none =>
        refine .inl ⟨rfl, ?_⟩
        rintro ahead (⟨h, -⟩ | ⟨h, -⟩ | ⟨-, tag, rfl, hchars, hdigit⟩)
        · simp at h
        · simp at h
        · exact (dollarTag?_eq_none_iff rest).1 htag tag hchars hdigit
  all_goals
    refine .inl ⟨rfl, ?_⟩
    rintro ahead (⟨h, -⟩ | ⟨h, -⟩ | ⟨h, -⟩) <;> simp_all

theorem readQuoted_finds (quote : Char) (inside : Mode) (cls : CharClass) (depth : Nat) (c : Char)
    (rest : Text) :
    (readQuoted quote inside cls depth c rest).Finds
      (fun ahead => c = quote ∧ ahead = [quote]) rest := by
  unfold readQuoted
  by_cases hc : c = quote
  · by_cases hq : rest.head? = some quote
    · exact .inr (by simpa [hc, hq] using (singleton_prefix_iff quote rest).2 hq)
    · refine .inl ⟨by simp [hc, hq], ?_⟩
      rintro ahead ⟨-, rfl⟩ hahead
      exact hq ((singleton_prefix_iff quote rest).1 hahead)
  · exact .inl ⟨by simp [hc], fun ahead h => absurd h.1 hc⟩

theorem readDollar_finds (tag : Text) (depth : Nat) (c : Char) (rest : Text) :
    (readDollar tag depth c rest).Finds (fun ahead => c = '$' ∧ ahead = tag ++ ['$']) rest := by
  unfold readDollar
  by_cases h : c = '$' ∧ (tag ++ ['$']).isPrefixOf rest
  · rw [if_pos h]
    exact .inr ⟨⟨h.1, rfl⟩, List.isPrefixOf_iff_prefix.1 h.2⟩
  · rw [if_neg h]
    refine .inl ⟨rfl, ?_⟩
    rintro ahead ⟨hc, rfl⟩ hahead
    exact h ⟨hc, List.isPrefixOf_iff_prefix.2 hahead⟩

theorem readBlockComment_finds (level depth : Nat) (c : Char) (rest : Text) :
    (readBlockComment level depth c rest).Finds
      (fun ahead => (c = '/' ∧ ahead = ['*']) ∨ (c = '*' ∧ ahead = ['/'])) rest := by
  unfold readBlockComment
  by_cases hopen : c = '/' ∧ rest.head? = some '*'
  · rw [if_pos hopen]
    exact .inr ⟨.inl ⟨hopen.1, rfl⟩, (singleton_prefix_iff '*' rest).2 hopen.2⟩
  · rw [if_neg hopen]
    by_cases hclose : c = '*' ∧ rest.head? = some '/'
    · rw [if_pos hclose]
      exact .inr ⟨.inr ⟨hclose.1, rfl⟩, (singleton_prefix_iff '/' rest).2 hclose.2⟩
    · rw [if_neg hclose]
      refine .inl ⟨rfl, ?_⟩
      rintro ahead (⟨hc, rfl⟩ | ⟨hc, rfl⟩) hahead
      · exact hopen ⟨hc, (singleton_prefix_iff '*' rest).1 hahead⟩
      · exact hclose ⟨hc, (singleton_prefix_iff '/' rest).1 hahead⟩

/-- What a step reads beyond its first character is the completion that stands ahead, if any. -/
theorem read_finds (s : ScanState) (c : Char) (rest : Text) :
    (read s c rest).Finds (Completes s c) rest := by
  obtain ⟨mode, depth⟩ := s
  cases mode with
  | code => exact readCode_finds depth c rest
  | string => exact readQuoted_finds '\'' .string .string depth c rest
  | name => exact readQuoted_finds '"' .name .name depth c rest
  | dollar tag => exact readDollar_finds tag depth c rest
  | lineComment =>
      refine .inl ⟨?_, fun ahead h => h.elim⟩
      simp only [read, readLineComment]
      split <;> rfl
  | blockComment level => exact readBlockComment_finds level depth c rest

theorem tag_unique {tag tag' rest : Text} (htag : ∀ c ∈ tag, isTagChar c = true)
    (htag' : ∀ c ∈ tag', isTagChar c = true) (h : (tag ++ ['$']) <+: rest)
    (h' : (tag' ++ ['$']) <+: rest) : tag = tag' := by
  obtain ⟨u, rfl⟩ := h
  obtain ⟨v, hv⟩ := h'
  have htake := takeWhile_tag htag u
  have htake' := takeWhile_tag htag' v
  simp only [List.append_assoc, List.singleton_append] at hv
  rw [hv, htake] at htake'
  exact htake'

/-- Two completions of one character that stand ahead of one text are the same. -/
theorem completes_unique {s : ScanState} {c : Char} {p q rest : Text}
    (hp : Completes s c p) (hq : Completes s c q) (hprest : p <+: rest) (hqrest : q <+: rest) :
    p = q := by
  obtain ⟨mode, depth⟩ := s
  cases mode with
  | code =>
      rcases hp with ⟨rfl, rfl⟩ | ⟨rfl, rfl⟩ | ⟨rfl, tag, rfl, htag, -⟩
      · rcases hq with ⟨-, rfl⟩ | ⟨h, -⟩ | ⟨h, -⟩
        · rfl
        · simp at h
        · simp at h
      · rcases hq with ⟨h, -⟩ | ⟨-, rfl⟩ | ⟨h, -⟩
        · simp at h
        · rfl
        · simp at h
      · rcases hq with ⟨h, -⟩ | ⟨h, -⟩ | ⟨-, tag', rfl, htag', -⟩
        · simp at h
        · simp at h
        · rw [tag_unique htag htag' hprest hqrest]
  | string => exact hp.2.trans hq.2.symm
  | name => exact hp.2.trans hq.2.symm
  | dollar tag => exact hp.2.trans hq.2.symm
  | lineComment => exact hp.elim
  | blockComment level =>
      rcases hp with ⟨rfl, rfl⟩ | ⟨rfl, rfl⟩
      · rcases hq with ⟨-, rfl⟩ | ⟨h, -⟩
        · rfl
        · simp at h
      · rcases hq with ⟨h, -⟩ | ⟨-, rfl⟩
        · simp at h
        · rfl

/-- A reading takes the completion that stands ahead. -/
theorem read_more_of_completes {s : ScanState} {c : Char} {ahead rest : Text}
    (h : Completes s c ahead) (hahead : ahead <+: rest) : (read s c rest).more = ahead := by
  rcases read_finds s c rest with ⟨-, hnone⟩ | ⟨hmore, hmahead⟩
  · exact absurd hahead (hnone ahead h)
  · exact completes_unique hmore h hmahead hahead

theorem read_more_eq_nil {s : ScanState} {c : Char} {rest : Text}
    (h : ∀ ahead, Completes s c ahead → ¬ ahead <+: rest) : (read s c rest).more = [] := by
  rcases read_finds s c rest with ⟨hmore, -⟩ | ⟨hmore, hahead⟩
  · exact hmore
  · exact absurd hahead (h _ hmore)

theorem read_more_prefix (s : ScanState) (c : Char) (rest : Text) :
    (read s c rest).more <+: rest := by
  rcases read_finds s c rest with ⟨hmore, -⟩ | ⟨-, hahead⟩
  · simp [hmore]
  · exact hahead

/-! ## A reading is a function of what it completes -/

theorem readCode_congr {depth : Nat} {c : Char} {rest rest' : Text}
    (h : (readCode depth c rest).more = (readCode depth c rest').more) :
    readCode depth c rest = readCode depth c rest' := by
  unfold readCode at h ⊢
  split
  case h_3 => split <;> split <;> simp_all
  case h_4 => split <;> split <;> simp_all
  case h_5 => cases hd : dollarTag? rest <;> cases hd' : dollarTag? rest' <;> simp_all
  all_goals rfl

theorem readQuoted_congr {quote : Char} {inside : Mode} {cls : CharClass} {depth : Nat} {c : Char}
    {rest rest' : Text}
    (h : (readQuoted quote inside cls depth c rest).more =
      (readQuoted quote inside cls depth c rest').more) :
    readQuoted quote inside cls depth c rest = readQuoted quote inside cls depth c rest' := by
  unfold readQuoted at h ⊢
  by_cases hc : c = quote
  · by_cases hq : rest.head? = some quote <;> by_cases hq' : rest'.head? = some quote <;>
      simp_all
  · simp [hc]

theorem readDollar_congr {tag : Text} {depth : Nat} {c : Char} {rest rest' : Text}
    (h : (readDollar tag depth c rest).more = (readDollar tag depth c rest').more) :
    readDollar tag depth c rest = readDollar tag depth c rest' := by
  unfold readDollar at h ⊢
  by_cases ho : c = '$' ∧ (tag ++ ['$']).isPrefixOf rest <;>
    by_cases ho' : c = '$' ∧ (tag ++ ['$']).isPrefixOf rest'
  · rw [if_pos ho, if_pos ho']
  · rw [if_pos ho, if_neg ho'] at h
    simp at h
  · rw [if_neg ho, if_pos ho'] at h
    simp at h
  · rw [if_neg ho, if_neg ho']

theorem readBlockComment_congr {level depth : Nat} {c : Char} {rest rest' : Text}
    (h : (readBlockComment level depth c rest).more =
      (readBlockComment level depth c rest').more) :
    readBlockComment level depth c rest = readBlockComment level depth c rest' := by
  unfold readBlockComment at h ⊢
  by_cases hc : c = '/'
  · by_cases ho : rest.head? = some '*' <;> by_cases ho' : rest'.head? = some '*' <;> simp_all
  · by_cases hd : c = '*'
    · by_cases ho : rest.head? = some '/' <;> by_cases ho' : rest'.head? = some '/' <;> simp_all
    · simp [hc, hd]

theorem read_congr {s : ScanState} {c : Char} {rest rest' : Text}
    (h : (read s c rest).more = (read s c rest').more) : read s c rest = read s c rest' := by
  obtain ⟨mode, depth⟩ := s
  cases mode with
  | code => exact readCode_congr h
  | string => exact readQuoted_congr h
  | name => exact readQuoted_congr h
  | dollar tag => exact readDollar_congr h
  | lineComment => rfl
  | blockComment level => exact readBlockComment_congr h

/-! ## Cutting and extending the text ahead -/

theorem prefix_of_prefix_append {p u rest : Text} (h : p <+: u ++ rest)
    (hrest : ∀ c, rest.head? = some c → c ∉ p) : p <+: u := by
  rcases List.prefix_or_prefix_of_prefix h (List.prefix_append u rest) with hpu | ⟨v, rfl⟩
  · exact hpu
  · cases v with
    | nil => simp
    | cons d v =>
        obtain ⟨w, hw⟩ := (List.prefix_append_right_inj u).1 h
        have hd : rest.head? = some d := by simp [← hw]
        exact absurd (by simp) (hrest d hd)

/-- No completion reaches over a break. -/
theorem completes_prefix_of_boundary {s : ScanState} {c : Char} {p u rest : Text}
    (hs : s.WellTagged) (hp : Completes s c p) (hrest : Boundary rest) (h : p <+: u ++ rest) :
    p <+: u := by
  refine prefix_of_prefix_append h ?_
  intro d hd hmem
  have hbreak := hrest d hd
  obtain ⟨tag, e, rfl, htag, he⟩ := completes_chars hs hp
  rcases List.mem_append.1 hmem with hmem | hmem
  · rw [isBreak_of_isTagChar (htag d hmem)] at hbreak
    cases hbreak
  · rw [List.mem_singleton.1 hmem, he] at hbreak
    cases hbreak

/-- No completion reaches over a character that cannot be part of a tag. -/
theorem completes_prefix_of_last {s : ScanState} {c d : Char} {p u rest : Text}
    (hs : s.WellTagged) (hp : Completes s c p) (hd : isTagChar d = false)
    (h : p <+: u ++ d :: rest) : p <+: u ++ [d] := by
  have hsplit : u ++ d :: rest = (u ++ [d]) ++ rest := by simp
  rw [hsplit] at h
  rcases List.prefix_or_prefix_of_prefix h (List.prefix_append (u ++ [d]) rest) with
    hpu | ⟨v, hv⟩
  · exact hpu
  · obtain ⟨tag, e, rfl, htag, -⟩ := completes_chars hs hp
    rcases List.eq_nil_or_concat v with rfl | ⟨v, f, rfl⟩
    · simp [← hv]
    · rw [List.concat_eq_append, ← List.append_assoc] at hv
      have hinit := (List.append_inj' hv rfl).1
      have hmem : d ∈ tag := by
        rw [← hinit]
        simp
      rw [htag d hmem] at hd
      cases hd

/-- A step reads the same when what follows some of the text ahead is cut or begins with a break. -/
theorem read_cut {s : ScanState} {c : Char} {m u rest rest' : Text} (hs : s.WellTagged)
    (h : (read s c (m ++ (u ++ rest))).more = m) (hrest : Boundary rest') :
    read s c (m ++ (u ++ rest')) = read s c (m ++ (u ++ rest)) := by
  apply read_congr
  rw [h]
  rcases read_finds s c (m ++ (u ++ rest)) with ⟨hm, hnone⟩ | ⟨hm, -⟩
  · rw [h] at hm
    subst hm
    apply read_more_eq_nil
    intro p hp hahead
    have hpu := completes_prefix_of_boundary hs hp hrest hahead
    exact hnone p hp (hpu.trans (List.prefix_append u rest))
  · rw [h] at hm
    exact read_more_of_completes hm (List.prefix_append m _)

/-- A step reads the same whatever follows a character that cannot be part of a tag. -/
theorem read_extend {s : ScanState} {c d : Char} {m u rest : Text} (rest' : Text)
    (hs : s.WellTagged) (h : (read s c (m ++ (u ++ d :: rest))).more = m)
    (hd : isTagChar d = false) :
    read s c (m ++ (u ++ d :: rest')) = read s c (m ++ (u ++ d :: rest)) := by
  apply read_congr
  rw [h]
  rcases read_finds s c (m ++ (u ++ d :: rest)) with ⟨hm, hnone⟩ | ⟨hm, -⟩
  · rw [h] at hm
    subst hm
    apply read_more_eq_nil
    intro p hp hahead
    have hpu := completes_prefix_of_last hs hp hd hahead
    refine hnone p hp (hpu.trans ⟨rest, ?_⟩)
    simp
  · rw [h] at hm
    exact read_more_of_completes hm (List.prefix_append m _)

theorem readCode_wellTagged (depth : Nat) (c : Char) (rest : Text) :
    (readCode depth c rest).after.WellTagged := by
  unfold readCode
  split
  case h_5 =>
    cases htag : dollarTag? rest with
    | some tag =>
        intro tag' hmode
        cases hmode
        exact ((dollarTag?_eq_some_iff rest tag).1 htag).2.1
    | none => exact wellTagged_of_code rfl
  case h_3 => split <;> intro tag hmode <;> cases hmode
  case h_4 => split <;> intro tag hmode <;> cases hmode
  all_goals
    intro tag hmode
    cases hmode

/-- Scanning keeps tags made of tag characters. -/
theorem read_wellTagged {s : ScanState} (hs : s.WellTagged) (c : Char) (rest : Text) :
    (read s c rest).after.WellTagged := by
  obtain ⟨mode, depth⟩ := s
  cases mode with
  | code => exact readCode_wellTagged depth c rest
  | string =>
      simp only [read, readQuoted]
      split <;> try split
      all_goals intro tag hmode; cases hmode
  | name =>
      simp only [read, readQuoted]
      split <;> try split
      all_goals intro tag hmode; cases hmode
  | dollar tag =>
      simp only [read, readDollar]
      split
      · exact wellTagged_of_code rfl
      · exact hs
  | lineComment =>
      simp only [read, readLineComment]
      split <;> intro tag hmode <;> cases hmode
  | blockComment level =>
      simp only [read, readBlockComment]
      split
      · intro tag hmode
        cases hmode
      · split
        · split <;> intro tag hmode <;> cases hmode
        · intro tag hmode
          cases hmode

end AuroraMigration
