import AuroraMigration.Proofs.YamlFold
import AuroraMigration.Yaml.Document
import Mathlib.Data.List.TakeWhile

/-!
# Reading mappings back

A mapping whose keys stand at the starts of lines and whose values are scalars,
on the lines of their keys or in a block below them, is read back as it was
written. The scanner needs three steps for an entry: the key, the colon, and the
value with the line break behind it.
-/

namespace AuroraMigration.Yaml

/-- An entry on lines of its own, and what is read from there. -/
structure LineEntry where
  key : Text
  written : Text
  style : ScalarStyle
  text : Text
  key_chars : ∀ c ∈ key, isKeyChar c = true
  key_ne_nil : key ≠ []
  key_length : key.length ≤ 1024
  reads : ReadsAs written style text

namespace LineEntry

def line (entry : LineEntry) : Text :=
  entry.key ++ ':' :: ' ' :: (entry.written ++ ['\n'])

def tokens (entry : LineEntry) : List Token :=
  [.key, .scalar .plain entry.key, .value, .scalar entry.style entry.text]

def node (entry : LineEntry) : Yaml × Yaml :=
  (.scalar .plain none entry.key, .scalar entry.style none entry.text)

end LineEntry

/-! ## Gaps -/

/-- Whether a gap ends before a character. -/
def startsToken (c : Char) : Bool :=
  !isSpace c && c != '\n' && c != '#'

theorem startsToken_of_isKeyChar {c : Char} (hc : isKeyChar c = true) : startsToken c = true := by
  have hspace : isSpace c = false :=
    isSpace_eq_false (isSimpleChar_of_isKeyChar hc) (ne_of_isKeyChar hc (by decide))
  have hline : c ≠ '\n' := ne_of_isKeyChar hc (by decide)
  have hsign : c ≠ '#' := ne_of_isKeyChar hc (by decide)
  simp [startsToken, hspace, hline, hsign]

theorem IsPlain.startsToken {c : Char} {s : Text} (h : IsPlain (c :: s)) :
    startsToken c = true := by
  have hc := h.chars c List.mem_cons_self
  have hline : c ≠ '\n' := ne_of_isSimpleChar hc (by decide)
  have hsign : c ≠ '#' := fun hc => h.noSign (hc ▸ List.mem_cons_self)
  simp [Yaml.startsToken, isSpace_eq_false hc (h.first c rfl).1, hline, hsign]

theorem skipGapFrom?_token {c : Char} (hc : startsToken c = true) (margin : Nat) (spot : Spot)
    (rest : Text) : skipGapFrom? margin .free spot (c :: rest) = some ⟨spot, c :: rest⟩ := by
  simp only [startsToken, isSpace, Bool.and_eq_true, Bool.not_eq_true', Bool.or_eq_false_iff,
    beq_eq_false_iff_ne, bne_iff_ne] at hc
  obtain ⟨⟨⟨hspace, htab⟩, hline⟩, hsign⟩ := hc
  simp [skipGapFrom?, isSpace, hspace, htab, hline, hsign]

theorem skipGapFrom?_line (margin : Nat) (spot : Spot) {rest : Text}
    (hrest : rest.head?.all isKeyChar = true) :
    skipGapFrom? margin .free spot ('\n' :: rest) = some ⟨spot.after '\n', rest⟩ := by
  rw [skipGapFrom?, if_pos rfl]
  cases rest with
  | nil => rfl
  | cons c rest => exact skipGapFrom?_token (startsToken_of_isKeyChar hrest) margin _ rest

/-! ## Lines -/

namespace Scanner

/-- Where a line starts: before the mapping, or between two of its entries. -/
structure AtLine (opened : Bool) (scanner : Scanner) : Prop where
  column : scanner.cursor.spot.column = 0
  keyAllowed : scanner.keyAllowed = true
  noKey : scanner.keyStart.possible = false
  noFlow : scanner.outerStarts = []
  closed : scanner.close 1 =
    { scanner with margin := opened.toNat, outer := if opened then [⟨0, true⟩] else [] }

variable {opened : Bool} {scanner : Scanner}

theorem AtLine.close_column (h : AtLine opened scanner) :
    scanner.close (scanner.column + 1) =
      { scanner with margin := opened.toNat, outer := if opened then [⟨0, true⟩] else [] } := by
  rw [Scanner.column, h.column]
  exact h.closed

/-- The scanner between a key and its colon. -/
def afterKey (scanner : Scanner) (opened : Bool) (key rest : Text) : Scanner :=
  { scanner with
    cursor := ⟨scanner.cursor.spot.pass key.length, ':' :: ' ' :: rest⟩
    tokens := .scalar .plain key :: scanner.tokens
    keyAllowed := false
    keyStart :=
      { possible := true
        required := opened
        number := scanner.tokens.length
        spot := scanner.cursor.spot }
    margin := opened.toNat
    outer := if opened then [⟨0, true⟩] else [] }

/-- The tokens before the entries to come, once their mapping is open. -/
def opening (opened : Bool) (scanner : Scanner) : List Token :=
  if opened then scanner.tokens else .blockMap :: scanner.tokens

/-- The scanner between a colon and its value. -/
def afterColon (scanner : Scanner) (opened : Bool) (key rest : Text) : Scanner :=
  { scanner with
    cursor := ⟨scanner.cursor.spot.pass (key.length + 1), ' ' :: rest⟩
    tokens := .value :: .scalar .plain key :: .key :: scanner.opening opened
    keyAllowed := false
    keyStart :=
      { possible := false
        required := opened
        number := scanner.tokens.length
        spot := scanner.cursor.spot }
    margin := 2
    outer := [⟨1, false⟩, ⟨0, true⟩] }

/-- The scanner before a value. -/
def atValue (scanner : Scanner) (opened : Bool) (key rest : Text) : Scanner :=
  { scanner.afterColon opened key rest with
    cursor := ⟨scanner.cursor.spot.pass (key.length + 2), rest⟩ }

theorem skipGap?_eq_self {c : Char} {rest : Text}
    (hrest : scanner.cursor.rest = c :: rest) (hc : startsToken c = true) :
    scanner.skipGap? = some scanner := by
  have hcursor : scanner.cursor.skipGap? scanner.margin = some scanner.cursor := by
    rw [Cursor.skipGap?, hrest, skipGapFrom?_token hc, ← hrest]
  simp [skipGap?, hcursor]

theorem dropStaleKey?_eq_self (h : scanner.keyStart.possible = false) :
    scanner.dropStaleKey? = some scanner := by
  simp [dropStaleKey?, isKeyStale, h]

/-- Most characters start a plain scalar. -/
theorem readToken?_plain {c : Char} (hc : isSimpleChar c = true) (hcolon : c ≠ ':')
    (hdash : c ≠ '-') (scanner : Scanner) (rest : Text) :
    scanner.readToken? c rest = scanner.readPlain? := by
  unfold readToken?
  split <;>
    first | rfl | exact absurd hc (by decide) | exact absurd rfl hcolon | exact absurd rfl hdash

/-- A token is read where the blocks to the right have been closed. -/
theorem next?_eq_readToken? {skipped closed : Scanner} {c : Char} {rest : Text}
    (hgap : scanner.skipGap? = some skipped) (hstale : skipped.dropStaleKey? = some skipped)
    (hclose : skipped.close (skipped.column + 1) = closed) (hrest : closed.cursor.rest = c :: rest)
    (hplace : closed.column ≠ 0 ∨ isKeyChar c = true)
    (hmargin : closed.margin ≤ closed.column + 1) :
    scanner.next? = closed.readToken? c rest := by
  have hpercent : ¬(closed.column = 0 ∧ c = '%') := by
    rintro ⟨hcolumn, rfl⟩
    rcases hplace with h | h
    · exact h hcolumn
    · cases h
  have hmarker : ¬(closed.column = 0 ∧ atMarker "---" (c :: rest) = true) ∧
      ¬(closed.column = 0 ∧ atMarker "..." (c :: rest) = true) := by
    rcases hplace with h | h
    · exact ⟨fun hfirst => h hfirst.1, fun hfirst => h hfirst.1⟩
    · have hnone := atAnyMarker_of_isKeyChar h rest
      rw [atAnyMarker, Bool.or_eq_false_iff] at hnone
      simp [hnone]
  have houtdented : closed.isOutdented c = false := by
    simp [isOutdented, Nat.not_lt.2 hmargin]
  simp only [next?, bind, Option.bind, hgap, hstale, hclose, hrest, hpercent, hmarker, houtdented,
    if_false, Bool.false_eq_true]

theorem next?_key (h : AtLine opened scanner) {key : Text}
    (hkey : ∀ c ∈ key, isKeyChar c = true) (hne : key ≠ []) {rest : Text}
    (hrest : scanner.cursor.rest = key ++ ':' :: ' ' :: rest) :
    scanner.next? = some (scanner.afterKey opened key rest) := by
  have hread : ∀ margin, Yaml.readPlain? false margin scanner.cursor =
      some (key, ⟨scanner.cursor.spot.pass key.length, ':' :: ' ' :: rest⟩) := by
    intro margin
    rw [← readPlain?_key hkey hne margin scanner.cursor.spot rest, ← hrest]
  obtain ⟨c, tail, htext⟩ : ∃ c tail, key = c :: tail := List.exists_cons_of_ne_nil hne
  have hc : isKeyChar c = true := hkey c (htext ▸ List.mem_cons_self)
  have hfirst : scanner.cursor.rest = c :: (tail ++ ':' :: ' ' :: rest) := by
    rw [hrest, htext, List.cons_append]
  rw [next?_eq_readToken? (skipGap?_eq_self hfirst (startsToken_of_isKeyChar hc))
    (dropStaleKey?_eq_self h.noKey) h.close_column hfirst (.inr hc)
    (Nat.le_trans (Bool.toNat_le opened) (Nat.le_add_left 1 _)),
    readToken?_plain (isSimpleChar_of_isKeyChar hc) (ne_of_isKeyChar hc (by decide))
      (ne_of_isKeyChar hc (by decide))]
  cases opened <;>
    simp [readPlain?, saveKey, h.keyAllowed, closeUnmarked, inFlow, h.noFlow, hread, column,
      h.column, afterKey, push, Spot.pass]

theorem next?_colon (h : AtLine opened scanner) {key : Text}
    (hne : key ≠ []) (hlength : key.length ≤ 1024) (rest : Text) :
    (scanner.afterKey opened key rest).next? = some (scanner.afterColon opened key rest) := by
  have hcolumn : (scanner.afterKey opened key rest).column = key.length := by
    simp [column, afterKey, h.column]
  have hpositive : 0 < key.length := List.length_pos_iff.2 hne
  have hmargin : opened.toNat ≤ key.length + 1 :=
    Nat.le_trans (Bool.toNat_le opened) (Nat.le_add_left 1 _)
  have hstale : (scanner.afterKey opened key rest).dropStaleKey? =
      some (scanner.afterKey opened key rest) := by
    simp [dropStaleKey?, isKeyStale, afterKey, Spot.pass, Spot.skip, Nat.not_lt.2 hlength]
  have hclose : (scanner.afterKey opened key rest).close (key.length + 1) =
      scanner.afterKey opened key rest := by
    cases opened <;> simp [close, afterKey, inFlow, h.noFlow, closeFrom]
  rw [← hcolumn] at hclose
  rw [next?_eq_readToken? (skipGap?_eq_self rfl rfl) hstale hclose rfl
    (.inl (by rw [hcolumn]; omega)) (by rw [hcolumn]; exact hmargin)]
  have htwo : scanner.tokens.length + 1 + 1 - scanner.tokens.length = 2 := by omega
  cases opened <;>
    simp [readToken?, atWordEnd, isSpace, readValue?, passColon?, pass, Cursor.pass, afterKey,
      afterColon, opening, insert, htwo, openBlock, inFlow, h.noFlow, closeUnused, h.column,
      openColumn, push]

theorem next?_afterColon (h : AtLine opened scanner) (key : Text)
    {c : Char} (hc : startsToken c = true) (rest : Text) :
    (scanner.afterColon opened key (c :: rest)).next? =
      (scanner.atValue opened key (c :: rest)).readToken? c rest := by
  have hcolumn : (scanner.atValue opened key (c :: rest)).column = key.length + 2 := by
    simp [column, atValue, h.column]
  have hcursor : Cursor.skipGap? 2 ⟨scanner.cursor.spot.pass (key.length + 1), ' ' :: c :: rest⟩ =
      some ⟨scanner.cursor.spot.pass (key.length + 2), c :: rest⟩ := by
    have hskip := skipGapFrom?_token hc 2 (scanner.cursor.spot.pass (key.length + 2)) rest
    have hafter : (scanner.cursor.spot.pass (key.length + 1)).after ' ' =
        scanner.cursor.spot.pass (key.length + 2) := by
      rw [Spot.after_eq_pass rfl (by decide), Spot.pass_pass]
    rw [Cursor.skipGap?, skipGapFrom?, if_neg (by decide), if_neg (by simp), if_pos (by decide),
      hafter, hskip]
  have hgap : (scanner.afterColon opened key (c :: rest)).skipGap? =
      some (scanner.atValue opened key (c :: rest)) := by
    simp [skipGap?, afterColon, atValue, hcursor]
  have hclose : (scanner.atValue opened key (c :: rest)).close (key.length + 3) =
      scanner.atValue opened key (c :: rest) := by
    simp [close, atValue, afterColon, closeFrom]
  exact next?_eq_readToken? hgap (dropStaleKey?_eq_self rfl) (by rw [hcolumn]; exact hclose) rfl
    (.inl (by rw [hcolumn]; omega)) (by rw [hcolumn]; exact Nat.le_add_left 2 _)

theorem next?_plain (h : AtLine opened scanner) {s : Text}
    (hs : IsPlain s) (key : Text) {rest : Text} (hrest : rest.head?.all isKeyChar = true) :
    (scanner.afterColon opened key (s ++ '\n' :: rest)).next? =
      some { scanner.atValue opened key rest with
        cursor := ⟨(scanner.cursor.spot.pass (key.length + 2 + s.length)).after '\n', rest⟩
        tokens := .scalar .plain s :: (scanner.atValue opened key rest).tokens
        keyAllowed := true
        margin := 1
        outer := [⟨0, true⟩] } := by
  have hread := readPlain?_value hs Nat.one_pos
    (show (scanner.cursor.spot.pass (key.length + 2)).fresh = false from rfl) hrest
  obtain ⟨c, tail, rfl⟩ := List.exists_cons_of_ne_nil hs.nonempty
  have hcolon : c ≠ ':' := fun h => hs.noColon (h ▸ List.mem_cons_self)
  rw [List.cons_append] at hread ⊢
  rw [next?_afterColon h key hs.startsToken,
    readToken?_plain (hs.chars c List.mem_cons_self) hcolon (hs.first c rfl).2]
  simp [readPlain?, saveKey, closeUnmarked, inFlow, atValue, afterColon, h.noFlow, hread, push]

theorem next?_quoted (h : AtLine opened scanner) {s : Text}
    (hs : ∀ c ∈ s, isSimpleChar c = true) {quote : Char} (hquote : quote = '"' ∨ quote = '\'')
    (key : Text) {rest : Text} (hrest : rest.head?.all isKeyChar = true) :
    let below := (scanner.cursor.spot.pass (key.length + 2 + (s.length + 2))).after '\n'
    (scanner.afterColon opened key (quote :: (s ++ quote :: '\n' :: rest))).next? =
      some { scanner.atValue opened key rest with
        cursor := ⟨below, rest⟩
        tokens := .scalar .quoted s :: (scanner.atValue opened key rest).tokens
        keyAllowed := true
        colonAt := below.index } := by
  have hmargin : 2 ≤ (scanner.cursor.spot.pass (key.length + 2)).column + 1 := by
    rw [Spot.pass_column]
    omega
  have hread := readQuoted?_value hs hquote hmargin rest
  have hline := skipGapFrom?_line 2
    (scanner.cursor.spot.pass (key.length + 2 + (s.length + 2))) hrest
  have hstart : startsToken quote = true := by rcases hquote with rfl | rfl <;> rfl
  have htoken : ∀ (scanner : Scanner) (rest : Text),
      scanner.readToken? quote rest = scanner.readQuoted? := by
    rcases hquote with rfl | rfl <;> exact fun _ _ => rfl
  rw [next?_afterColon h key hstart, htoken]
  simp [readQuoted?, saveKey, inFlow, atValue, afterColon, h.noFlow, hread, push, skipGap?,
    Cursor.skipGap?, hline]

theorem next?_folded (h : AtLine opened scanner) {s : Text}
    (hs : ∀ c ∈ s, isSimpleChar c = true) (hfold : FoldsAtWords s) (key : Text)
    {rest : Text} (hrest : rest.head?.all isKeyChar = true) :
    ∃ below : Spot, below.column = 0 ∧
      (scanner.afterColon opened key (writeFolded s ++ '\n' :: rest)).next? =
        some { scanner.atValue opened key rest with
          cursor := ⟨below, rest⟩
          tokens := .scalar .block s :: (scanner.atValue opened key rest).tokens
          keyAllowed := true
          margin := 1
          outer := [⟨0, true⟩] } := by
  obtain ⟨below, hbelow, hread⟩ :=
    readBlock?_folded hs hfold (scanner.cursor.spot.pass (key.length + 2)) hrest
  refine ⟨below, hbelow, ?_⟩
  have htext : writeFolded s ++ '\n' :: rest =
      '>' :: '-' :: ((foldLines s).flatMap blockLine ++ '\n' :: rest) := rfl
  rw [htext] at hread ⊢
  rw [next?_afterColon h key rfl]
  simp [readToken?, readBlock?, saveKey, closeUnmarked, inFlow, atValue, afterColon, h.noFlow,
    hread, push]

/-- Behind a value the scanner is at the next line. -/
theorem next?_value (h : AtLine opened scanner)
    {style : ScalarStyle} {written text : Text} (hreads : ReadsAs written style text) (key : Text)
    {rest : Text} (hrest : rest.head?.all isKeyChar = true) :
    ∃ next, (scanner.afterColon opened key (written ++ '\n' :: rest)).next? = some next ∧
      AtLine true next ∧ next.cursor.rest = rest ∧
      next.tokens = .scalar style text ::
        (scanner.afterColon opened key (written ++ '\n' :: rest)).tokens := by
  cases hreads with
  | plain hplain =>
      refine ⟨_, next?_plain h hplain key hrest, ⟨rfl, rfl, rfl, h.noFlow, ?_⟩, rfl, rfl⟩
      simp [close, inFlow, atValue, afterColon, h.noFlow, closeFrom]
  | quoted hquote hchars =>
      rw [List.cons_append, List.append_assoc, List.singleton_append]
      refine ⟨_, next?_quoted h hchars hquote key hrest, ⟨rfl, rfl, rfl, h.noFlow, ?_⟩, rfl, rfl⟩
      simp [close, inFlow, atValue, afterColon, h.noFlow, closeFrom]
  | folded hchars hfold =>
      obtain ⟨below, hbelow, hnext⟩ := next?_folded h hchars hfold key hrest
      refine ⟨_, hnext, ⟨hbelow, rfl, rfl, h.noFlow, ?_⟩, rfl, rfl⟩
      simp [close, inFlow, atValue, afterColon, h.noFlow, closeFrom]

theorem tokensFrom_next? {next : Scanner} (hnext : scanner.next? = some next)
    (hfinish : next.tokens.head? ≠ some .finish) (fuel : Nat) :
    tokensFrom (fuel + 1) scanner = tokensFrom fuel next := by
  simp [tokensFrom, hnext, hfinish]

/-- Three steps read an entry. -/
theorem tokensFrom_line (h : AtLine opened scanner)
    (entry : LineEntry) {rest : Text} (hrest : rest.head?.all isKeyChar = true)
    (htext : scanner.cursor.rest = entry.line ++ rest) :
    ∃ next, AtLine true next ∧ next.cursor.rest = rest ∧
      next.tokens = entry.tokens.reverse ++ scanner.opening opened ∧
      ∀ fuel, tokensFrom (fuel + 3) scanner = tokensFrom fuel next := by
  rw [LineEntry.line, List.append_assoc, List.cons_append, List.cons_append, List.append_assoc,
    List.singleton_append] at htext
  obtain ⟨next, hvalue, hline, hcursor, htokens⟩ := next?_value h entry.reads entry.key hrest
  refine ⟨next, hline, hcursor, htokens, fun fuel => ?_⟩
  rw [tokensFrom_next? (next?_key h entry.key_chars entry.key_ne_nil htext) (by simp [afterKey]),
    tokensFrom_next? (next?_colon h entry.key_ne_nil entry.key_length _) (by simp [afterColon]),
    tokensFrom_next? hvalue (by simp [htokens])]

theorem tokensFrom_finish (h : AtLine true scanner)
    (htext : scanner.cursor.rest = []) (fuel : Nat) :
    tokensFrom (fuel + 1) scanner = scanner.tokens.reverse ++ [.blockEnd, .finish] := by
  have hcursor : scanner.cursor.skipGap? scanner.margin = some scanner.cursor := by
    rw [Cursor.skipGap?, htext, skipGapFrom?, ← htext]
  have hgap : scanner.skipGap? = some scanner := by
    simp [skipGap?, hcursor]
  have hnext : scanner.next? = readFinish? { scanner with margin := 1, outer := [⟨0, true⟩] } := by
    simp only [next?, bind, Option.bind, hgap, dropStaleKey?_eq_self h.noKey,
      h.close_column, htext]
    rfl
  have hfinish : readFinish? { scanner with margin := 1, outer := [⟨0, true⟩] } =
      some { scanner with
        tokens := .finish :: .blockEnd :: scanner.tokens
        keyAllowed := false
        keyStart := { scanner.keyStart with possible := false }
        margin := 0
        outer := [] } := by
    simp [readFinish?, leaveBlocks?, close, closeFrom, inFlow, h.noFlow, dropKey?, h.noKey, push]
  simp [tokensFrom, hnext, hfinish]

theorem isKeyChar_head?_lines (entries : List LineEntry) :
    (entries.flatMap LineEntry.line).head?.all isKeyChar = true := by
  cases entries with
  | nil => rfl
  | cons entry entries =>
      obtain ⟨c, key, hkey⟩ := List.exists_cons_of_ne_nil entry.key_ne_nil
      rw [List.flatMap_cons, LineEntry.line, hkey]
      exact entry.key_chars c (hkey ▸ List.mem_cons_self)

theorem tokensFrom_lines (h : AtLine true scanner) {entries : List LineEntry}
    (htext : scanner.cursor.rest = entries.flatMap LineEntry.line) {fuel : Nat}
    (hfuel : 3 * entries.length < fuel) :
    tokensFrom fuel scanner =
      scanner.tokens.reverse ++ entries.flatMap LineEntry.tokens ++ [.blockEnd, .finish] := by
  induction entries generalizing scanner fuel with
  | nil =>
      obtain ⟨fuel, rfl⟩ := Nat.exists_eq_add_of_lt hfuel
      rw [tokensFrom_finish h htext, List.flatMap_nil, List.append_nil]
  | cons entry entries ih =>
      rw [List.length_cons] at hfuel
      obtain ⟨fuel, rfl⟩ : ∃ later, fuel = later + 3 := ⟨fuel - 3, by omega⟩
      obtain ⟨next, hnext, hrest, htokens, hfrom⟩ :=
        tokensFrom_line h entry (isKeyChar_head?_lines entries) htext
      rw [hfrom, ih hnext hrest (by omega), htokens]
      simp [opening]

end Scanner

/-! ## Tokens -/

theorem unifyBreaks_eq_self {s : Text} (h : '\r' ∉ s) : unifyBreaks s = s := by
  fun_induction unifyBreaks s with
  | case1 => rfl
  | case2 rest ih => simp at h
  | case3 rest hrest ih => simp at h
  | case4 c rest hc hrest ih =>
      rw [ih fun hmem => h (List.mem_cons_of_mem c hmem)]

theorem writeFolded_chars {s : Text} {c : Char} (h : c ∈ writeFolded s) :
    c ∈ s ∨ c ∈ ['>', '-', '\n', ' '] := by
  have hheader : ">-".toList = ['>', '-'] := rfl
  have hindent : "\n  ".toList = ['\n', ' ', ' '] := rfl
  rw [writeFolded, hheader, List.mem_append, List.mem_flatMap] at h
  rcases h with h | ⟨line, hline, hc⟩
  · exact .inr (List.mem_append_left ['\n', ' '] h)
  · rw [blockLine, hindent, List.mem_append] at hc
    rcases hc with hc | hc
    · exact .inr (List.mem_append_right ['>', '-'] (by simpa using hc))
    · exact .inl (foldLines_chars hline c hc)

/-- The characters of written values that are not simple. -/
def writtenSigns : List Char :=
  ['"', '\'', '>', '\n']

theorem ReadsAs.chars {written text : Text} {style : ScalarStyle} (h : ReadsAs written style text) :
    ∀ c ∈ written, isSimpleChar c = true ∨ c ∈ writtenSigns := by
  intro c hc
  cases h with
  | plain hplain => exact .inl (hplain.chars c hc)
  | quoted hquote hchars =>
      rw [List.mem_cons, List.mem_append, List.mem_singleton] at hc
      rcases hc with rfl | hc | rfl
      · exact .inr (by rcases hquote with rfl | rfl <;> decide)
      · exact .inl (hchars c hc)
      · exact .inr (by rcases hquote with rfl | rfl <;> decide)
  | folded hchars =>
      rcases writeFolded_chars hc with hc | hc
      · exact .inl (hchars c hc)
      · simp only [List.mem_cons, List.not_mem_nil, or_false] at hc
        rcases hc with rfl | rfl | rfl | rfl
        · exact .inr (by decide)
        · exact .inl (by decide)
        · exact .inr (by decide)
        · exact .inl (by decide)

theorem LineEntry.line_chars (entry : LineEntry) :
    ∀ c ∈ entry.line, isSimpleChar c = true ∨ c ∈ writtenSigns := by
  intro c hc
  simp only [line, List.mem_append, List.mem_cons, List.not_mem_nil, or_false] at hc
  rcases hc with hc | rfl | rfl | hc | rfl
  · exact .inl (isSimpleChar_of_isKeyChar (entry.key_chars c hc))
  · exact .inl rfl
  · exact .inl rfl
  · exact entry.reads.chars c hc
  · exact .inr (by decide)

theorem not_mem_lines (entries : List LineEntry) {d : Char} (hd : isSimpleChar d = false)
    (hother : d ∉ writtenSigns) : d ∉ entries.flatMap LineEntry.line := by
  intro hmem
  obtain ⟨entry, -, hline⟩ := List.mem_flatMap.1 hmem
  rcases entry.line_chars d hline with h | h
  · rw [h] at hd
    cases hd
  · exact hother h

theorem length_lines (entries : List LineEntry) :
    3 * entries.length ≤ (entries.flatMap LineEntry.line).length := by
  induction entries with
  | nil => exact Nat.le_refl 0
  | cons entry entries ih =>
      simp only [List.flatMap_cons, List.length_append, List.length_cons, LineEntry.line]
      omega

theorem dropMark_eq_self {s : Text} (h : '\ufeff' ∉ s) : dropMark s = s := by
  unfold dropMark
  split
  · exact absurd List.mem_cons_self h
  · rfl

/-- The tokens of a mapping with entries one below the other. -/
theorem tokens_lines {entries : List LineEntry} (hne : entries ≠ []) :
    tokens (entries.flatMap LineEntry.line) =
      .blockMap :: entries.flatMap LineEntry.tokens ++ [.blockEnd, .finish] := by
  have hwhole : unifyBreaks ((dropMark (entries.flatMap LineEntry.line)).takeWhile (· != '\x00')) =
      entries.flatMap LineEntry.line := by
    have hend : ∀ c ∈ entries.flatMap LineEntry.line, (c != '\x00') = true := by
      intro c hc
      rw [bne_iff_ne]
      rintro rfl
      exact not_mem_lines entries (by decide) (by decide) hc
    rw [dropMark_eq_self (not_mem_lines entries (by decide) (by decide)),
      List.takeWhile_eq_self_iff.2 hend,
      unifyBreaks_eq_self (not_mem_lines entries (by decide) (by decide))]
  have hlength := length_lines entries
  obtain ⟨entry, entries, rfl⟩ := List.exists_cons_of_ne_nil hne
  have hstart : Scanner.AtLine false
      { cursor := { rest := (entry :: entries).flatMap LineEntry.line } } :=
    ⟨rfl, rfl, rfl, rfl, rfl⟩
  obtain ⟨next, hnext, hrest, htokens, hfrom⟩ :=
    Scanner.tokensFrom_line hstart entry (Scanner.isKeyChar_head?_lines entries) rfl
  rw [List.length_cons] at hlength
  obtain ⟨fuel, hfuel⟩ : ∃ fuel,
      ((entry :: entries).flatMap LineEntry.line).length + 1 = fuel + 3 :=
    ⟨((entry :: entries).flatMap LineEntry.line).length - 2, by omega⟩
  simp only [tokens, hwhole]
  rw [hfuel, hfrom, Scanner.tokensFrom_lines hnext hrest (by omega), htokens]
  simp [Scanner.opening, LineEntry.tokens]

/-! ## Documents -/

theorem readNode?_scalar {fuel : Nat} (hfuel : 2 ≤ fuel) (block flush : Bool) (style : ScalarStyle)
    (text : Text) (rest : List Token) (anchors : Anchors) :
    readNode? fuel block flush (.scalar style text :: rest) anchors =
      some { value := .scalar style none text, tokens := rest, anchors } := by
  obtain ⟨fuel, rfl⟩ := Nat.exists_eq_add_of_le' hfuel
  simp [readNode?, splitProperties, readContent?, Properties.name]

theorem readEntries?_tokens (entries : List LineEntry) (rest : List Token) (anchors : Anchors)
    {fuel : Nat} (hfuel : 2 * entries.length + 2 ≤ fuel) :
    readEntries? fuel (entries.flatMap LineEntry.tokens ++ .blockEnd :: rest) anchors =
      some { value := entries.map LineEntry.node, tokens := rest, anchors } := by
  induction entries generalizing fuel with
  | nil =>
      obtain ⟨fuel, rfl⟩ := Nat.exists_eq_add_of_le' hfuel
      simp [readEntries?]
  | cons entry entries ih =>
      rw [List.length_cons] at hfuel
      obtain ⟨fuel, rfl⟩ : ∃ later, fuel = later + 2 := ⟨fuel - 2, by omega⟩
      have hkey := readNode?_scalar (show 2 ≤ fuel + 1 by omega) true true
      have hvalue := readNode?_scalar (show 2 ≤ fuel by omega) true true
      have hlater := ih (show 2 * entries.length + 2 ≤ fuel by omega)
      simp [readEntries?, readEntry?, LineEntry.tokens, hkey, hvalue, endsBlockPart, hlater,
        Parsed.map, LineEntry.node]

theorem length_tokens (entries : List LineEntry) :
    (entries.flatMap LineEntry.tokens).length = entries.length * 4 := by
  induction entries with
  | nil => rfl
  | cons entry entries ih =>
      rw [List.flatMap_cons, List.length_append, ih, List.length_cons, Nat.succ_mul, Nat.add_comm]
      rfl

/-- A mapping with entries one below the other is read back. -/
theorem read?_lines {entries : List LineEntry} (hne : entries ≠ []) :
    read? (entries.flatMap LineEntry.line) = some (.map (entries.map LineEntry.node)) := by
  have hroot : readRoot? (.blockMap :: (entries.flatMap LineEntry.tokens ++ [.blockEnd, .finish])) =
      some { value := .map (entries.map LineEntry.node), tokens := [.finish], anchors := [] } := by
    have hread : readEntries? (4 * (entries.length * 4 + 2 + 1) + 2)
        (entries.flatMap LineEntry.tokens ++ [.blockEnd, .finish]) [] =
        some { value := entries.map LineEntry.node, tokens := [.finish], anchors := [] } :=
      readEntries?_tokens entries [.finish] [] (by omega)
    simp [-List.length_flatMap, readRoot?, endsDocument, Token.isDirective, length_tokens,
      readNode?, splitProperties, readContent?, hread, Properties.name, Parsed.map]
  rw [read?, tokens_lines hne]
  simp [skipPrologue?, Token.isDirective, hroot, mayFollowDocument]

end AuroraMigration.Yaml
