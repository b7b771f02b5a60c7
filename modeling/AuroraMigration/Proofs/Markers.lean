import AuroraMigration.Proofs.Concatenation

/-!
# Transaction markers leave no trace

A marker between two statements opens or closes a transaction, which statements
only take note of. Scripts and counts are made of the contents of statements, so
a migration with a marker more is transformed like the one without it.
-/

namespace AuroraMigration

/-! ## How a marker can be written -/

/-- The phrases that open or close a transaction, in capitals. -/
def markerPhrases : List (List String) :=
  [["BEGIN"], ["BEGIN", "TRANSACTION"], ["BEGIN", "WORK"], ["START", "TRANSACTION"], ["COMMIT"],
    ["COMMIT", "TRANSACTION"], ["COMMIT", "WORK"], ["END"], ["END", "TRANSACTION"]]

/-- The text is these words in any letter case, with spaces or tabs between them. -/
inductive Spells : List String → Text → Prop
  | last {word : String} {text : Text} : Text.asciiUpper text = word.toList → Spells [word] text
  | more {word : String} {words : List String} {text gap rest : Text} :
      Text.asciiUpper text = word.toList → gap ≠ [] → (∀ c ∈ gap, c = ' ' ∨ c = '\t') →
      Spells words rest → Spells (word :: words) (text ++ (gap ++ rest))

/-- The letters of the alphabet without accents, capital and small. -/
def plainLetters : Text :=
  "ABCDEFGHIJKLMNOPQRSTUVWXYZabcdefghijklmnopqrstuvwxyz".toList

theorem mem_plainLetters_of_toUpper {c : Char} (h : c.toUpper ∈ plainLetters) :
    c ∈ plainLetters := by
  unfold Char.toUpper at h
  split at h
  · rename_i hlower
    have hrange : 97 ≤ c.toNat ∧ c.toNat ≤ 122 := by
      simpa [UInt32.le_iff_toNat_le] using hlower
    have hall : ∀ n ∈ List.range' 97 26, Char.ofNat n ∈ plainLetters := by decide
    have hmem := hall c.toNat (List.mem_range'_1.2 ⟨hrange.1, by omega⟩)
    rwa [Char.ofNat_toNat] at hmem
  · exact h

/-- A letter is read alone, is part of a word and is no part of a comment or of a line's end. -/
structure PlainLetter (c : Char) : Prop where
  plain : isPlain c = true
  solid : isBlank c = false
  word : isAlphanumeric c = true
  dash : c ≠ '-'
  separator : c ≠ ';'

theorem plainLetter_of_mem {c : Char} (h : c ∈ plainLetters) : PlainLetter c := by
  have hall : ∀ test : Char → Bool, plainLetters.all test = true → test c = true :=
    fun test htest => List.all_eq_true.1 htest c h
  exact ⟨hall _ (by decide), by simpa using hall (!isBlank ·) (by decide), hall _ (by decide),
    by simpa using hall (· != '-') (by decide), by simpa using hall (· != ';') (by decide)⟩

theorem plainLetter_of_asciiUpper {text word : Text} (h : Text.asciiUpper text = word)
    (hword : ∀ c ∈ word, c ∈ plainLetters) : ∀ c ∈ text, PlainLetter c := by
  intro c hc
  refine plainLetter_of_mem (mem_plainLetters_of_toUpper (hword _ ?_))
  rw [← h]
  exact List.mem_map_of_mem hc

/-- The words of a phrase are not empty and hold letters only. -/
def IsPhrase (words : List String) : Prop :=
  ∀ word ∈ words, word.toList ≠ [] ∧ ∀ c ∈ word.toList, c ∈ plainLetters

theorem isPhrase_of_mem {words : List String} (h : words ∈ markerPhrases) : IsPhrase words := by
  have hall : ∀ phrase ∈ markerPhrases, ∀ word ∈ phrase,
      word.toList ≠ [] ∧ word.toList.all plainLetters.contains = true := by
    decide
  intro word hword
  obtain ⟨hne, hletters⟩ := hall words h word hword
  exact ⟨hne, by simpa using hletters⟩

theorem isPhrase_cons {word : String} {words : List String} :
    IsPhrase (word :: words) ↔
      (word.toList ≠ [] ∧ ∀ c ∈ word.toList, c ∈ plainLetters) ∧ IsPhrase words := by
  simp [IsPhrase]

/-! ## Reading a marker -/

theorem lexemes_letters {text : Text} (hne : text ≠ []) (h : ∀ c ∈ text, PlainLetter c) :
    lexemes (text.map (codeStep 0)) = [⟨.word, text⟩] := by
  have hkind : ∀ c ∈ text, (codeStep 0 c).tokenKind? = some .word := by
    intro c hc
    simp [Step.tokenKind?, codeStep, (h c hc).solid, (h c hc).word]
  induction text with
  | nil => exact absurd rfl hne
  | cons c rest ih =>
      rw [List.map_cons, lexemes_cons_some (hkind c List.mem_cons_self)]
      cases rest with
      | nil => rfl
      | cons d rest =>
          have hjoin : ((d :: rest).map (codeStep 0)).head?.any (codeStep 0 c).joins = true := by
            rw [Step.any_joins]
            simp [hkind c List.mem_cons_self, hkind d (by simp)]
          rw [hjoin, ih (by simp) (fun x hx => h x (List.mem_cons_of_mem c hx))
            fun x hx => hkind x (List.mem_cons_of_mem c hx)]
          rfl

theorem Spells.chars {words : List String} {text : Text} (h : Spells words text)
    (hwords : IsPhrase words) : ∀ c ∈ text, PlainLetter c ∨ c = ' ' ∨ c = '\t' := by
  induction h with
  | last hword =>
      have hletters := plainLetter_of_asciiUpper hword (isPhrase_cons.1 hwords).1.2
      exact fun c hc => .inl (hletters c hc)
  | more hword _ hgap _ ih =>
      obtain ⟨⟨-, hletters⟩, hwords⟩ := isPhrase_cons.1 hwords
      intro c hc
      rcases List.mem_append.1 hc with hc | hc
      · exact .inl (plainLetter_of_asciiUpper hword hletters c hc)
      · rcases List.mem_append.1 hc with hc | hc
        · exact .inr (hgap c hc)
        · exact ih hwords c hc

theorem Spells.lexemes {words : List String} {text : Text} (h : Spells words text)
    (hwords : IsPhrase words) :
    (∀ lexeme ∈ lexemes (text.map (codeStep 0)), lexeme.kind = .word) ∧
      (lexemes (text.map (codeStep 0))).map (fun lexeme => Text.asciiUpper lexeme.text) =
        words.map String.toList := by
  have hletters : ∀ {word : String} {text : Text}, Text.asciiUpper text = word.toList →
      (word.toList ≠ [] ∧ ∀ c ∈ word.toList, c ∈ plainLetters) →
      AuroraMigration.lexemes (text.map (codeStep 0)) = [⟨.word, text⟩] := by
    intro word text hword hphrase
    refine lexemes_letters ?_ (plainLetter_of_asciiUpper hword hphrase.2)
    rintro rfl
    exact hphrase.1 hword.symm
  induction h with
  | last hword =>
      rw [hletters hword (isPhrase_cons.1 hwords).1]
      simp [hword]
  | @more word words text gap rest hword hne hgap _ ih =>
      obtain ⟨hphrase, hwords⟩ := isPhrase_cons.1 hwords
      obtain ⟨hkinds, htexts⟩ := ih hwords
      have hblank : ∀ c ∈ gap, isBlank c = true := by
        intro c hc
        rcases hgap c hc with rfl | rfl <;> decide
      have hinert := (skipped_blank hblank).inert
      have hparted : Parted (text.map (codeStep 0))
          (gap.map (codeStep 0) ++ rest.map (codeStep 0)) := by
        apply parted_of_right
        intro y hy
        rw [List.head?_append_of_ne_nil _ (by simpa using hne)] at hy
        exact hinert y (List.mem_of_head? hy)
      rw [List.map_append, List.map_append, lexemes_append hparted,
        lexemes_inert_append hinert, hletters hword hphrase]
      refine ⟨?_, by simp [hword, htexts]⟩
      intro lexeme hlexeme
      rcases List.mem_cons.1 hlexeme with rfl | hlexeme
      · rfl
      · exact hkinds lexeme hlexeme

theorem Spells.scan_append {words : List String} {text : Text} (h : Spells words text)
    (hwords : IsPhrase words) (rest : Text) :
    scan (text ++ rest) = text.map (codeStep 0) ++ scan rest := by
  refine scanFrom_plain 0 (fun c hc => ?_) rest
  rcases h.chars hwords c hc with hletter | rfl | rfl
  · exact hletter.plain
  · decide
  · decide

theorem Spells.scan {words : List String} {text : Text} (h : Spells words text)
    (hwords : IsPhrase words) : scan text = text.map (codeStep 0) := by
  simpa [AuroraMigration.scan, scanFrom] using h.scan_append hwords []

theorem Spells.closedPiece {words : List String} {text : Text} (h : Spells words text)
    (hwords : IsPhrase words) : ClosedPiece text where
  ends := by rw [scanEnd_eq_lastState, h.scan hwords, ScanState.start, lastState_codeSteps]
  separators := by
    rw [h.scan hwords]
    intro step hstep
    obtain ⟨c, hc, rfl⟩ := List.mem_map.1 hstep
    have hne : c ≠ ';' := by
      rcases h.chars hwords c hc with hletter | rfl | rfl
      · exact hletter.separator
      · decide
      · decide
    simp [Step.isTopLevel, codeStep, hne]

theorem Spells.endsStatement {words : List String} {text : Text} (h : Spells words text)
    (hwords : IsPhrase words) : EndsStatement (text ++ [';']) := by
  refine .inr ?_
  rw [h.scan_append hwords, List.getLast?_append]
  rfl

/-- A text of letters, spaces and tabs is one line and no comment. -/
theorem Spells.oneLine {words : List String} {text : Text} (h : Spells words text)
    (hwords : IsPhrase words) : '\n' ∉ text ∧ '\r' ∉ text ∧ '-' ∉ text := by
  have hother : ∀ c, isBlank c = true ∨ c = '-' → c ≠ ' ' → c ≠ '\t' → c ∉ text := by
    intro c hc hspace htab hmem
    rcases h.chars hwords c hmem with hletter | rfl | rfl
    · rcases hc with hblank | rfl
      · rw [hletter.solid] at hblank
        cases hblank
      · exact hletter.dash rfl
    · exact hspace rfl
    · exact htab rfl
  exact ⟨hother _ (by decide) (by decide) (by decide), hother _ (by decide) (by decide) (by decide),
    hother _ (by decide) (by decide) (by decide)⟩

theorem Spells.leadingComment {words : List String} {text : Text} (h : Spells words text)
    (hwords : IsPhrase words) (hsome : AuroraMigration.lexemes (AuroraMigration.scan text) ≠ []) :
    leadingComment [] (Text.lines text) = ([], [text]) := by
  obtain ⟨hfeed, -, hdash⟩ := h.oneLine hwords
  have hsolid : Text.trim text ≠ [] := by
    intro hnil
    have hinert := (skipped_blank (blank_of_trim_eq_nil hnil)).inert
    rw [← h.scan hwords, ← lexemes_eq_nil_iff] at hinert
    exact hsome hinert
  have hne : text ≠ [] := by
    rintro rfl
    exact hsolid rfl
  rw [Text.lines_of_not_mem hfeed hne, leadingComment_body [] hsolid]
  intro hdashes
  exact hdash (mem_of_mem_trim (hdashes.subset (by decide)))

theorem markerOfLexemes_words {found : List Lexeme} (h : ∀ lexeme ∈ found, lexeme.kind = .word) :
    Marker.ofLexemes? found =
      Marker.forms.lookup (found.map fun lexeme => Text.asciiUpper lexeme.text) := by
  have hall : (found.map Lexeme.token).all (·.kind == .word) = true := by
    rw [List.all_map, List.all_eq_true]
    intro lexeme hlexeme
    exact beq_iff_eq.2 (h lexeme hlexeme)
  rw [Marker.ofLexemes?, Marker.ofTokens?, if_pos hall, List.map_map]
  rfl

theorem Spells.marker {words : List String} (hwords : words ∈ markerPhrases) {text : Text}
    (h : Spells words text) :
    AuroraMigration.lexemes (AuroraMigration.scan text) ≠ [] ∧
      ∃ marker, Marker.ofLexemes? (AuroraMigration.lexemes (AuroraMigration.scan text)) =
        some marker := by
  have hphrase := isPhrase_of_mem hwords
  obtain ⟨hkinds, htexts⟩ := h.lexemes hphrase
  rw [← h.scan hphrase] at hkinds htexts
  have hforms : ∀ phrase ∈ markerPhrases, phrase.map String.toList ≠ [] ∧
      (Marker.forms.lookup (phrase.map String.toList)).isSome = true := by
    decide
  obtain ⟨hfilled, hlookup⟩ := hforms words hwords
  constructor
  · intro hnil
    rw [hnil] at htexts
    exact hfilled htexts.symm
  · rw [markerOfLexemes_words hkinds, htexts]
    exact Option.isSome_iff_exists.1 hlookup

/-- A marker is a fragment of its own, without a comment. -/
theorem fragments_marker {words : List String} (hwords : words ∈ markerPhrases) {text : Text}
    (h : Spells words text) :
    ∃ fragment marker, fragments (text ++ [';']) = [fragment] ∧
      fragment.marker? = some marker ∧ fragment.comment = [] := by
  have hphrase := isPhrase_of_mem hwords
  have hclosed := h.closedPiece hphrase
  obtain ⟨hsome, marker, hmarker⟩ := h.marker hwords
  have hpieces : piecesAt ';' (text ++ [';']) = [text, []] := by
    have hone : ∀ piece ∈ [text], ClosedPiece piece := by simpa using hclosed
    have hlast : ∀ step ∈ scan [], step.isTopLevel ';' = false := by decide
    simpa using piecesAt_withSeparators hone hlast
  have hempty : Fragment.ofPiece? [] = none := by decide
  have hend : (scanEnd text).mode.isQuoted = false := by
    rw [hclosed.ends]
    rfl
  rcases Fragment.ofPiece?_spec hend with ⟨-, hnil⟩ | ⟨fragment, hfragment, hof⟩
  · exact absurd hnil hsome
  refine ⟨fragment, marker, ?_, ?_, ?_⟩
  · simp only [fragments, hpieces, List.filterMap_cons, hfragment, hempty, List.filterMap_nil]
  · have hreturn : '\r' ∉ stepsText (scan text) := by
      rw [stepsText_scan]
      exact (h.oneLine hphrase).2.1
    rw [marker?_eq, hof.lexemes, ← lexemes_dropReturnSteps (trace_scan text) wellTagged_start,
      dropReturnSteps_eq_self hreturn, hmarker]
  · rw [hof.comment, h.leadingComment hphrase hsome]

/-! ## Migrations with a marker more -/

/-- A marker without a comment is passed over. -/
theorem statementsFrom_marker (carried : List Text) {fragment : Fragment} {marker : Marker}
    (hmarker : fragment.marker? = some marker) (hcomment : fragment.comment = [])
    (rest : List Fragment) :
    (statementsFrom false carried (fragment :: rest)).map Statement.content =
      (statementsFrom false carried rest).map Statement.content := by
  cases marker with
  | begin =>
      simp only [statementsFrom, hmarker, hcomment, List.append_nil]
      exact statementsFrom_content true false carried rest
  | commit => simp only [statementsFrom, hmarker]

attribute [ext] Migration

/-- What a migration does depends on the contents of its statements only. -/
theorem transform_congr {a b : Text}
    (h : (statements a).map Statement.content = (statements b).map Statement.content)
    (options : ScriptOptions) :
    Migration.transform a options = Migration.transform b options := by
  have hbodies : (statements a).map Statement.body = (statements b).map Statement.body := by
    have hsnd := congrArg (List.map Prod.snd) h
    rwa [List.map_map, List.map_map] at hsnd
  have hemitted : emitted a = emitted b := by
    rw [emitted, emitted, blocks_statements, blocks_statements, h]
  have hstats : (Migration.transform a options).stats = (Migration.transform b options).stats := by
    rw [transform_stats, transform_stats, hemitted, hbodies]
  apply Migration.ext
  · rw [transform_sql, transform_sql, hemitted]
  · exact hstats
  · rw [transform_warnings_eq, transform_warnings_eq, hstats]
  · rw [transform_unsupported, transform_unsupported, hbodies]

/-- A transaction marker behind a statement changes nothing of what a migration does. -/
theorem transform_marker {a : Text} (ha : EndsStatement a) {words : List String}
    (hwords : words ∈ markerPhrases) {marker : Text} (hmarker : Spells words marker) (b : Text)
    (options : ScriptOptions) :
    Migration.transform (a ++ marker ++ [';'] ++ b) options =
      Migration.transform (a ++ b) options := by
  obtain ⟨fragment, found, hfragment, hfound, hcomment⟩ := fragments_marker hwords hmarker
  have hends := hmarker.endsStatement (isPhrase_of_mem hwords)
  have hsplit : a ++ marker ++ [';'] ++ b = a ++ ((marker ++ [';']) ++ b) := by simp
  apply transform_congr
  rw [hsplit]
  unfold statements
  rw [fragments_append ha, fragments_append hends, hfragment, List.singleton_append,
    statementsFrom_append, statementsFrom_marker _ hfound hcomment, fragments_append ha,
    statementsFrom_append]

/-- A second begin marker inside a transaction, in front of an index with an open string. -/
theorem transform_marker_open_string :
    EndsStatement "-- x\nBEGIN; DROP TABLE u;".toList ∧
      Spells ["BEGIN", "WORK"] "bEgin \t work".toList ∧
      Migration.transform
          ("-- x\nBEGIN; DROP TABLE u;".toList ++ "bEgin \t work".toList ++ [';'] ++
            "CREATE INDEX i ON t (';".toList) {} =
        Migration.transform
          ("-- x\nBEGIN; DROP TABLE u;".toList ++ "CREATE INDEX i ON t (';".toList) {} := by
  have hends : EndsStatement "-- x\nBEGIN; DROP TABLE u;".toList := by decide +kernel
  have hsecond : Spells ["WORK"] "work".toList := .last (by decide)
  have hspells : Spells ["BEGIN", "WORK"] ("bEgin".toList ++ (" \t ".toList ++ "work".toList)) :=
    .more (by decide) (by decide) (by simp) hsecond
  exact ⟨hends, hspells, transform_marker hends (by decide) hspells _ {}⟩

end AuroraMigration
