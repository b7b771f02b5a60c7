import AuroraMigration.Config.File
import AuroraMigration.Proofs.YamlMapping
import Mathlib.Data.List.Basic

/-!
# Reading settings back

Settings whose texts are simple are read back from the file that is written of
them, whichever way of quoting the writer has, as long as it quotes the texts
that would be read as something else. A writer that folds long texts keeps those
that it folds at words: a line that starts with a space adds a line break.
-/

namespace AuroraMigration

namespace Yaml

/-- A text of simple characters that neither starts nor ends in a way that gets lost. -/
structure IsSimple (s : Text) : Prop where
  chars : ∀ c ∈ s, isSimpleChar c = true
  first : ∀ c ∈ s.head?, c ≠ ' ' ∧ c ≠ '-'
  last : s.getLast? ≠ some ' '

theorem isSimple_iff {s : Text} : IsSimple s ↔
    s.all isSimpleChar = true ∧ s.head?.all (fun c => c != ' ' && c != '-') = true ∧
      s.getLast? ≠ some ' ' := by
  simp only [List.all_eq_true, Option.all_eq_true, Bool.and_eq_true, bne_iff_ne]
  exact ⟨fun h => ⟨h.chars, h.first, h.last⟩, fun ⟨chars, first, last⟩ => ⟨chars, first, last⟩⟩

instance (s : Text) : Decidable (IsSimple s) :=
  decidable_of_iff _ isSimple_iff.symm

/--
How a text may be written: in quotes, or plain if it is not read as null and no
sign in it has a meaning. Numbers and truth values may be in quotes or not, since
a text is taken as it stands.
-/
inductive WrittenAs (s : Text) : (written : Text) → Prop
  | plain (hnull : isNullText s = false) (hcolon : ':' ∉ s) (hsign : '#' ∉ s) : WrittenAs s s
  | quoted {quote : Char} (hquote : quote = '"' ∨ quote = '\'') :
      WrittenAs s (quote :: (s ++ [quote]))

/-- Whether a text is read back from where it is written, and not as null. -/
def IsKept (s written : Text) : Prop :=
  ∃ style, ReadsAs written style s ∧ text? (.scalar style none s) = some s ∧
    isMissing (.scalar style none s) = false

theorem WrittenAs.isKept {s written : Text} (h : WrittenAs s written) (hs : IsSimple s) :
    IsKept s written := by
  cases h with
  | plain hnull hcolon hsign =>
      have hne : s ≠ [] := by
        rintro rfl
        cases hnull
      refine ⟨.plain, .plain ⟨hs.chars, hcolon, hsign, hs.first, hs.last, hne⟩, ?_⟩
      simp [text?, isMissing, isNull, hnull, allowsText]
  | quoted hquote =>
      refine ⟨.quoted, .quoted hquote hs.chars, ?_⟩
      simp [text?, isMissing, isNull, allowsText]

/-! ## Writing texts -/

theorem toNat_of_isSimpleChar {c : Char} (hc : isSimpleChar c = true) :
    0x20 ≤ c.toNat ∧ c.toNat < 0x7f := by
  rw [isSimpleChar, Bool.or_eq_true, List.contains_iff_mem] at hc
  rcases hc with hc | hc
  · have hval : c.toNat = c.val.toNat := rfl
    have hcodes : 'A'.val.toNat = 65 ∧ 'Z'.val.toNat = 90 ∧ 'a'.val.toNat = 97 ∧
        'z'.val.toNat = 122 ∧ '0'.val.toNat = 48 ∧ '9'.val.toNat = 57 := by decide
    delta Char.isAlphanum Char.isAlpha Char.isUpper Char.isLower Char.isDigit at hc
    simp only [Bool.or_eq_true, Bool.and_eq_true, decide_eq_true_eq, ge_iff_le,
      UInt32.le_iff_toNat_le] at hc
    omega
  · have hlist :
        "_.-/:# ".toList.all (fun c => decide (0x20 ≤ c.toNat ∧ c.toNat < 0x7f)) = true := by
      decide
    exact of_decide_eq_true (List.all_eq_true.1 hlist c hc)

theorem IsSimple.not_mem_lineBreak {s : Text} (hs : IsSimple s) : '\n' ∉ s :=
  fun hmem => absurd (hs.chars _ hmem) (by decide)

theorem writeChar_simple {c : Char} (hc : isSimpleChar c = true) : writeChar c = [c] := by
  have hescape : writtenEscapes.lookup c = none := by
    rw [List.lookup_eq_none_iff]
    have hkeys : writtenEscapes.all (fun escape => !isSimpleChar escape.1) = true := by decide
    intro escape hmem
    have hescape := List.all_eq_true.1 hkeys escape hmem
    rw [Bool.not_eq_true'] at hescape
    exact bne_iff_ne.2 (ne_of_isSimpleChar hc hescape)
  have hrange := toNat_of_isSimpleChar hc
  have hcontrol : isControl c = false := by
    simp only [isControl, Bool.or_eq_false_iff, Bool.and_eq_false_iff, decide_eq_false_iff_not]
    omega
  have hmark : c.toNat ≠ 0xfeff := by omega
  simp [writeChar, hescape, hcontrol, hmark]

/-- Texts of at most a line, and those in quotes, are written in one of these ways. -/
theorem writtenAs_writeText {s : Text} (hs : IsSimple s)
    (hline : needsQuotes s = true ∨ s.length ≤ foldWidth) : WrittenAs s (writeText s) := by
  have hbreak : s.contains '\n' = false := by
    rw [← Bool.not_eq_true, List.contains_iff_mem]
    exact hs.not_mem_lineBreak
  have hwidth : (!needsQuotes s && decide (foldWidth < s.length)) = false := by
    rcases hline with h | h
    · simp [h]
    · simp [Nat.not_lt.2 h]
  have hquoted : writeQuoted s = '"' :: (s ++ ['"']) := by
    have hsame : s.flatMap writeChar = s.flatMap fun c => [c] :=
      List.flatMap_congr fun c hc => writeChar_simple (hs.chars c hc)
    rw [writeQuoted, hsame, List.flatMap_singleton']
    rfl
  rw [writeText, hbreak, hwidth]
  simp only [Bool.false_eq_true, if_false, writeInline]
  split
  · exact .quoted (.inr rfl)
  · split
    · rw [hquoted]
      exact .quoted (.inl rfl)
    · rename_i hplain
      simp only [needsQuotes, Bool.or_eq_true, not_or, List.any_eq_true, not_exists, not_and,
        Bool.not_eq_true] at hplain
      exact .plain hplain.1.1.1.1 (fun h => absurd (hplain.2 _ h) (by decide))
        (fun h => absurd (hplain.2 _ h) (by decide))

/-- A longer text that needs no quotes is folded. -/
theorem writeText_isKept {s : Text} (hs : IsSimple s)
    (hfold : needsQuotes s = true ∨ s.length ≤ foldWidth ∨ FoldsAtWords s) :
    IsKept s (writeText s) := by
  by_cases hline : needsQuotes s = true ∨ s.length ≤ foldWidth
  · exact (writtenAs_writeText hs hline).isKept hs
  · rw [not_or, Bool.not_eq_true, Nat.not_le] at hline
    obtain ⟨hquotes, hlong⟩ := hline
    have hwords : FoldsAtWords s := by
      rcases hfold with h | h | h
      · rw [hquotes] at h
        cases h
      · exact absurd h (Nat.not_le.2 hlong)
      · exact h
    have hwrite : writeText s = writeFolded s := by
      simp [writeText, hs.not_mem_lineBreak, hquotes, hlong]
    have hne : s ≠ [] := List.ne_nil_of_length_pos (Nat.zero_lt_of_lt hlong)
    rw [hwrite]
    refine ⟨.block, .folded hs.chars hwords, ?_⟩
    simp [text?, isMissing, isNull, allowsText, hne]

/-! ## Entries -/

/-- The entry of a mapping that a line is read as. -/
def LineEntry.entry (line : LineEntry) : Entry :=
  { key := line.node.1, value := line.node.2, sound := true }

theorem listEntries_nodes (lines : List LineEntry) :
    listEntries (lines.map LineEntry.node) = { own := lines.map LineEntry.entry } := by
  induction lines with
  | nil => rfl
  | cons line lines ih =>
      have hmerge : line.key ≠ ['<', '<'] := by
        intro h
        exact absurd (line.key_chars '<' (h ▸ List.mem_cons_self)) (by decide)
      simp [listEntries, ih, LineEntry.node, LineEntry.entry, Listing.add, isMergeKey, hmerge,
        survey]

theorem haveDistinctKeys_entries {lines : List LineEntry} (h : (lines.map LineEntry.key).Nodup) :
    haveDistinctKeys (lines.map LineEntry.entry) = true := by
  induction lines with
  | nil => rfl
  | cons line lines ih =>
      rw [List.map_cons, List.nodup_cons] at h
      have hkey : hasKey (lines.map LineEntry.entry) line.entry.key = false := by
        simp only [hasKey, List.any_map, List.any_eq_false, Function.comp_apply]
        intro other hother hsame
        have heq : other.key = line.key := by
          simpa [LineEntry.entry, LineEntry.node, sameKey] using hsame
        exact h.1 (heq ▸ List.mem_map_of_mem hother)
      rw [List.map_cons, haveDistinctKeys, hkey, ih h.2]
      rfl

theorem entries?_nodes {lines : List LineEntry} (h : (lines.map LineEntry.key).Nodup) :
    entries? (.map (lines.map LineEntry.node)) = some (lines.map LineEntry.entry) := by
  simp [entries?, listEntries_nodes, Listing.entries?, Listing.mergedEntries?,
    haveDistinctKeys_entries h, addMissing]

end Yaml

open Yaml

namespace Config

theorem fieldName_spec : ∀ name ∈ fieldNames,
    name.all isKeyChar = true ∧ name ≠ [] ∧ name.length ≤ 1024 ∧ isNullText name = false := by
  decide

theorem partition_of_forall {α : Type} {p : α → Bool} {l : List α} (h : ∀ a ∈ l, p a = true) :
    l.partition p = (l, []) := by
  have hothers : l.filter (not ∘ p) = [] := by
    rw [List.filter_eq_nil_iff]
    intro a ha
    simp [h a ha]
  rw [List.partition_eq_filter_filter, List.filter_eq_self.2 h, hothers]

/-- The keys of the entries are the names of their fields. -/
theorem mapM_key_text? {lines : List LineEntry} (h : ∀ line ∈ lines, line.key ∈ fieldNames) :
    (lines.map LineEntry.entry).mapM (fun entry => entry.key.text?.map (·, entry)) =
      some (lines.map fun line => (line.key, line.entry)) := by
  induction lines with
  | nil => rfl
  | cons line lines ih =>
      have hnull := (fieldName_spec _ (h line List.mem_cons_self)).2.2.2
      have htext : line.entry.key.text? = some line.key := by
        simp [LineEntry.entry, LineEntry.node, text?, isNull, hnull, allowsText]
      have hlater := ih fun other hother => h other (List.mem_cons_of_mem line hother)
      simp [List.mapM_cons, htext, hlater]

theorem fieldsOf?_entries {lines : List LineEntry} (hnames : ∀ line ∈ lines, line.key ∈ fieldNames)
    (hnodup : (lines.map LineEntry.key).Nodup) :
    fieldsOf? (lines.map LineEntry.entry) =
      some (lines.map fun line => (line.key, line.node.2)) := by
  have hfields : ∀ field ∈ lines.map fun line => (line.key, line.entry),
      fieldNames.contains field.1 = true := by
    intro field hfield
    obtain ⟨line, hline, rfl⟩ := List.mem_map.1 hfield
    exact List.contains_iff_mem.2 (hnames line hline)
  have hkeys : ((lines.map fun line => (line.key, line.entry)).map (·.1)).Nodup := by
    rwa [List.map_map]
  simp only [fieldsOf?, mapM_key_text? hnames, Option.bind_eq_bind, Option.bind_some,
    partition_of_forall hfields]
  rw [if_pos ⟨hkeys, rfl⟩, List.map_map]
  rfl

theorem read?_lines {lines : List LineEntry} (hne : lines ≠ [])
    (hnames : ∀ line ∈ lines, line.key ∈ fieldNames) (hnodup : (lines.map LineEntry.key).Nodup) :
    read? (lines.flatMap LineEntry.line) =
      ofFields? (lines.map fun line => (line.key, line.node.2)) := by
  simp [read?, Yaml.read?_lines hne, entries?_nodes hnodup, fieldsOf?_entries hnames hnodup]

/-! ## Settings -/

/-- The texts among the settings. -/
def texts (config : Config) : List Text :=
  config.version :: config.outputFile :: config.outputDir.toList

/-- The line of a field. -/
def fieldLine (name : String) (hname : name.toList ∈ fieldNames) {written text : Text}
    {style : ScalarStyle} (reads : ReadsAs written style text) : LineEntry :=
  { key := name.toList
    written, style, text, reads
    key_chars := List.all_eq_true.1 (fieldName_spec _ hname).1
    key_ne_nil := (fieldName_spec _ hname).2.1
    key_length := (fieldName_spec _ hname).2.2.1 }

theorem fieldLine_line {name : String} (hname : name.toList ∈ fieldNames) {written text : Text}
    {style : ScalarStyle} (reads : ReadsAs written style text) :
    (fieldLine name hname reads).line = entryLine name written := by
  simp [fieldLine, LineEntry.line, entryLine]

theorem writeBool_reads (b : Bool) : ReadsAs (writeBool b) .plain (writeBool b) := by
  have hchars : (writeBool b).all isKeyChar = true := by cases b <;> decide
  exact .plain (isPlain_of_isKeyChar (List.all_eq_true.1 hchars) (by cases b <;> decide))

theorem boolOfText?_writeBool (b : Bool) : boolOfText? (writeBool b) = some b := by
  cases b <;> decide

end Config

open Config

/-- Settings are read back if each of their texts is. -/
theorem Config.read?_writeWith {config : Config} {scalar : Text → Text}
    (hkept : ∀ s ∈ config.texts, IsKept s (scalar s)) :
    Config.read? (config.writeWith scalar) = some config := by
  obtain ⟨version, includeHeader, force, outputDir, outputFile⟩ := config
  obtain ⟨_, hversion, hversionText, -⟩ := hkept version (by simp [texts])
  obtain ⟨_, hfile, hfileText, -⟩ := hkept outputFile (by simp [texts])
  cases outputDir with
  | none =>
      have hlines : writeWith scalar ⟨version, includeHeader, force, none, outputFile⟩ =
          [fieldLine "version" (by decide) hversion,
            fieldLine "include_header" (by decide) (writeBool_reads includeHeader),
            fieldLine "force" (by decide) (writeBool_reads force),
            fieldLine "output_file" (by decide) hfile].flatMap LineEntry.line := by
        simp [writeWith, writtenEntries, fieldLine_line]
      rw [hlines, read?_lines (by simp) (by simp [fieldLine, fieldNames]) (by simp [fieldLine])]
      simp [ofFields?, field?, boolField?, optionalField?, textField?, List.lookup_cons, fieldLine,
        LineEntry.node, hversionText, hfileText, Yaml.bool?, boolOfText?_writeBool]
  | some dir =>
      obtain ⟨_, hdir, hdirText, hpresent⟩ := hkept dir (by simp [texts])
      have hlines : writeWith scalar ⟨version, includeHeader, force, some dir, outputFile⟩ =
          [fieldLine "version" (by decide) hversion,
            fieldLine "include_header" (by decide) (writeBool_reads includeHeader),
            fieldLine "force" (by decide) (writeBool_reads force),
            fieldLine "output_dir" (by decide) hdir,
            fieldLine "output_file" (by decide) hfile].flatMap LineEntry.line := by
        simp [writeWith, writtenEntries, fieldLine_line]
      rw [hlines, read?_lines (by simp) (by simp [fieldLine, fieldNames]) (by simp [fieldLine])]
      simp [ofFields?, field?, boolField?, optionalField?, textField?, List.lookup_cons, fieldLine,
        LineEntry.node, hversionText, hdirText, hpresent, hfileText, Yaml.bool?,
        boolOfText?_writeBool]

/--
Settings with simple texts are read back as they were written.

Their texts may be written by any function that puts them in quotes where they
would be read as null or have a colon or a number sign.
-/
theorem settings_read_back {config : Config} {scalar : Text → Text}
    (hsimple : ∀ s ∈ config.texts, IsSimple s)
    (hwritten : ∀ s ∈ config.texts, WrittenAs s (scalar s)) :
    Config.read? (config.writeWith scalar) = some config :=
  Config.read?_writeWith fun s hs => (hwritten s hs).isKept (hsimple s hs)

/-- A directory named like null is not lost. -/
theorem settings_read_back_null :
    Config.read? (Config.write { version := "a: b # c".toList, outputDir := some "null".toList }) =
      some { version := "a: b # c".toList, outputDir := some "null".toList } := by
  have hsimple : ∀ s ∈ ["a: b # c".toList, "migration.sql".toList, "null".toList], IsSimple s := by
    decide +kernel
  have hline : ∀ s ∈ ["a: b # c".toList, "migration.sql".toList, "null".toList],
      needsQuotes s = true ∨ s.length ≤ foldWidth := by
    decide +kernel
  exact settings_read_back hsimple fun s hs => writtenAs_writeText (hsimple s hs) (hline s hs)

/-- The settings file keeps simple texts, be they plain, in quotes or folded at words. -/
theorem Config.read?_write {config : Config} (hsimple : ∀ s ∈ config.texts, IsSimple s)
    (hfold : ∀ s ∈ config.texts, needsQuotes s = true ∨ s.length ≤ foldWidth ∨ FoldsAtWords s) :
    Config.read? config.write = some config :=
  Config.read?_writeWith fun s hs => writeText_isKept (hsimple s hs) (hfold s hs)

/-- A text with two spaces where it is folded comes back with a line break. -/
theorem Config.read?_write_two_spaces :
    Config.read? (Config.write { outputDir := some (List.replicate 80 'a' ++ "  b".toList) }) =
      some { outputDir := some (List.replicate 80 'a' ++ "\n b".toList) } := by
  decide +kernel

end AuroraMigration
