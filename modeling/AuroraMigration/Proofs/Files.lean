import AuroraMigration.Project.Run

/-!
# What a run does to the files

The files of a tree as a map from locations to contents. Making directories never
changes that map and a write changes it at one location or not at all. A run
decides everything before it writes, so one that fails leaves every file as it
was, and one that succeeds changes the one file that its command is about.
-/

namespace AuroraMigration

namespace FileTree

variable {tree made after : FileTree} {location : Location} {path : Path}

/-- The content of the file at a location. -/
def contents (tree : FileTree) (location : Location) : Option ByteArray :=
  tree.files.lookup location

/-- After a change, the file at a path holds a text and every other file is as it was. -/
structure Saved (before after : FileTree) (path : Path) (text : Text) : Prop where
  holds : after.readText path = .ok text
  others : ∃ location, after.walk [] (Path.names path) = .ok location ∧
    ∀ other, other ≠ location → after.contents other = before.contents other

/-- A text is in the file at a path, if a path is given, and every other file is as it was. -/
def SavedTo (before after : FileTree) (text : Text) : Option Path → Prop
  | some path => before.Saved after path text
  | none => after.contents = before.contents

/-! ## Directories -/

theorem makeDirectory_files {above : List Text} {name : Text}
    (h : tree.makeDirectory above name = .ok made) : made.files = tree.files := by
  simp only [makeDirectory] at h
  split at h
  · cases h
  split at h
  · cases h
  · cases h
    rfl

theorem makeDirectories_files {names : List Text} (h : tree.makeDirectories names = .ok made) :
    made.files = tree.files := by
  induction names generalizing made with
  | nil =>
      cases h
      rfl
  | cons name above ih =>
      simp only [makeDirectories] at h
      split at h
      case h_1 first hfirst =>
        cases h
        exact makeDirectory_files hfirst
      case h_2 =>
        split at h <;> cases h
        rfl
      case h_3 =>
        split at h
        · cases h
        rename_i upper hupper
        have kept : upper.files = tree.files := ih hupper
        split at h
        case h_1 last hlast =>
          cases h
          exact (makeDirectory_files hlast).trans kept
        case h_2 =>
          split at h <;> cases h
          exact kept
      case h_4 => cases h

theorem contents_eq_of_files (h : made.files = tree.files) : made.contents = tree.contents := by
  funext location
  rw [contents, contents, h]

/-! ## Writes -/

theorem contents_put_self (content : ByteArray) :
    (tree.put location content).contents location = some content := by
  simp [contents, put]

theorem lookup_filter_ne {entries : List (Location × ByteArray)} {other : Location}
    (h : other ≠ location) :
    (entries.filter (·.1 != location)).lookup other = entries.lookup other := by
  induction entries with
  | nil => rfl
  | cons entry rest ih =>
      obtain ⟨key, content⟩ := entry
      by_cases hkey : key = location
      · subst hkey
        have hother : (other == key) = false := by simpa using h
        simp [List.lookup_cons, hother, ih]
      · simp [List.lookup_cons, hkey, ih]

theorem contents_put_of_ne {other : Location} (content : ByteArray) (h : other ≠ location) :
    (tree.put location content).contents other = tree.contents other := by
  have hother : (other == location) = false := by simpa using h
  simp [contents, put, List.lookup_cons, hother, lookup_filter_ne h]

theorem entry?_put_of_ne {other : Location} (content : ByteArray) (h : other ≠ location) :
    entry? (tree.put location content) other = tree.entry? other := by
  have same : (tree.put location content).files.lookup other = tree.files.lookup other :=
    contents_put_of_ne content h
  simp only [ entry?, same]
  rfl

theorem entry?_put_self (content : ByteArray) :
    entry? (tree.put location content) location = some (.file content) := by
  have stored : (tree.put location content).files.lookup location = some content :=
    contents_put_self content
  simp only [ entry?, stored]

/-- A walk only passes directories, so a file stored elsewhere does not divert it. -/
theorem walk_put (content : ByteArray) (hfree : tree.entry? location ≠ some .directory)
    {start reached : Location} {names : List Text} (h : tree.walk start names = .ok reached) :
    (tree.put location content).walk start names = .ok reached := by
  induction names generalizing start with
  | nil => exact h
  | cons name rest ih =>
      rw [walk] at h ⊢
      split at h
      · cases h
      · cases h
      · rename_i hentry
        have hne : start ≠ location := by
          rintro rfl
          exact hfree hentry
        rw [entry?_put_of_ne content hne, hentry]
        exact ih h

theorem write_spec {content : ByteArray} (h : tree.write path content = .ok after) :
    ∃ location, tree.walk [] (Path.names path) = .ok location ∧
      tree.entry? location ≠ some .directory ∧ Path.asksDirectory path = false ∧
      after = tree.put location content := by
  simp only [write] at h
  split at h
  · cases h
  rename_i location hwalk
  split at h
  · cases h
  rename_i hfree
  split at h
  · cases h
  rename_i hasks
  split at h
  · cases h
  · cases h
    exact ⟨location, hwalk, hfree, by simpa using hasks, rfl⟩

theorem decodeText?_encodeText (text : Text) : decodeText? (encodeText text) = some text := by
  have valid : (encodeText text).IsValidUTF8 := (String.ofList text).isValidUTF8
  have back : String.fromUTF8 (encodeText text) valid = String.ofList text := rfl
  simp [decodeText?, String.fromUTF8?, valid, back]

theorem eq_encodeText_of_decodeText? {bytes : ByteArray} {text : Text}
    (h : decodeText? bytes = some text) : bytes = encodeText text := by
  simp only [decodeText?, String.fromUTF8?] at h
  split at h
  · rename_i valid
    simp only [Option.map_some, Option.some.injEq] at h
    rw [encodeText, ← h, String.ofList_toList]
    rfl
  · cases h

theorem readText_ok_iff {text : Text} :
    tree.readText path = .ok text ↔ tree.find path = .ok (.file (encodeText text)) := by
  unfold readText
  constructor
  · intro h
    split at h
    · cases h
    · cases h
    · rename_i content hfind
      split at h
      · rename_i found hfound
        cases h
        rw [hfind, eq_encodeText_of_decodeText? hfound]
      · cases h
  · intro h
    simp only [h, decodeText?_encodeText]

theorem saved_of_write {text : Text} (h : tree.write path (encodeText text) = .ok after) :
    tree.Saved after path text := by
  obtain ⟨location, hwalk, hfree, hasks, rfl⟩ := write_spec h
  have hagain := walk_put (encodeText text) hfree hwalk
  refine ⟨?_, location, hagain, fun other hne => contents_put_of_ne _ hne⟩
  simp [readText, find, hagain, entry?_put_self, hasks, decodeText?_encodeText]

theorem Saved.congr {text : Text} (h : made.Saved after path text)
    (same : made.contents = tree.contents) : tree.Saved after path text := by
  obtain ⟨location, hwalk, hothers⟩ := h.others
  exact ⟨h.holds, location, hwalk, fun other hne => by rw [hothers other hne, same]⟩

/-- The directory of a file is made before the file is written, and no file changes by that. -/
theorem save_cases (tree : FileTree) (path : Path) (text : Text) :
    (∃ error, (tree.save path (encodeText text)).2 = .error error ∧
      (tree.save path (encodeText text)).1.contents = tree.contents) ∨
    ((tree.save path (encodeText text)).2 = .ok () ∧
      tree.Saved (tree.save path (encodeText text)).1 path text) := by
  simp only [save]
  split
  · split
    · exact .inl ⟨_, rfl, rfl⟩
    · rename_i written hwrite
      exact .inr ⟨rfl, saved_of_write hwrite⟩
  · split
    · exact .inl ⟨_, rfl, rfl⟩
    · rename_i made hmade
      have same := contents_eq_of_files (makeDirectories_files hmade)
      split
      · exact .inl ⟨_, rfl, same⟩
      · rename_i written hwrite
        exact .inr ⟨rfl, (saved_of_write hwrite).congr same⟩

end FileTree

/-! ## Plans -/

/-- What is true of the files once a plan has been carried out. -/
def Plan.Done (before after : FileTree) : Plan → Prop
  | .print _ => after.contents = before.contents
  | .save path content _ _ => before.Saved after path content

/-- A plan is carried out in full and gives code 0, or it gives code 1 and changes no file. -/
theorem carryOut_cases (tree : FileTree) (decided : Except RunError Plan) :
    ((carryOut tree decided).2.exitCode = 1 ∧
      (carryOut tree decided).1.contents = tree.contents) ∨
    ((carryOut tree decided).2.exitCode = 0 ∧
      ∃ plan, decided = .ok plan ∧ plan.Done tree (carryOut tree decided).1) := by
  match decided with
  | .error error => exact .inl ⟨rfl, rfl⟩
  | .ok (.print printed) => exact .inr ⟨rfl, _, rfl, rfl⟩
  | .ok (.save path content failure printed) =>
      simp only [carryOut]
      obtain ⟨error, hsave, same⟩ | ⟨hsave, saved⟩ := tree.save_cases path content
      · refine .inl ?_
        split
        · rename_i hok
          rw [hok] at hsave
          cases hsave
        · rename_i hfail
          rw [hfail] at same
          exact ⟨rfl, same⟩
      · refine .inr ?_
        split
        · rename_i hok
          rw [hok] at saved
          exact ⟨rfl, _, rfl, saved⟩
        · rename_i hfail
          rw [hfail] at hsave
          cases hsave

/-- The settings that `init` writes are read back as the default ones, and nothing is wrong with
them. -/
theorem configOfText_default (path : Path) : configOfText path (Config.write {}) = .ok {} := by
  have hread : Config.read? (Config.write {}) = some {} := by decide +kernel
  have hsound : ({} : Config).error? = none := by decide +kernel
  simp only [configOfText, hread, hsound]

/-! ## Runs -/

/-- The exit code of a run. -/
def exitCode : Except UsageError Outcome → Nat
  | .error error => error.exitCode
  | .ok outcome => outcome.exitCode

/-- What a successful run of a command has found and done. -/
def Effect (around : Surroundings) (invocation : Invocation) (before after : FileTree) : Prop :=
  match invocation.command with
  | .transform input output force noHeader =>
      ∃ sql config, readMigration around before.readText input = .ok sql ∧
        loadConfig before.readText around.project invocation.config = .ok config ∧
        let options := scriptOptions config force noHeader around.now
        let result := Migration.transform sql options
        (result.hasUnsupported = true → options.force = true) ∧
          before.SavedTo after result.sql (scriptPath? around.project config output)
  | .check schema =>
      (∃ text, requireFile before.readText (Path.join around.project schema) = .ok text ∧
        (checkSchema text).valid = true) ∧
      after.contents = before.contents
  | .init force =>
      let path := configPath around.project invocation.config
      (force = true ∨ ∃ cause, before.readText path = .error (.missing cause)) ∧
        before.Saved after path (Config.write {}) ∧
        loadConfig after.readText around.project invocation.config = .ok {}

variable {around : Surroundings} {invocation : Invocation} {before after : FileTree} {plan : Plan}

theorem planScript_spec {result : Migration} {options : ScriptOptions} {color : Bool}
    {format : Format} {output : Option Path}
    (h : planScript result options color format output = .ok plan)
    (hdone : plan.Done before after) :
    (result.hasUnsupported = true → options.force = true) ∧
      before.SavedTo after result.sql output := by
  simp only [planScript] at h
  split at h
  · cases h
  rename_i hforced
  refine ⟨fun hunsupported => by simpa [hunsupported] using hforced, ?_⟩
  cases output <;> cases h <;> exact hdone

theorem planTransform_ok_iff {look : Lookup} {input output : Option Path} {force noHeader : Bool} :
    planTransform around look invocation input output force noHeader = .ok plan ↔
      ∃ sql config, readMigration around look input = .ok sql ∧
        loadConfig look around.project invocation.config = .ok config ∧
        let options := scriptOptions config force noHeader around.now
        planScript (Migration.transform sql options) options (around.color && !invocation.noColor)
          invocation.format (scriptPath? around.project config output) = .ok plan := by
  simp only [planTransform, bind, Except.bind]
  cases readMigration around look input with
  | error error => simp
  | ok sql => cases loadConfig look around.project invocation.config <;> simp

theorem planTransform_effect {input output : Option Path} {force noHeader : Bool}
    (hcommand : invocation.command = .transform input output force noHeader)
    (h : planTransform around before.readText invocation input output force noHeader = .ok plan)
    (hdone : plan.Done before after) : Effect around invocation before after := by
  obtain ⟨sql, config, hsql, hconfig, hscript⟩ := planTransform_ok_iff.1 h
  simp only [Effect, hcommand]
  exact ⟨sql, config, hsql, hconfig, planScript_spec hscript hdone⟩

theorem planCheck_effect {schema : Path} (hcommand : invocation.command = .check schema)
    (h : planCheck around before.readText invocation schema = .ok plan)
    (hdone : plan.Done before after) : Effect around invocation before after := by
  simp only [planCheck, bind, Except.bind] at h
  split at h
  · cases h
  rename_i text htext
  split at h
  · rename_i hvalid
    cases h
    simp only [Effect, hcommand]
    exact ⟨⟨text, htext, hvalid⟩, hdone⟩
  · cases h

theorem planInit_spec {look : Lookup} {force : Bool}
    (h : planInit around look invocation force = .ok plan) :
    let path := configPath around.project invocation.config
    (force = true ∨ ∃ cause, look path = .error (.missing cause)) ∧
      ∃ failure printed, plan = .save path (Config.write {}) failure printed := by
  intro path
  simp only [planInit] at h
  split at h
  case h_1 cause hmissing =>
    simp only [Bool.true_or, if_true] at h
    cases h
    exact ⟨.inr ⟨cause, hmissing⟩, _, _, rfl⟩
  case h_2 =>
    simp only [Bool.false_or] at h
    split at h
    · rename_i hforce
      cases h
      exact ⟨.inl hforce, _, _, rfl⟩
    · cases h

theorem planInit_effect {force : Bool} (hcommand : invocation.command = .init force)
    (h : planInit around before.readText invocation force = .ok plan)
    (hdone : plan.Done before after) : Effect around invocation before after := by
  obtain ⟨hfree, failure, printed, rfl⟩ := planInit_spec h
  have saved : before.Saved after (configPath around.project invocation.config)
    (Config.write {}) := hdone
  simp only [Effect, hcommand]
  refine ⟨hfree, saved, ?_⟩
  simp only [loadConfig, saved.holds]
  exact configOfText_default _

theorem plan_effect (h : AuroraMigration.plan around before.readText invocation = .ok plan)
    (hdone : plan.Done before after) : Effect around invocation before after := by
  unfold AuroraMigration.plan at h
  split at h
  · rename_i hcommand
    exact planTransform_effect hcommand h hdone
  · rename_i hcommand
    exact planCheck_effect hcommand h hdone
  · rename_i hcommand
    exact planInit_effect hcommand h hdone

/--
A run that fails changes no file. One that succeeds changes at most one: the
script's file for `transform`, the configuration file for `init`, none for `check`.
-/
theorem run_files (tree : FileTree) (around : Surroundings) (words : List Text) :
    (exitCode (run tree around words).2 ≠ 0 →
      (run tree around words).1.contents = tree.contents) ∧
    (exitCode (run tree around words).2 = 0 →
      match parseArguments words with
      | .error _ => (run tree around words).1.contents = tree.contents
      | .ok invocation => Effect around invocation tree (run tree around words).1) := by
  unfold run
  cases parseArguments words with
  | error error => exact ⟨fun _ => rfl, fun _ => rfl⟩
  | ok invocation =>
      obtain ⟨hcode, same⟩ | ⟨hcode, plan, hplan, hdone⟩ :=
        carryOut_cases tree (AuroraMigration.plan around tree.readText invocation)
      · refine ⟨fun _ => same, fun hzero => ?_⟩
        have hone : exitCode (.ok (carryOut tree
          (AuroraMigration.plan around tree.readText invocation)).2) = 1 := hcode
        rw [hone] at hzero
        cases hzero
      · exact ⟨fun hfail => absurd hcode hfail, fun _ => plan_effect hplan hdone⟩

/-- A script from standard input is stored in a directory that is made for it. -/
example :
    let around : Surroundings :=
      { project := "/p".toList, color := false, now := ⟨0, 0⟩
        input := encodeText "CREATE INDEX i ON t (a)".toList }
    let words := ["transform", "-", "-o", "d/s.sql", "--no-header"].map String.toList
    let ended := run { directories := [["p".toList]] } around words
    exitCode ended.2 = 0 ∧
      ended.1.contents ["p".toList, "d".toList, "s.sql".toList] =
        some (encodeText "BEGIN;\nCREATE INDEX ASYNC i ON t (a);\nCOMMIT;\n".toList) := by
  decide +kernel

end AuroraMigration
