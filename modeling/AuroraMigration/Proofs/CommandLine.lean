import AuroraMigration.CommandLine.Reader
import Mathlib.Data.List.Basic

/-!
# Writing command lines

A command line can be written with every option in long form and its value in
the same word, the shared options on either side of the command, and the operand
behind two dashes at the end. Then no path is taken for anything else, whatever
it looks like, and the order of the options does not matter. The main statement
says that reading such a line gives back what was written.
-/

namespace AuroraMigration

/-! ## Written command lines -/

/-- The name of a format. -/
def Format.word : Format → Text
  | .text => "text".toList
  | .json => "json".toList

/-- An option in long form. -/
inductive LongOption where
  | config (path : Path)
  | verbose
  | noColor
  | format (shown : Format)
  | output (path : Path)
  | force
  | noHeader
  deriving DecidableEq, Repr

/-- The word of an option; its value stands in the same word. -/
def LongOption.word : LongOption → Text
  | .config path => "--config=".toList ++ path
  | .verbose => "--verbose".toList
  | .noColor => "--no-color".toList
  | .format shown => "--format=".toList ++ shown.word
  | .output path => "--output=".toList ++ path
  | .force => "--force".toList
  | .noHeader => "--no-header".toList

/-- The word of a command. -/
def Command.word : Command → Text
  | .transform _ _ _ _ => "transform".toList
  | .check _ => "check".toList
  | .init _ => "init".toList

/-- The name of a command. -/
def Command.name : Command → CommandName
  | .transform _ _ _ _ => .transform
  | .check _ => .check
  | .init _ => .init

/-- The options that belong to a command alone. -/
def Command.options : Command → List LongOption
  | .transform _ output force noHeader =>
      (output.map .output).toList ++ (if force then [.force] else []) ++
        (if noHeader then [.noHeader] else [])
  | .check _ => []
  | .init force => if force then [.force] else []

/-- The path that is no option's value. -/
def Command.operand? : Command → Option Path
  | .transform input _ _ _ => input
  | .check schema => some schema
  | .init _ => none

/-- The options that all commands have; the format may be given or left to its default. -/
def Invocation.options (invocation : Invocation) (givesFormat : Bool) : List LongOption :=
  (invocation.config.map .config).toList ++ (if invocation.verbose then [.verbose] else []) ++
    (if invocation.noColor then [.noColor] else []) ++
    (if givesFormat then [.format invocation.format] else [])

/-- The paths of an invocation. -/
def Invocation.paths (invocation : Invocation) : List Path :=
  invocation.config.toList ++
    match invocation.command with
    | .transform input output _ _ => input.toList ++ output.toList
    | .check schema => [schema]
    | .init _ => []

/--
The words that write an invocation.

The shared options come in any order, each before or after the command; its own
options come in any order among those after it, and its operand comes last.
-/
def Invocation.WrittenAs (invocation : Invocation) (words : List Text) : Prop :=
  ∃ (givesFormat : Bool) (before later after : List LongOption),
    (givesFormat = false → invocation.format = .text) ∧
    (before ++ later).Perm (invocation.options givesFormat) ∧
    after.Perm (later ++ invocation.command.options) ∧
    words = before.map LongOption.word ++ invocation.command.word ::
      (after.map LongOption.word ++
        (invocation.command.operand?.elim [] fun path => ["--".toList, path]))

/-! ## Looking up settings -/

theorem lookup_eq_some_iff_mem {l : List (Setting × Text)} (h : (l.map Prod.fst).Nodup)
    (setting : Setting) (value : Text) :
    l.lookup setting = some value ↔ (setting, value) ∈ l := by
  induction l with
  | nil => simp
  | cons entry l ih =>
      obtain ⟨key, first⟩ := entry
      rw [List.map_cons, List.nodup_cons] at h
      by_cases hkey : setting = key
      · have habsent : (setting, value) ∉ l := fun hmem =>
          h.1 (List.mem_map.2 ⟨(setting, value), hmem, hkey⟩)
        simp [hkey ▸ habsent, hkey, eq_comm]
      · have hbeq : (setting == key) = false := beq_eq_false_iff_ne.2 hkey
        simp [List.lookup_cons, hbeq, hkey, ih h.2]

/-! ## Reading one option -/

/-- What an option sets. -/
def LongOption.entry : LongOption → Setting × Text
  | .config path => (.config, path)
  | .verbose => (.verbose, [])
  | .noColor => (.noColor, [])
  | .format shown => (.format, shown.word)
  | .output path => (.output, path)
  | .force => (.force, [])
  | .noHeader => (.noHeader, [])

theorem Setting.long?_inj {a b : Setting} {name : Text} (ha : a.long? = some name)
    (hb : b.long? = some name) : a = b := by
  rw [← hb] at ha
  revert ha
  cases a <;> cases b <;> decide

/-- Within a level, a long name leads to one option. -/
theorem find?_long {level : Level} {setting : Setting} {name : Text}
    (hlevel : setting ∈ level.options) (hname : setting.long? = some name) :
    level.options.find? (·.long? == some name) = some setting := by
  cases hfound : level.options.find? (·.long? == some name) with
  | none =>
      have hnone := List.find?_eq_none.1 hfound setting hlevel
      simp [hname] at hnone
  | some found =>
      have hlong := List.find?_some hfound
      rw [Setting.long?_inj (beq_iff_eq.1 hlong) hname]

/-- The name of an option ends before its value. -/
theorem takeWhile_long {name rest : Text} (hsign : '=' ∉ name)
    (hrest : ∀ c, rest.head? = some c → c = '=') :
    (name ++ rest).takeWhile (· != '=') = name := by
  rw [List.takeWhile_append_of_pos fun c hc => by
    simpa using fun h : c = '=' => hsign (h ▸ hc)]
  cases rest with
  | nil => simp
  | cons c rest => simp [hrest c rfl]

namespace Reader

theorem any_eq_false {given : List (Setting × Text)} {setting : Setting}
    (hnew : setting ∉ given.map Prod.fst) : given.any (·.1 == setting) = false := by
  rw [List.any_eq_false]
  intro entry hentry hsame
  exact hnew (List.mem_map.2 ⟨entry, hentry, beq_iff_eq.1 hsame⟩)

/-- A setting that is new and has a value it accepts is settled. -/
theorem give_ok {given : List (Setting × Text)} {setting : Setting} {value : Text}
    (hnew : setting ∉ given.map Prod.fst) (haccepts : setting.accepts value = true) :
    give { given } setting value = .ok { given := given ++ [(setting, value)] } := by
  simp [give, any_eq_false hnew, haccepts]

theorem readLong_value {level : Level} {given : List (Setting × Text)} {setting : Setting}
    (name value : Text) (hlevel : setting ∈ level.options) (hname : setting.long? = some name)
    (htakes : setting.takesValue = true) (hsign : '=' ∉ name) :
    readLong level { given } (name ++ '=' :: value) = give { given } setting value := by
  have htake := takeWhile_long hsign (show ∀ c, ('=' :: value).head? = some c → c = '=' by simp)
  simp only [readLong, htake, List.drop_left, find?_long hlevel hname, htakes, if_true]
  rfl

theorem readLong_flag {level : Level} {given : List (Setting × Text)} {setting : Setting}
    (name : Text) (hlevel : setting ∈ level.options) (hname : setting.long? = some name)
    (htakes : setting.takesValue = false) (hsign : '=' ∉ name) :
    readLong level { given } name = readFlag { given } setting := by
  have htake := takeWhile_long hsign (show ∀ c, ([] : Text).head? = some c → c = '=' by simp)
  rw [List.append_nil] at htake
  simp [readLong, htake, find?_long hlevel hname, htakes]

/-- An option in long form is read as what it sets. -/
theorem readWord_option {level : Level} {given : List (Setting × Text)} {option : LongOption}
    (hlevel : option.entry.1 ∈ level.options) (hnew : option.entry.1 ∉ given.map Prod.fst)
    (haccepts : option.entry.1.accepts option.entry.2 = true) :
    readWord level { given } option.word = .ok { given := given ++ [option.entry] } := by
  rw [← give_ok hnew haccepts]
  cases option with
  | config path => exact readLong_value "config".toList path hlevel rfl rfl (by decide)
  | output path => exact readLong_value "output".toList path hlevel rfl rfl (by decide)
  | format shown => exact readLong_value "format".toList shown.word hlevel rfl rfl (by decide)
  | verbose => exact readLong_flag "verbose".toList hlevel rfl rfl (by decide)
  | noColor => exact readLong_flag "no-color".toList hlevel rfl rfl (by decide)
  | force => exact readLong_flag "force".toList hlevel rfl rfl (by decide)
  | noHeader => exact readLong_flag "no-header".toList hlevel rfl rfl (by decide)

end Reader

/-! ## Reading a level -/

/-- The word of a command names it. -/
theorem Command.ofText?_word (command : Command) :
    CommandName.ofText? command.word = some command.name := by
  cases command <;> rfl

/-- The word of an option is neither a command nor two dashes. -/
theorem LongOption.word_ne (option : LongOption) :
    namesCommand option.word = false ∧ (option.word == "--".toList) = false := by
  cases option <;> exact ⟨rfl, rfl⟩

/-- Options that a level has and that are new, each given once and with a value that it accepts. -/
structure Readable (level : Level) (given : List (Setting × Text)) (options : List LongOption) :
    Prop where
  allowed : ∀ option ∈ options, option.entry.1 ∈ level.options
  accepted : ∀ option ∈ options, option.entry.1.accepts option.entry.2 = true
  once : ((given ++ options.map LongOption.entry).map Prod.fst).Nodup

theorem Readable.tail {level : Level} {given : List (Setting × Text)} {option : LongOption}
    {options : List LongOption} (h : Readable level given (option :: options)) :
    Readable level (given ++ [option.entry]) options where
  allowed := fun x hx => h.allowed x (List.mem_cons_of_mem option hx)
  accepted := fun x hx => h.accepted x (List.mem_cons_of_mem option hx)
  once := by simpa using h.once

/-- Options are read one after the other, whatever follows them. -/
theorem readLevel_options {level : Level} {given : List (Setting × Text)}
    {options : List LongOption} (h : Readable level given options) (rest : List Text) :
    readLevel level { given } (options.map LongOption.word ++ rest) =
      readLevel level { given := given ++ options.map LongOption.entry } rest := by
  induction options generalizing given with
  | nil => simp
  | cons option options ih =>
      have hnew : option.entry.1 ∉ given.map Prod.fst := by
        have honce := h.once
        rw [List.map_append, List.nodup_append] at honce
        intro hmem
        exact honce.2.2 _ hmem _ (by simp) rfl
      have hread := Reader.readWord_option (h.allowed option List.mem_cons_self) hnew
        (h.accepted option List.mem_cons_self)
      obtain ⟨hcommand, hdashes⟩ := option.word_ne
      rw [List.map_cons, List.cons_append, readLevel]
      simp only [hcommand, hdashes, Bool.and_false, Bool.false_eq_true, if_false, hread]
      rw [ih h.tail, List.map_cons, ← List.append_cons]

/-- After the options of a level its operand is read as it stands. -/
theorem settle_operand {level : Level} {given : List (Setting × Text)} {operand? : Option Path}
    (hcommands : level.commands = false) (hlevel : operand?.isSome → level.operand = true)
    (hpath : ∀ path ∈ operand?, path ≠ []) (hnew : .operand ∉ given.map Prod.fst) :
    ∃ stopped, readLevel level { given }
        (operand?.elim [] fun path => ["--".toList, path]) = .ok stopped ∧
      stopped.reader.settle =
        .ok { given := given ++ (operand?.map (Prod.mk .operand)).toList } := by
  cases operand? with
  | none => exact ⟨{ reader := { given } }, rfl, by simp [Reader.settle]⟩
  | some path =>
      have hpending : Reader.readOperand level true { given } path =
          .ok { given, pending := some (.operand, some path) } := by
        have hgiven : given.any (·.1 == .operand) = false := Reader.any_eq_false hnew
        simp only [Reader.readOperand, Reader.hasOperand, hgiven, hlevel rfl]
        rfl
      have haccepts : Setting.accepts .operand path = true := by
        simpa [Setting.accepts] using hpath path rfl
      refine ⟨{ reader := { given, pending := some (.operand, some path) } }, ?_, ?_⟩
      · simp [readLevel, readOperands, hcommands, hpending]
      · exact Reader.give_ok hnew haccepts

/-! ## The settings of an invocation -/

/-- What is set after a command's name by some options and the operand. -/
def Command.given (command : Command) (after : List LongOption) : List (Setting × Text) :=
  after.map LongOption.entry ++ (command.operand?.map (Prod.mk .operand)).toList

/-- Everything that a written invocation sets. -/
def Invocation.entries (invocation : Invocation) (givesFormat : Bool) : List (Setting × Text) :=
  (invocation.options givesFormat).map LongOption.entry ++
    invocation.command.given invocation.command.options

theorem keys_flag (flag : Bool) (option : LongOption) :
    (((if flag then [option] else []).map LongOption.entry).map Prod.fst).Sublist
      [option.entry.1] := by
  cases flag <;> simp

theorem keys_optional (f : Path → LongOption) {key : Setting}
    (hf : ∀ path, (f path).entry.1 = key) (path? : Option Path) :
    (((path?.map f).toList.map LongOption.entry).map Prod.fst).Sublist [key] := by
  cases path? <;> simp [hf]

theorem Invocation.keys_options (invocation : Invocation) (givesFormat : Bool) :
    (((invocation.options givesFormat).map LongOption.entry).map Prod.fst).Sublist
      [.config, .verbose, .noColor, .format] := by
  have hconfig := keys_optional .config (fun _ => rfl) invocation.config
  have hverbose := keys_flag invocation.verbose .verbose
  have hcolor := keys_flag invocation.noColor .noColor
  have hformat := keys_flag givesFormat (.format invocation.format)
  simp only [Invocation.options, List.map_append]
  exact ((hconfig.append hverbose).append hcolor).append hformat

theorem Command.keys_options (command : Command) :
    ((command.options.map LongOption.entry).map Prod.fst).Sublist
      [.output, .force, .noHeader] := by
  cases command with
  | transform input output force noHeader =>
      have houtput := keys_optional .output (fun _ => rfl) output
      simp only [Command.options, List.map_append]
      exact (houtput.append (keys_flag force .force)).append (keys_flag noHeader .noHeader)
  | check schema => simp [Command.options]
  | init force => exact (keys_flag force .force).trans (by decide)

theorem Command.keys_given (command : Command) :
    ((command.given command.options).map Prod.fst).Sublist
      [.output, .force, .noHeader, .operand] := by
  have hoperand : ((command.operand?.map (Prod.mk .operand)).toList.map
      (Prod.fst : Setting × Text → Setting)).Sublist [.operand] := by
    cases command.operand? <;> simp
  rw [Command.given, List.map_append]
  exact command.keys_options.append hoperand

/-- An invocation sets everything at most once. -/
theorem Invocation.nodup_entries (invocation : Invocation) (givesFormat : Bool) :
    ((invocation.entries givesFormat).map Prod.fst).Nodup := by
  rw [Invocation.entries, List.map_append]
  exact ((invocation.keys_options givesFormat).append invocation.command.keys_given).nodup
    (by decide)

/-- What an invocation's options set can be set on both sides of the command. -/
theorem Invocation.shared_of_mem {invocation : Invocation} {givesFormat : Bool}
    {setting : Setting} {value : Text}
    (h : (setting, value) ∈ (invocation.options givesFormat).map LongOption.entry) :
    setting ∈ sharedOptions := by
  have hkey := (invocation.keys_options givesFormat).subset (List.mem_map_of_mem h)
  exact List.Sublist.subset (by decide) hkey

/-- What a command sets can be set after its name only. -/
theorem Command.not_shared_of_mem {command : Command} {setting : Setting} {value : Text}
    (h : (setting, value) ∈ command.given command.options) : setting ∉ sharedOptions := by
  have hown : ∀ key ∈ [Setting.output, .force, .noHeader, .operand], key ∉ sharedOptions := by
    decide
  exact hown setting (command.keys_given.subset (List.mem_map_of_mem h))

theorem Command.allowed_options {command : Command} {option : LongOption}
    (h : option ∈ command.options) : option.entry.1 ∈ command.name.level.options := by
  cases command with
  | transform input output force noHeader =>
      exact List.mem_append_right _ (Command.keys_options _ |>.subset
        (List.mem_map_of_mem (List.mem_map_of_mem h)))
  | check schema => simp [Command.options] at h
  | init force =>
      exact List.mem_append_right _ ((keys_flag force .force).subset
        (List.mem_map_of_mem (List.mem_map_of_mem h)))

theorem CommandName.shared_subset (name : CommandName) : sharedOptions ⊆ name.level.options := by
  cases name <;> simp [CommandName.level]

theorem Invocation.operand_mem_paths {invocation : Invocation} {path : Path}
    (h : path ∈ invocation.command.operand?) : path ∈ invocation.paths := by
  obtain ⟨config, verbose, noColor, format, command⟩ := invocation
  cases command <;> simp_all [Command.operand?, Invocation.paths]

theorem Format.ofText?_word (format : Format) : Format.ofText? format.word = some format := by
  cases format <;> decide

/-- Every option accepts the value that an invocation gives it. -/
theorem Invocation.accepts_options {invocation : Invocation}
    (hpaths : ∀ path ∈ invocation.paths, path ≠ []) (givesFormat : Bool) {option : LongOption}
    (h : option ∈ invocation.options givesFormat ++ invocation.command.options) :
    option.entry.1.accepts option.entry.2 = true := by
  obtain ⟨config, verbose, noColor, format, command⟩ := invocation
  cases option with
  | config path =>
      have hpath : path ≠ [] := by
        apply hpaths
        cases command <;> simp_all [Invocation.options, Command.options, Invocation.paths]
      simpa [LongOption.entry, Setting.accepts] using hpath
  | output path =>
      have hpath : path ≠ [] := by
        apply hpaths
        cases command <;> simp_all [Invocation.options, Command.options, Invocation.paths]
      simpa [LongOption.entry, Setting.accepts] using hpath
  | format shown => simp [LongOption.entry, Setting.accepts, Format.ofText?_word]
  | verbose => rfl
  | noColor => rfl
  | force => rfl
  | noHeader => rfl

/-! ## Collecting what was read -/

theorem isSome_eq_flag {value? : Option Text} {flag : Bool}
    (h : ∀ value, value? = some value ↔ flag = true ∧ value = []) : value?.isSome = flag := by
  rw [Bool.eq_iff_iff, Option.isSome_iff_exists]
  simp [h]

theorem isGiven_or_eq_flag {outer inner : Reader} {setting : Setting} {flag : Bool}
    (h : ∀ value, (inner.value? setting).or (outer.value? setting) = some value ↔
      flag = true ∧ value = []) :
    (inner.isGiven setting || outer.isGiven setting) = flag := by
  rw [Reader.isGiven, Reader.isGiven, ← Option.isSome_or]
  exact isSome_eq_flag h

/-- A command is made up again from what it sets. -/
theorem Command.command_of_values {command : Command} {reader : Reader}
    (h : ∀ setting ∉ sharedOptions, ∀ value,
      reader.value? setting = some value ↔ (setting, value) ∈ command.given command.options) :
    command.name.command reader = .ok command := by
  have hoperand := h .operand (by decide)
  have hforce := h .force (by decide)
  cases command with
  | transform input output force noHeader =>
      have hinput : reader.value? .operand = input := by
        ext value
        simp [hoperand, Command.given, Command.options, Command.operand?, LongOption.entry]
      have houtput : reader.value? .output = output := by
        ext value
        simp [h .output (by decide), Command.given, Command.options, LongOption.entry]
      have hforce : reader.isGiven .force = force := isSome_eq_flag fun value => by
        simp [hforce, Command.given, Command.options, LongOption.entry]
      have hheader : reader.isGiven .noHeader = noHeader := isSome_eq_flag fun value => by
        simp [h .noHeader (by decide), Command.given, Command.options, LongOption.entry]
      rw [Command.name, CommandName.command, hinput, houtput, hforce, hheader]
  | check schema =>
      have hschema : reader.value? .operand = some schema := by
        simp [hoperand, Command.given, Command.operand?]
      rw [Command.name, CommandName.command, hschema]
  | init force =>
      have hforce : reader.isGiven .force = force := isSome_eq_flag fun value => by
        simp [hforce, Command.given, Command.options, LongOption.entry]
      rw [Command.name, CommandName.command, hforce]

/-- The options on the two sides of a command make up the invocation again. -/
theorem Invocation.ofReaders_of_values {invocation : Invocation} {givesFormat : Bool}
    {outer inner : Reader} (hformat : givesFormat = false → invocation.format = .text)
    (h : ∀ setting ∈ sharedOptions, ∀ value,
      (inner.value? setting).or (outer.value? setting) = some value ↔
        (setting, value) ∈ (invocation.options givesFormat).map LongOption.entry) :
    Invocation.ofReaders outer inner invocation.command = invocation := by
  have hconfig : (inner.value? .config).or (outer.value? .config) = invocation.config := by
    ext value
    rw [h .config (by decide)]
    simp [Invocation.options, LongOption.entry]
  have hverbose : (inner.isGiven .verbose || outer.isGiven .verbose) = invocation.verbose := by
    refine isGiven_or_eq_flag fun value => ?_
    rw [h .verbose (by decide)]
    simp [Invocation.options, LongOption.entry]
  have hcolor : (inner.isGiven .noColor || outer.isGiven .noColor) = invocation.noColor := by
    refine isGiven_or_eq_flag fun value => ?_
    rw [h .noColor (by decide)]
    simp [Invocation.options, LongOption.entry]
  have hshown : (inner.value? .format).or (outer.value? .format) =
      if givesFormat then some invocation.format.word else none := by
    ext value
    rw [h .format (by decide)]
    simp [Invocation.options, LongOption.entry]
  simp only [Invocation.ofReaders, hconfig, hverbose, hcolor, hshown]
  cases givesFormat with
  | false => simp [← hformat rfl]
  | true => simp [Format.ofText?_word]

/-! ## Reading back -/

/-- The options that precede a command leave the reader at its name. -/
theorem readLevel_program {before : List LongOption} (h : Readable .program [] before)
    (command : Command) (rest : List Text) :
    readLevel .program {} (before.map LongOption.word ++ command.word :: rest) =
      .ok { reader := { given := before.map LongOption.entry }
            command := some (command.word, rest) } := by
  have hnames : namesCommand command.word = true := by
    simp [namesCommand, command.ofText?_word]
  rw [readLevel_options h, readLevel]
  simp [Level.program, Reader.isWaiting, hnames]

/-- The options and the operand after a command's name are what its level settles. -/
theorem readCommand_options {command : Command} {after : List LongOption}
    (h : Readable command.name.level [] after) (hpath : ∀ path ∈ command.operand?, path ≠ [])
    (hcommand : command.name.command { given := command.given after } = .ok command) :
    readCommand command.name (after.map LongOption.word ++
        (command.operand?.elim [] fun path => ["--".toList, path])) =
      .ok ({ given := command.given after }, command) := by
  have hcommands : command.name.level.commands = false := by cases command <;> rfl
  have hlevel : command.operand?.isSome → command.name.level.operand = true := by
    cases command <;> simp [Command.operand?, Command.name, CommandName.level]
  have hnew : Setting.operand ∉ (after.map LongOption.entry).map Prod.fst := by
    simp only [List.map_map, List.mem_map, not_exists, not_and]
    intro option _
    cases option <;> simp [LongOption.entry]
  obtain ⟨stopped, hstopped, hsettle⟩ := settle_operand hcommands hlevel hpath hnew
  rw [← Command.given] at hsettle
  rw [readCommand, readLevel_options h, List.nil_append, hstopped]
  simp [bind, Except.bind, hsettle, hcommand]

section Levels

variable {invocation : Invocation} {givesFormat : Bool} {before later after : List LongOption}
  (hshared : (before ++ later).Perm (invocation.options givesFormat))
  (hafter : after.Perm (later ++ invocation.command.options))

include hshared hafter

/-- Wherever the options stand, the two levels together settle what the invocation sets. -/
theorem given_perm_entries :
    (invocation.command.given after ++ before.map LongOption.entry).Perm
      (invocation.entries givesFormat) := by
  have hinner : (invocation.command.given after).Perm
      (invocation.command.given (later ++ invocation.command.options)) :=
    (hafter.map _).append_right _
  have hmoved : before.map LongOption.entry ++
      invocation.command.given (later ++ invocation.command.options) =
        (before ++ later).map LongOption.entry ++
          invocation.command.given invocation.command.options := by
    simp [Command.given]
  refine List.perm_append_comm.trans ((hinner.append_left _).trans ?_)
  rw [hmoved]
  exact (hshared.map _).append_right _

theorem nodup_given :
    ((invocation.command.given after ++ before.map LongOption.entry).map Prod.fst).Nodup :=
  ((given_perm_entries hshared hafter).map Prod.fst).nodup_iff.2
    (invocation.nodup_entries givesFormat)

theorem readable_before (hpaths : ∀ path ∈ invocation.paths, path ≠ []) :
    Readable .program [] before where
  allowed := fun _ hoption =>
    Invocation.shared_of_mem
      (List.mem_map_of_mem (hshared.subset (List.mem_append_left later hoption)))
  accepted := fun _ hoption => Invocation.accepts_options hpaths givesFormat
    (List.mem_append_left _ (hshared.subset (List.mem_append_left later hoption)))
  once := (nodup_given hshared hafter).sublist
    ((List.sublist_append_right _ _).map Prod.fst)

theorem readable_after (hpaths : ∀ path ∈ invocation.paths, path ≠ []) :
    Readable invocation.command.name.level [] after where
  allowed := fun option hoption => by
    rcases List.mem_append.1 (hafter.subset hoption) with hlater | hown
    · exact CommandName.shared_subset _ (Invocation.shared_of_mem
        (List.mem_map_of_mem (hshared.subset (List.mem_append_right before hlater))))
    · exact Command.allowed_options hown
  accepted := fun option hoption => by
    refine Invocation.accepts_options hpaths givesFormat ?_
    rcases List.mem_append.1 (hafter.subset hoption) with hlater | hown
    · exact List.mem_append_left _ (hshared.subset (List.mem_append_right before hlater))
    · exact List.mem_append_right _ hown
  once := (nodup_given hshared hafter).sublist
    ((List.sublist_append_left _ _ |>.trans (List.sublist_append_left _ _)).map Prod.fst)

/-- The two levels together give a setting the value that the invocation has for it. -/
theorem value_of_levels (setting : Setting) (value : Text) :
    ((invocation.command.given after).lookup setting).or
        ((before.map LongOption.entry).lookup setting) = some value ↔
      (setting, value) ∈ invocation.entries givesFormat := by
  rw [← List.lookup_append, lookup_eq_some_iff_mem (nodup_given hshared hafter),
    (given_perm_entries hshared hafter).mem_iff]

theorem read_command :
    invocation.command.name.command { given := invocation.command.given after } =
      .ok invocation.command := by
  refine Command.command_of_values fun setting hsetting value => ?_
  have hoptions : ∀ value, (setting, value) ∉
      (invocation.options givesFormat).map LongOption.entry := fun value hmem =>
    hsetting (Invocation.shared_of_mem hmem)
  have hbefore : (before.map LongOption.entry).lookup setting = none := by
    rw [List.lookup_eq_none_iff]
    rintro ⟨key, value⟩ hmem
    rw [bne_iff_ne]
    rintro rfl
    exact hoptions value ((hshared.map _).subset (by simp [List.mem_map.1 hmem]))
  have hvalue := value_of_levels hshared hafter setting value
  rw [hbefore, Option.or_none] at hvalue
  rw [Reader.value?, hvalue, Invocation.entries, List.mem_append, or_iff_right (hoptions value)]

theorem read_invocation (hformat : givesFormat = false → invocation.format = .text) :
    Invocation.ofReaders { given := before.map LongOption.entry }
      { given := invocation.command.given after } invocation.command = invocation := by
  refine Invocation.ofReaders_of_values hformat fun setting hsetting value => ?_
  have hown : (setting, value) ∉ invocation.command.given invocation.command.options :=
    fun hmem => Command.not_shared_of_mem hmem hsetting
  refine (value_of_levels hshared hafter setting value).trans ?_
  rw [Invocation.entries, List.mem_append, or_iff_left hown]

end Levels

/-- Reading a command line gives back the invocation that it was written from. -/
theorem invocation_read_back {invocation : Invocation}
    (hpaths : ∀ path ∈ invocation.paths, path ≠ []) :
    (∃ words, invocation.WrittenAs words) ∧
      ∀ words, invocation.WrittenAs words → parseArguments words = .ok invocation := by
  constructor
  · exact ⟨_, true, [], invocation.options true, _, by simp, .refl _, .refl _, rfl⟩
  · rintro words ⟨givesFormat, before, later, after, hformat, hshared, hafter, rfl⟩
    have hoperand : ∀ path ∈ invocation.command.operand?, path ≠ [] := fun path hpath =>
      hpaths path (Invocation.operand_mem_paths hpath)
    have hlevel := readLevel_program (readable_before hshared hafter hpaths) invocation.command
      (after.map LongOption.word ++
        (invocation.command.operand?.elim [] fun path => ["--".toList, path]))
    have hcommand := readCommand_options (readable_after hshared hafter hpaths) hoperand
      (read_command hshared hafter)
    have hinvocation := read_invocation hshared hafter hformat
    simp only [parseArguments, hlevel, bind, Except.bind, Command.ofText?_word, hcommand,
      Reader.settle, hinvocation]

/-- Paths that look like options, on a line with options on both sides of the command. -/
theorem invocation_read_back_dashes :
    let invocation : Invocation :=
      { config := some "-=ä".toList
        verbose := true
        format := .json
        command := .transform (some "--force".toList) (some "= --".toList) true false }
    let words : List Text :=
      ["--format=json".toList, "transform".toList, "--force".toList, "--verbose".toList,
        "--output== --".toList, "--config=-=ä".toList, "--".toList, "--force".toList]
    (∀ path ∈ invocation.paths, path ≠ []) ∧ invocation.WrittenAs words ∧
      parseArguments words = .ok invocation := by
  intro invocation words
  have hpaths : ∀ path ∈ invocation.paths, path ≠ [] := by decide
  have hwritten : invocation.WrittenAs words :=
    ⟨true, [.format .json], [.config "-=ä".toList, .verbose],
      [.force, .verbose, .output "= --".toList, .config "-=ä".toList], by decide, by decide,
      by decide, by decide⟩
  exact ⟨hpaths, hwritten, (invocation_read_back hpaths).2 words hwritten⟩

end AuroraMigration
