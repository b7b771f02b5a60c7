import AuroraMigration.Config
import AuroraMigration.Proofs.Lines
import AuroraMigration.Proofs.Pieces

/-!
# The path of a script

A path read as the list of its components: the root, the current directory where
a path starts with it, steps up, and names. The directory above a path is the
path without its last component, and joining a name to a directory adds one
component. What is added for the name of a script is that name itself unless the
name is one of the two that stand for directories, and settings are accepted
with either of them.
-/

namespace AuroraMigration

/-- A component of a path. -/
inductive Component where
  | root
  /-- The directory that the path is seen from, which only the start of a path names. -/
  | current
  | parent
  | name (text : Text)
  deriving DecidableEq, Repr

def Component.ofName (name : Text) : Component :=
  if name = "..".toList then .parent else .name name

namespace Path

/-- What the first segment says about where a path starts. -/
def leadOf : List Text → List Component
  | first :: rest =>
      if first = [] ∧ rest ≠ [] then [.root] else if first = ['.'] then [.current] else []
  | [] => []

def componentsOf (segments : List Text) : List Component :=
  leadOf segments ++ (segments.filter (!isIdle ·)).map Component.ofName

/-- The components of a path. Empty segments and dots inside it say nothing. -/
def components (path : Path) : List Component :=
  componentsOf (path.splitOn '/')

/-- The name that a path ends in, if it ends in one. -/
def fileName? (path : Path) : Option Text :=
  match path.components.getLast? with
  | some (.name text) => some text
  | _ => none

/-! ## Segments -/

theorem splitOn_join {segments : List Text} (hne : segments ≠ [])
    (h : ∀ segment ∈ segments, '/' ∉ segment) :
    (Text.join ['/'] segments).splitOn '/' = segments := by
  induction segments with
  | nil => exact absurd rfl hne
  | cons first rest ih =>
      have hfirst := List.splitOn_eq_singleton (h first List.mem_cons_self)
      by_cases hrest : rest = []
      · subst hrest
        exact hfirst
      · rw [Text.join_cons hrest, List.append_assoc, List.singleton_append,
          List.splitOn_append_cons_self, hfirst,
          ih hrest fun segment hmem => h segment (List.mem_cons_of_mem first hmem)]
        rfl

/-! ## The directory above -/

theorem filter_of_idle {segments : List Text} (h : ∀ segment ∈ segments, isIdle segment = true) :
    segments.filter (!isIdle ·) = [] :=
  List.filter_eq_nil_iff.2 fun segment hmem => by simp [h segment hmem]

theorem filter_dropTrailing (segments : List Text) :
    (dropTrailing isIdle segments).filter (!isIdle ·) = segments.filter (!isIdle ·) := by
  obtain ⟨tail, hsplit, htail⟩ := dropTrailing_split isIdle segments
  conv_rhs => rw [hsplit, List.filter_append, filter_of_idle htail, List.append_nil]

theorem componentsOf_cons (first : Text) (rest : List Text) :
    componentsOf (first :: rest) =
      leadOf (first :: rest) ++ (([first].filter (!isIdle ·)).map Component.ofName ++
        (rest.filter (!isIdle ·)).map Component.ofName) := by
  rw [componentsOf, ← List.map_append, ← List.filter_append]
  rfl

theorem leadOf_of_ne {first : Text} (h : first ≠ []) (rest rest' : List Text) :
    leadOf (first :: rest) = leadOf (first :: rest') := by
  simp [leadOf, h]

theorem leadOf_of_more (first : Text) {rest rest' : List Text} (h : rest ≠ []) (h' : rest' ≠ []) :
    leadOf (first :: rest) = leadOf (first :: rest') := by
  simp [leadOf, h, h']

theorem components_nil : components [] = [] := by decide

theorem components_join_segments {segments : List Text} (hne : segments ≠ [])
    (h : ∀ segment ∈ segments, '/' ∉ segment) :
    components (Text.join ['/'] segments) = componentsOf segments := by
  rw [components, splitOn_join hne h]

/-- The last segment that says something is the last component. -/
theorem componentsOf_last {rest : List Text} (h : dropTrailing isIdle rest ≠ []) (first : Text) :
    (componentsOf (first :: rest)).dropLast =
      leadOf (first :: rest) ++ (([first].filter (!isIdle ·)).map Component.ofName ++
        (((dropTrailing isIdle (dropTrailing isIdle rest).dropLast).filter
          (!isIdle ·)).map Component.ofName)) := by
  have hkept := filter_dropTrailing rest
  have hlast := List.dropLast_concat_getLast h
  have hname : isIdle ((dropTrailing isIdle rest).getLast h) = false :=
    dropTrailing_last (List.getLast?_eq_some_getLast h)
  rw [componentsOf_cons, ← hkept, ← hlast, List.filter_append, filter_dropTrailing]
  simp only [List.filter_cons, hname, Bool.not_false, if_true, List.filter_nil, List.map_append,
    List.map_cons, List.map_nil, ← List.append_assoc, List.dropLast_concat]

section

variable {path : Path} {first : Text} {rest : List Text}

theorem parent?_of_idle (h : path.splitOn '/' = first :: rest)
    (hidle : dropTrailing isIdle rest = []) :
    parent? path = if first.isEmpty then none else some [] := by
  simp only [parent?, h, hidle]

theorem parent?_of_names (h : path.splitOn '/' = first :: rest)
    (hnames : dropTrailing isIdle rest ≠ []) :
    ∃ above, parent? path = some above ∧ components above = (components path).dropLast := by
  have hslash : ∀ segment ∈ first :: rest, '/' ∉ segment := by
    intro segment hmem
    exact Text.not_mem_of_mem_splitOn (h ▸ hmem)
  have hrest : rest ≠ [] := by
    rintro rfl
    exact hnames rfl
  have hkept : ∀ segment ∈ dropTrailing isIdle (dropTrailing isIdle rest).dropLast,
      '/' ∉ segment := by
    intro segment hmem
    have hin := mem_of_mem_dropTrailing (List.dropLast_subset _ (mem_of_mem_dropTrailing hmem))
    exact hslash segment (List.mem_cons_of_mem first hin)
  rw [components, h, componentsOf_last hnames]
  obtain ⟨k, ks, hkeep⟩ := List.exists_cons_of_ne_nil hnames
  rw [hkeep] at hkept ⊢
  cases habove : dropTrailing isIdle (k :: ks).dropLast with
  | nil =>
      refine ⟨if first.isEmpty then ['/'] else first, by simp only [parent?, h, hkeep, habove], ?_⟩
      by_cases hfirst : first = []
      · have hlead : leadOf ([] :: rest) = [.root] := if_pos ⟨rfl, hrest⟩
        rw [hfirst, hlead]
        decide
      · have hsingle := List.splitOn_eq_singleton (hslash first List.mem_cons_self)
        rw [if_neg (by simpa using hfirst), components, hsingle, componentsOf_cons,
          leadOf_of_ne hfirst [] rest]
  | cons a as =>
      refine ⟨Text.join ['/'] (first :: a :: as), by simp only [parent?, h, hkeep, habove], ?_⟩
      have hsegments : ∀ segment ∈ first :: a :: as, '/' ∉ segment := by
        intro segment hmem
        rcases List.mem_cons.1 hmem with rfl | hmem
        · exact hslash segment List.mem_cons_self
        · exact hkept segment (habove ▸ hmem)
      rw [components_join_segments (by simp) hsegments, componentsOf_cons,
        leadOf_of_more first (List.cons_ne_nil a as) hrest]

end

/-- The directory above a path is the path without its last component, unless nothing is above. -/
theorem parent?_cases (path : Path) :
    (parent? path = none ∧ (components path = [] ∨ components path = [.root])) ∨
      ∃ above, parent? path = some above ∧ components above = (components path).dropLast := by
  obtain ⟨first, rest, h⟩ := List.exists_cons_of_ne_nil (List.splitOn_ne_nil '/' path)
  by_cases hidle : dropTrailing isIdle rest = []
  · have hcomponents : components path =
        leadOf (first :: rest) ++ ([first].filter (!isIdle ·)).map Component.ofName := by
      rw [components, h, componentsOf_cons, ← filter_dropTrailing rest, hidle]
      simp
    rw [parent?_of_idle h hidle, hcomponents]
    by_cases hfirst : first = []
    · refine .inl ⟨by simp [hfirst], ?_⟩
      by_cases hrest : rest = [] <;> simp [leadOf, hfirst, hrest, isIdle]
    · refine .inr ⟨[], by simp [hfirst], ?_⟩
      rw [components_nil]
      by_cases hdot : first = ['.']
      · simp [leadOf, hdot, isIdle]
      · simp [leadOf, hfirst, hdot, isIdle]
  · exact .inr (parent?_of_names h hidle)

/-! ## Joining a name -/

theorem isAbsolute_of_not_mem {name : Text} (h : '/' ∉ name) : isAbsolute name = false := by
  cases name with
  | nil => rfl
  | cons c rest =>
      have hc : c ≠ '/' := fun heq => h (heq ▸ List.mem_cons_self)
      simpa [isAbsolute] using hc

theorem componentsOf_concat (first : Text) (rest : List Text) (last : Text) :
    componentsOf (first :: (rest ++ [last])) =
      leadOf [first, last] ++ ((first :: rest).filter (!isIdle ·)).map Component.ofName ++
        ([last].filter (!isIdle ·)).map Component.ofName := by
  rw [componentsOf, ← List.cons_append, List.filter_append, List.map_append, List.append_assoc,
    List.cons_append, leadOf_of_more first (by simp) (List.cons_ne_nil last [])]

/-- A name behind a directory is one more segment. -/
theorem components_join {dir : Path} {name : Text} (hdir : dir ≠ []) (hslash : '/' ∉ name) :
    components (join dir name) =
      components dir ++ ([name].filter (!isIdle ·)).map Component.ofName := by
  have hrelative := isAbsolute_of_not_mem hslash
  have hname := List.splitOn_eq_singleton hslash
  unfold join components
  rw [if_neg (by simp [hrelative])]
  by_cases hend : dir.getLast? = some '/'
  · obtain ⟨front, rfl⟩ := List.getLast?_eq_some_iff.1 hend
    obtain ⟨first, rest, hfront⟩ := List.exists_cons_of_ne_nil (List.splitOn_ne_nil '/' front)
    have hempty : List.splitOn '/' ([] : Text) = [[]] := rfl
    rw [if_pos (by simp), List.append_assoc, List.singleton_append, List.splitOn_append_cons_self,
      List.splitOn_append_cons_self, hname, hempty, hfront, List.cons_append, List.cons_append,
      componentsOf_concat, componentsOf_concat,
      leadOf_of_more first (List.cons_ne_nil name []) (List.cons_ne_nil [] [])]
    simp [isIdle]
  · obtain ⟨first, rest, hsegments⟩ := List.exists_cons_of_ne_nil (List.splitOn_ne_nil '/' dir)
    have hlead : leadOf (first :: rest) = leadOf [first, name] := by
      by_cases hfirst : first = []
      · refine leadOf_of_more first ?_ (List.cons_ne_nil name [])
        rintro rfl
        have hback := Text.join_splitOn '/' dir
        rw [hsegments, hfirst] at hback
        exact hdir hback.symm
      · exact leadOf_of_ne hfirst rest [name]
    rw [if_neg (by simp [hdir, hend]), List.append_assoc, List.singleton_append,
      List.splitOn_append_cons_self, hname, hsegments, List.cons_append, componentsOf_concat,
      ← hlead]
    rfl

theorem components_join_name (dir : Path) {name : Text} (hslash : '/' ∉ name)
    (hidle : isIdle name = false) :
    components (join dir name) = components dir ++ [Component.ofName name] := by
  by_cases hdir : dir = []
  · have hne : name ≠ [] ∧ name ≠ ['.'] := by simpa [isIdle] using hidle
    have hjoin : join [] name = name := by simp [join]
    rw [hdir, hjoin, components_nil, components, List.splitOn_eq_singleton hslash, componentsOf]
    simp [leadOf, hne.1, hne.2, hidle]
  · rw [components_join hdir hslash]
    simp [hidle]

theorem components_join_dot {dir : Path} (hdir : dir ≠ []) :
    components (join dir ".".toList) = components dir := by
  rw [components_join hdir (by decide), filter_of_idle (by decide)]
  simp

/-! ## Entries of directories -/

/-- A path that leads to the entry of this name in a directory. -/
structure EntryOf (dir : Path) (name : Text) (path : Path) : Prop where
  components : path.components = dir.components ++ [.name name]
  fileName : path.fileName? = some name
  parent : ∃ above, path.parent? = some above ∧ above.components = dir.components
  below : ¬ path.components <+: dir.components

theorem entryOf_of_components {dir path : Path} {name : Text}
    (h : path.components = dir.components ++ [.name name]) : EntryOf dir name path where
  components := h
  fileName := by simp [fileName?, h]
  parent := by
    obtain ⟨-, hnil | hroot⟩ | ⟨above, habove, hcomponents⟩ := parent?_cases path
    · simp [h] at hnil
    · rw [h, List.append_eq_singleton_iff] at hroot
      simp at hroot
    · exact ⟨above, habove, by rw [hcomponents, h, List.dropLast_concat]⟩
  below := by
    intro hprefix
    have hlength := hprefix.length_le
    rw [h, List.length_append, List.length_singleton] at hlength
    omega

end Path

/-- What is accepted as the name of a script has no slash and is not empty. -/
theorem Config.outputFile_of_accepted {config : Config} (h : config.error? = none) :
    config.outputFile ≠ [] ∧ '/' ∉ config.outputFile := by
  unfold Config.error? at h
  split at h
  · cases h
  split at h
  · cases h
  rename_i hfilled
  split at h
  · cases h
  rename_i hplain
  constructor
  · intro hnil
    rw [hnil] at hfilled
    exact hfilled rfl
  · intro hslash
    simp [hslash] at hplain

/--
The script that accepted settings ask for is an entry of their directory exactly
if it is not named like a directory: one dot leads to that directory itself and
two dots lead above it.
-/
theorem script_path_is_entry_iff {config : Config} {dir : Path} (hvalid : config.error? = none)
    (hdir : config.outputDir = some dir) :
    ∃ path, config.outputPath? = some path ∧
      (Path.EntryOf dir config.outputFile path ↔
        config.outputFile ≠ ".".toList ∧ config.outputFile ≠ "..".toList) ∧
      (config.outputFile = ".".toList → dir ≠ [] → path.components = dir.components) ∧
      (config.outputFile = "..".toList → path.components = dir.components ++ [.parent]) := by
  obtain ⟨hfilled, hslash⟩ := Config.outputFile_of_accepted hvalid
  refine ⟨Path.join dir config.outputFile, by simp [Config.outputPath?, hdir], ?_⟩
  generalize config.outputFile = name at hfilled hslash
  have hcomponents : name ≠ ".".toList →
      (Path.join dir name).components = dir.components ++ [Component.ofName name] := by
    intro hdot
    exact Path.components_join_name dir hslash (by simpa [Path.isIdle, hfilled] using hdot)
  refine ⟨⟨fun hentry => ⟨?_, ?_⟩, fun hname => ?_⟩, ?_, ?_⟩
  · rintro rfl
    by_cases hempty : dir = []
    · rw [hempty] at hentry
      exact absurd hentry.fileName (by decide)
    · have hsame := Path.components_join_dot hempty
      exact hentry.below (hsame ▸ List.prefix_rfl)
  · rintro rfl
    have hlast := hentry.components
    rw [hcomponents (by decide), List.append_cancel_left_eq] at hlast
    exact absurd hlast (by decide)
  · apply Path.entryOf_of_components
    rw [hcomponents hname.1, Component.ofName, if_neg hname.2]
  · rintro rfl hempty
    exact Path.components_join_dot hempty
  · rintro rfl
    exact hcomponents (by decide)

theorem script_path_is_entry_iff_dots :
    let config : Config := { outputDir := some "../out/".toList, outputFile := "...".toList }
    config.error? = none ∧ config.outputPath? = some "../out/...".toList ∧
      Path.EntryOf "../out/".toList "...".toList "../out/...".toList := by
  have hvalid : ({ outputDir := some "../out/".toList, outputFile := "...".toList } :
    Config).error? = none := by decide
  obtain ⟨path, hpath, hentry, -⟩ := script_path_is_entry_iff hvalid rfl
  obtain rfl := Option.some.inj hpath
  exact ⟨hvalid, rfl, hentry.2 (by decide)⟩

/-- Settings whose script would lie above its directory are accepted. -/
theorem script_path_above_directory :
    let config : Config := { outputDir := some "out".toList, outputFile := "..".toList }
    config.error? = none ∧ config.outputPath? = some "out/..".toList ∧
      ¬ Path.EntryOf "out".toList "..".toList "out/..".toList := by
  refine ⟨by decide, by decide, fun hentry => ?_⟩
  exact absurd hentry.fileName (by decide)

end AuroraMigration
