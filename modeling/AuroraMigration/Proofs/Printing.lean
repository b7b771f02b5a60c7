import AuroraMigration.Proofs.Files
import AuroraMigration.Proofs.Transactions

/-!
# Scripts on standard output

A script that is printed loses the white space at its end and gets a line feed,
unless nothing is left of it; a script that is saved is stored as it is. Both
are the same text, because every script is empty or ends in exactly one line
feed. So the same migration gives the same bytes wherever its script goes.
-/

namespace AuroraMigration

/-- What standard output shows of a result. -/
def shown (result : Text) : Text :=
  if result.isEmpty then [] else result ++ ['\n']

theorem stdout_of_ok (printed : Printed) :
    (Outcome.of (.ok printed)).stdout = shown printed.result := rfl

theorem shown_compose (blocks : List Block) (options : ScriptOptions) :
    shown (Text.trimEnd (compose blocks options)) = compose blocks options := by
  simp only [compose]
  generalize hjoin : Text.join "\n\n".toList _ = joined
  by_cases hempty : (Text.trimEnd joined).isEmpty = true
  · rw [if_pos hempty]
    rfl
  · have hfeed : ∀ c ∈ ['\n'], isBlank c = true := List.forall_mem_singleton.2 (by decide)
    rw [if_neg hempty, Text.trimEnd_append_of_blank _ hfeed, Text.trimEnd_trimEnd, shown,
      if_neg hempty]

theorem compose_eq_nil_iff (blocks : List Block) (options : ScriptOptions) :
    compose blocks options = [] ↔ blocks = [] := by
  constructor
  · intro h
    by_contra hne
    simp [compose_eq hne] at h
  · rintro rfl
    exact compose_nil options

theorem transform_sql_eq_nil_iff (sql : Text) (options : ScriptOptions) :
    (Migration.transform sql options).sql = [] ↔
      (Migration.transform sql options).stats.statements = 0 := by
  rw [transform_sql, transform_statements, compose_eq_nil_iff, List.length_eq_zero_iff]

/-! ## Runs -/

/-- A run of `transform` in text format, with the migration and the settings that it reads. -/
structure TransformRun (tree : FileTree) (around : Surroundings) (words : List Text) where
  invocation : Invocation
  input : Option Path
  output : Option Path
  force : Bool
  noHeader : Bool
  sql : Text
  config : Config
  parsed : parseArguments words = .ok invocation
  command : invocation.command = .transform input output force noHeader
  format : invocation.format = .text
  reads : readMigration around tree.readText input = .ok sql
  settings : loadConfig tree.readText around.project invocation.config = .ok config

namespace TransformRun

variable {tree : FileTree} {around : Surroundings} {words : List Text}

/-- How the script is written: with which header, at what time, and whether at all cost. -/
def options (job : TransformRun tree around words) : ScriptOptions :=
  scriptOptions job.config job.force job.noHeader around.now

/-- Where the script goes, if not to standard output. -/
def path? (job : TransformRun tree around words) : Option Path :=
  scriptPath? around.project job.config job.output

/-- What becomes of the migration. -/
def result (job : TransformRun tree around words) : Migration :=
  Migration.transform job.sql job.options

theorem plan_eq (job : TransformRun tree around words) :
    plan around tree.readText job.invocation =
      planScript job.result job.options (around.color && !job.invocation.noColor) .text
        job.path? := by
  simp only [plan, job.command, planTransform, job.reads, job.settings, job.format]
  rfl

theorem run_eq (job : TransformRun tree around words) :
    run tree around words =
      ((carryOut tree (plan around tree.readText job.invocation)).1,
        .ok (carryOut tree (plan around tree.readText job.invocation)).2) := by
  simp only [run, job.parsed]

/-- A script that is saved is in its file, and nothing kept it from being written. -/
theorem saved (job : TransformRun tree around words) {path : Path} (hpath : job.path? = some path)
    (hok : exitCode (run tree around words).2 = 0) :
    (job.result.hasUnsupported && !job.options.force) = false ∧
      (run tree around words).1.find path = .ok (.file (encodeText job.result.sql)) := by
  rw [job.run_eq] at hok ⊢
  obtain ⟨hone, -⟩ | ⟨-, plan, hplan, hdone⟩ :=
    carryOut_cases tree (AuroraMigration.plan around tree.readText job.invocation)
  · rw [exitCode, hone] at hok
    cases hok
  · rw [job.plan_eq, hpath] at hplan
    simp only [planScript] at hplan
    split at hplan
    · cases hplan
    · rename_i hforced
      cases hplan
      exact ⟨by simpa using hforced, FileTree.readText_ok_iff.1 hdone.holds⟩

/-- A script that is not saved is printed as it is. -/
theorem printed (job : TransformRun tree around words) (hpath : job.path? = none)
    (hforced : (job.result.hasUnsupported && !job.options.force) = false) :
    ∃ outcome, (run tree around words).2 = .ok outcome ∧ outcome.exitCode = 0 ∧
      outcome.stdout = job.result.sql := by
  obtain ⟨warning, hplan⟩ : ∃ warning, plan around tree.readText job.invocation =
      .ok (.print { result := Text.trimEnd job.result.sql, warning }) := by
    simp only [job.plan_eq, hpath, planScript, hforced, Bool.false_eq_true, if_false]
    exact ⟨_, rfl⟩
  refine ⟨.of (.ok { result := Text.trimEnd job.result.sql, warning }), ?_, rfl, ?_⟩
  · rw [job.run_eq, hplan]
    rfl
  · rw [stdout_of_ok, result, transform_sql]
    exact shown_compose _ _

end TransformRun

/--
A script that is saved has the bytes that are printed where no path is asked for,
if the migration and the options are the same. Nothing is printed exactly if no
statement is left.
-/
theorem printed_as_saved {tree tree' : FileTree} {around around' : Surroundings}
    {words words' : List Text} (printing : TransformRun tree around words)
    (saving : TransformRun tree' around' words') (hsql : printing.sql = saving.sql)
    (hoptions : printing.options = saving.options) (hprint : printing.path? = none) {path : Path}
    (hsave : saving.path? = some path) (hok : exitCode (run tree' around' words').2 = 0) :
    ∃ outcome, (run tree around words).2 = .ok outcome ∧ outcome.exitCode = 0 ∧
      (run tree' around' words').1.find path = .ok (.file (encodeText outcome.stdout)) ∧
      (outcome.stdout = [] ↔ printing.result.stats.statements = 0) := by
  have hresult : saving.result = printing.result := by
    rw [TransformRun.result, TransformRun.result, hsql, hoptions]
  obtain ⟨hforced, hfile⟩ := saving.saved hsave hok
  rw [hresult] at hforced hfile
  rw [← hoptions] at hforced
  obtain ⟨outcome, hrun, hcode, hstdout⟩ := printing.printed hprint hforced
  refine ⟨outcome, hrun, hcode, ?_, ?_⟩
  · rw [hfile, hstdout]
  · rw [hstdout]
    exact transform_sql_eq_nil_iff _ _

/-- A string that is left open keeps its blanks on both ways. -/
theorem printed_as_saved_open_string :
    let around : Surroundings :=
      { project := "/p".toList, color := false, now := ⟨0, 0⟩
        input := encodeText "DELETE FROM t;\nSELECT 'a \n".toList }
    let tree : FileTree := { directories := [["p".toList]] }
    let words := ["transform"].map String.toList
    let saving := ["transform", "-o", "d/s.sql"].map String.toList
    ∃ outcome, (run tree around words).2 = .ok outcome ∧ outcome.exitCode = 0 ∧
      (run tree around saving).1.find "/p/d/s.sql".toList =
        .ok (.file (encodeText outcome.stdout)) ∧ outcome.stdout ≠ [] := by
  intro around tree words saving
  let printing : TransformRun tree around words :=
    { invocation := { command := .transform none none false false }
      input := none
      output := none
      force := false
      noHeader := false
      sql := "DELETE FROM t;\nSELECT 'a \n".toList
      config := {}
      parsed := by decide +kernel
      command := rfl
      format := rfl
      reads := by decide +kernel
      settings := by decide +kernel }
  let storing : TransformRun tree around saving :=
    { printing with
      invocation := { command := .transform none (some "d/s.sql".toList) false false }
      output := some "d/s.sql".toList
      parsed := by decide +kernel
      command := rfl
      format := rfl }
  have hok : exitCode (run tree around saving).2 = 0 := by decide +kernel
  have hpath : storing.path? = some "/p/d/s.sql".toList := by decide +kernel
  obtain ⟨outcome, hrun, hcode, hfile, hempty⟩ :=
    printed_as_saved printing storing rfl rfl rfl hpath hok
  refine ⟨outcome, hrun, hcode, hfile, ?_⟩
  rw [ne_eq, hempty]
  decide +kernel

end AuroraMigration
