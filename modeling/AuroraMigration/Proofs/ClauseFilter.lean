import AuroraMigration.Proofs.Adaptation

/-!
# What is left of an altered table

Which clauses stay is said here once more without a loop over names. A statement
is taken out whole exactly when no clause stays, and reading what is emitted for
it gives the same table and just the clauses that stay, in their order. Nothing
is asked of the end of the body: its last clause may be left open.
-/

namespace AuroraMigration

/-! ## The clauses that stay -/

/-- Whether some clause of the statement drops the constraint of this name. -/
def AlterTable.Drops (alter : AlterTable) (name : ConstraintName) : Prop :=
  ∃ clause ∈ alter.clauses, ∃ dropped, clause.kind = .dropConstraint dropped ∧
    dropped.normal = name.normal

/--
Whether a clause is left in the statement.

It drops no constraint, adds no foreign key, and adds no constraint that
another clause drops.
-/
structure AlterTable.Stays (alter : AlterTable) (clause : Clause) : Prop where
  dropsNone : ∀ name, clause.kind ≠ .dropConstraint name
  addsNoKey : ∀ name, clause.kind ≠ .addForeignKey name
  unpaired : ∀ name, clause.kind = .addConstraint name → ¬alter.Drops name

theorem mem_droppedNames {alter : AlterTable} {name : ConstraintName} :
    name.normal ∈ alter.droppedNames ↔ alter.Drops name := by
  unfold AlterTable.droppedNames AlterTable.Drops
  rw [List.mem_filterMap]
  constructor
  · rintro ⟨clause, hclause, hname⟩
    split at hname
    · rename_i dropped hkind
      exact ⟨clause, hclause, dropped, hkind, Option.some.inj hname⟩
    · cases hname
  · rintro ⟨clause, hclause, dropped, hkind, hname⟩
    exact ⟨clause, hclause, by rw [hkind, ← hname]⟩

theorem survives_iff (alter : AlterTable) (clause : Clause) :
    alter.survives clause = true ↔ alter.Stays clause := by
  unfold AlterTable.survives
  cases hkind : clause.kind with
  | dropConstraint name =>
      exact ⟨by simp, fun h => absurd hkind (h.dropsNone name)⟩
  | addForeignKey name =>
      exact ⟨by simp, fun h => absurd hkind (h.addsNoKey name)⟩
  | addConstraint name =>
      have hpaired : (!alter.droppedNames.contains name.normal) = true ↔ ¬alter.Drops name := by
        rw [← mem_droppedNames]
        simp
      rw [hpaired]
      constructor
      · intro h
        refine ⟨by simp [hkind], by simp [hkind], ?_⟩
        intro name' hname'
        rw [hkind, ClauseKind.addConstraint.injEq] at hname'
        exact hname' ▸ h
      · exact fun h => h.unpaired name hkind
  | addColumn => exact ⟨fun _ => ⟨by simp [hkind], by simp [hkind], by simp [hkind]⟩, fun _ => rfl⟩
  | other => exact ⟨fun _ => ⟨by simp [hkind], by simp [hkind], by simp [hkind]⟩, fun _ => rfl⟩

instance (alter : AlterTable) (clause : Clause) : Decidable (alter.Stays clause) :=
  decidable_of_iff _ (survives_iff alter clause)

theorem survivors_eq (alter : AlterTable) :
    alter.survivors = alter.clauses.filter (alter.Stays ·) := by
  apply List.filter_congr
  intro clause _
  rw [Bool.eq_iff_iff, survives_iff, decide_eq_true_iff]

theorem mem_survivors {alter : AlterTable} {clause : Clause} :
    clause ∈ alter.survivors ↔ clause ∈ alter.clauses ∧ alter.Stays clause := by
  rw [AlterTable.survivors, List.mem_filter, survives_iff]

theorem survivors_eq_nil_iff (alter : AlterTable) :
    alter.survivors = [] ↔ ∀ clause ∈ alter.clauses, ¬alter.Stays clause := by
  rw [List.eq_nil_iff_forall_not_mem]
  simp only [mem_survivors, not_and]

theorem losesClauses_iff (alter : AlterTable) :
    alter.LosesClauses ↔
      alter.survivors ≠ [] ∧ ¬∀ clause ∈ alter.clauses, alter.Stays clause := by
  unfold AlterTable.LosesClauses AlterTable.survivors
  rw [ne_eq (List.length _), List.length_filter_eq_length_iff]
  simp only [survives_iff]

theorem remaining?_eq_none_iff (alter : AlterTable) (body : Text) :
    alter.remaining? body = none ↔ alter.survivors = [] := by
  simp only [AlterTable.remaining?, List.isEmpty_iff]
  split
  · simpa
  · split <;> simpa

theorem adaptation_eq_none_iff {body : Text} {alter : AlterTable}
    (hkind : StatementKind.ofBody body = .alterTable alter) :
    (Adaptation.ofBody body).body = none ↔ alter.survivors = [] := by
  simp only [Adaptation.ofBody, hkind, remaining?_eq_none_iff]

/-! ## What is emitted, read again -/

/-- A clause without the comments at its end. -/
def Clause.trimmed (clause : Clause) : Clause :=
  { clause with text := trimComments clause.text }

namespace AlterAt

variable {body : Text} {alter : AlterTable} {a t : Token} {before : List Token} {part : Token}
  {after : List Token} {start : Nat} {hs ys : List Step}

theorem map_trimmed (h : AlterAt body alter a t before part after start hs ys)
    {kept : List Clause} (hkept : kept.Sublist alter.clauses) :
    (kept.map fun clause => trimComments clause.text).map Clause.ofText =
      kept.map Clause.trimmed := by
  rw [List.map_map]
  apply List.map_congr_left
  intro clause hclause
  have hof := (h.clauseText (hkept.subset hclause)).1
  rw [Function.comp_apply, ofText_trimComments, ← hof]
  rfl

theorem core_of_tokens (h : AlterAt body alter a t before part after start hs ys) {clause : Clause}
    (hclause : clause ∈ alter.clauses) (htokens : tokenize clause.text ≠ []) :
    ClauseCore (trimComments clause.text) ∧ trimComments clause.text ≠ [] := by
  refine ⟨(h.clauseText hclause).2.core, fun hnil => ?_⟩
  have hlex := lexemes_trimComments clause.text
  rw [hnil, ← tokenize_lexemes clause.text] at hlex
  exact htokens (List.map_eq_nil_iff.1 hlex.symm)

/-- Some clauses of a statement, written again behind its head, are read as the same table with
just these clauses. -/
theorem clauses_read_back (h : AlterAt body alter a t before part after start hs ys)
    {kept : List Clause} (hkept : kept.Sublist alter.clauses) (hne : kept ≠ [])
    (htokens : ∀ clause ∈ kept, tokenize clause.text ≠ [])
    (hends : ∀ clause ∈ kept, EndsName (tokenize clause.text)) :
    StatementKind.ofBody (stepsText hs ++ ([' '] ++ Text.join ",\n".toList
        (kept.map fun clause => trimComments clause.text))) =
      .alterTable { alter with clauses := kept.map Clause.trimmed } := by
  have hblank : ∀ c ∈ ([' '] : Text), isBlank c = true := List.all_eq_true.1 (by decide)
  have hcores : ∀ core ∈ kept.map (fun clause => trimComments clause.text),
      ClauseCore core ∧ core ≠ [] := by
    intro core hcore
    obtain ⟨clause, hclause, rfl⟩ := List.mem_map.1 hcore
    exact h.core_of_tokens (hkept.subset hclause) (htokens clause hclause)
  have hname : ∀ {rs : List Step}, lexemes rs =
      lexemes (clauseSteps (kept.map fun clause => trimComments clause.text)) →
      EndsName (tokensFrom part.stop rs) :=
    fun hrs => endsName_clauseSteps hrs part.stop hends
  have hclosed := h.clauses_closed hkept
  have hmap := h.map_trimmed hkept
  have hsome : kept.map (fun clause => trimComments clause.text) ≠ [] := by simpa using hne
  generalize kept.map (fun clause => trimComments clause.text) = cores at *
  have hparts := commaParts_join hblank hsome hcores hclosed
  have hscan : scan ([' '] ++ Text.join ",\n".toList cores) =
      ([' '] : Text).map (codeStep 0) ++ clauseSteps cores := by
    rw [(skipped_blank hblank).scan_append, scan_join hclosed]
  have htrace := trace_scan ([' '] ++ Text.join ",\n".toList cores)
  have htext := stepsText_scan ([' '] ++ Text.join ",\n".toList cores)
  rw [hscan] at htrace htext
  have hboundary : Boundary (stepsText (([' '] : Text).map (codeStep 0) ++ clauseSteps cores)) :=
    (boundary_cons ' ' _).2 (by decide)
  have hparted : Parted hs (([' '] : Text).map (codeStep 0) ++ clauseSteps cores) := by
    apply parted_of_right
    intro y hy
    rw [← Option.some.inj hy]
    decide
  have hagain := h.ofBody_again htrace hboundary hparted
    (hname (lexemes_inert_append (skipped_blank hblank).inert _))
  rw [htext, hparts, if_neg hsome, hmap] at hagain
  exact hagain

/-- A statement that has lost clauses is read as the same table with the clauses it has left. -/
theorem rewritten_read_back (h : AlterAt body alter a t before part after start hs ys)
    (hne : alter.survivors ≠ []) (htokens : ∀ clause ∈ alter.survivors, tokenize clause.text ≠ [])
    (hends : ∀ clause ∈ alter.survivors, EndsName (tokenize clause.text)) :
    StatementKind.ofBody (rewritten alter) =
      .alterTable { alter with clauses := alter.survivors.map Clause.trimmed } := by
  rw [h.rewritten_eq]
  exact h.clauses_read_back List.filter_sublist hne htokens hends

end AlterAt

/--
The clauses of an altered table are filtered exactly, also when read back.

The statement is taken out just when no clause stays. Otherwise what is emitted
is a statement of the same head about the same table with the clauses that stay,
without the comments at their ends; it is the body itself if all clauses stay.
-/
theorem filtered_clauses_read_back {body : Text} {alter : AlterTable}
    (hkind : StatementKind.ofBody body = .alterTable alter)
    (htokens : ∀ clause ∈ alter.clauses, tokenize clause.text ≠ [])
    (hends : ∀ clause ∈ alter.clauses, alter.Stays clause → EndsName (tokenize clause.text)) :
    ((Adaptation.ofBody body).body = none ↔ ∀ clause ∈ alter.clauses, ¬alter.Stays clause) ∧
      ∀ out, (Adaptation.ofBody body).body = some out →
        ∃ read, StatementKind.ofBody out = .alterTable read ∧ read.table = alter.table ∧
          read.head = alter.head ∧
          if ∀ clause ∈ alter.clauses, alter.Stays clause then
            out = body ∧ read.clauses = alter.clauses
          else read.clauses = (alter.clauses.filter (alter.Stays ·)).map Clause.trimmed := by
  refine ⟨by rw [adaptation_eq_none_iff hkind, survivors_eq_nil_iff], ?_⟩
  intro out hout
  split
  · rename_i hall
    have hruns : ∀ clause ∈ alter.clauses, clause.kind.runs = true := fun clause hclause =>
      runs_of_survives ((survives_iff alter clause).2 (hall clause hclause))
    rw [adaptation_of_runs hkind hruns] at hout
    obtain rfl := Option.some.inj hout
    exact ⟨alter, hkind, rfl, rfl, rfl, rfl⟩
  · rename_i hall
    have hne : alter.survivors ≠ [] := by
      intro hnil
      rw [(adaptation_eq_none_iff hkind).2 hnil] at hout
      cases hout
    rw [adaptation_of_losesClauses hkind ((losesClauses_iff alter).2 ⟨hne, hall⟩)] at hout
    obtain rfl := Option.some.inj hout
    obtain ⟨a, t, before, part, after, start, hs, ys, hat⟩ := alterAt_of_ofBody hkind
    refine ⟨_, hat.rewritten_read_back hne ?_ ?_, rfl, rfl, by rw [survivors_eq]⟩
    · exact fun clause hclause => htokens clause (mem_survivors.1 hclause).1
    · intro clause hclause
      obtain ⟨hmem, hstays⟩ := mem_survivors.1 hclause
      exact hends clause hmem hstays

theorem filtered_clauses_read_back_paired :
    ∃ out read,
      (Adaptation.ofBody ("ALTER TABLE s.t DROP CONSTRAINT K, ADD c INT -- a, (\n," ++
        "ADD CONSTRAINT \"k\" CHECK (c), ADD CHECK ('e, f'").toList).body = some out ∧
      StatementKind.ofBody out = .alterTable read ∧ read.table = "s.t".toList ∧
      read.head = "ALTER TABLE s.t".toList ∧
      read.clauses = ["ADD c INT".toList, "ADD CHECK ('e, f'".toList].map Clause.ofText := by
  have hkind : StatementKind.ofBody ("ALTER TABLE s.t DROP CONSTRAINT K, ADD c INT -- a, (\n," ++
      "ADD CONSTRAINT \"k\" CHECK (c), ADD CHECK ('e, f'").toList =
      .alterTable
        { table := "s.t".toList
          head := "ALTER TABLE s.t".toList
          clauses := ["DROP CONSTRAINT K".toList, "ADD c INT -- a, (".toList,
            "ADD CONSTRAINT \"k\" CHECK (c)".toList, "ADD CHECK ('e, f'".toList].map
              Clause.ofText } := by
    decide +kernel
  have hout : (Adaptation.ofBody ("ALTER TABLE s.t DROP CONSTRAINT K, ADD c INT -- a, (\n," ++
      "ADD CONSTRAINT \"k\" CHECK (c), ADD CHECK ('e, f'").toList).body =
      some "ALTER TABLE s.t ADD c INT,\nADD CHECK ('e, f'".toList := by
    simp only [Adaptation.ofBody, hkind]
    decide +kernel
  obtain ⟨read, hread, htable, hhead, hclauses⟩ :=
    (filtered_clauses_read_back hkind (by decide +kernel) (by decide +kernel)).2 _ hout
  rw [if_neg (by decide +kernel)] at hclauses
  exact ⟨_, read, hout, hread, htable, hhead, hclauses.trans (by decide +kernel)⟩

end AuroraMigration
