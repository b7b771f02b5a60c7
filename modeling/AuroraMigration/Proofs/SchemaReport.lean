import AuroraMigration.Proofs.Lines
import AuroraMigration.Proofs.Pattern
import AuroraMigration.Schema.Check
import Mathlib.Data.List.Basic

/-!
# The issues of a schema, line by line

What is reported about one line of a schema: one issue for each rule that the
line matches, in the order of the table of rules, and behind them the missing
relation mode, if the line is the first with a relation and no line sets the
mode. A comment has no issues. The report on a schema is these lists one after
the other, and the ends of the lines do not show in it.

The missing relation mode is found last and moved to its line by a stable sort.
-/

namespace AuroraMigration

section StableSort

open List

variable {α : Type} (key : α → Nat)

theorem key_le_trans (a b c : α) :
    decide (key a ≤ key b) = true → decide (key b ≤ key c) = true →
      decide (key a ≤ key c) = true := by
  simpa only [decide_eq_true_eq] using Nat.le_trans

theorem key_le_total (a b : α) : (decide (key a ≤ key b) || decide (key b ≤ key a)) = true := by
  simpa only [Bool.or_eq_true, decide_eq_true_eq] using Nat.le_total (key a) (key b)

theorem pairwise_mergeSort_key (l : List α) :
    (l.mergeSort fun a b => key a ≤ key b).Pairwise (key · ≤ key ·) := by
  have hsorted := List.pairwise_mergeSort (key_le_trans key) (key_le_total key) l
  simpa only [decide_eq_true_eq] using hsorted

/-- Sorting by a key keeps the order of the members with one key. -/
theorem filter_mergeSort (l : List α) (k : Nat) :
    (l.mergeSort fun a b => key a ≤ key b).filter (key · = k) = l.filter (key · = k) := by
  have hsame : (l.filter (key · = k)).Pairwise fun a b => decide (key a ≤ key b) = true := by
    rw [List.pairwise_filter]
    exact List.pairwise_of_forall fun a b ha hb => by simp_all
  have hkept : l.filter (key · = k) <+ l.mergeSort fun a b => key a ≤ key b :=
    List.sublist_mergeSort (key_le_trans key) (key_le_total key) hsame List.filter_sublist
  have hsublist := hkept.filter (key · = k)
  rw [List.filter_filter] at hsublist
  simp only [Bool.and_self] at hsublist
  have hperm := (List.mergeSort_perm l fun a b => decide (key a ≤ key b)).filter (key · = k)
  exact (hsublist.eq_of_length hperm.length_eq.symm).symm

variable {key}

/-- Two sorted lists are equal if they have the same members of each key in the same order. -/
theorem eq_of_sorted_of_filter {l l' : List α} (hl : l.Pairwise (key · ≤ key ·))
    (hl' : l'.Pairwise (key · ≤ key ·))
    (h : ∀ k, l.filter (key · = k) = l'.filter (key · = k)) : l = l' := by
  induction l generalizing l' with
  | nil =>
      cases l' with
      | nil => rfl
      | cons b l' => simpa using h (key b)
  | cons a l ih =>
      cases l' with
      | nil => simpa using h (key a)
      | cons b l' =>
          have hmem : ∀ x, x ∈ a :: l ↔ x ∈ b :: l' := by
            intro x
            have hx := congrArg (x ∈ ·) (h (key x))
            simpa only [List.mem_filter, decide_true, and_true, eq_iff_iff] using hx
          have hkey : key a = key b := by
            have hle := List.pairwise_cons.1 hl
            have hle' := List.pairwise_cons.1 hl'
            have ha := (hmem a).1 List.mem_cons_self
            have hb := (hmem b).2 List.mem_cons_self
            grind
          have hhead := h (key a)
          simp only [List.filter_cons, hkey, decide_true, if_true, List.cons.injEq] at hhead
          obtain ⟨rfl, -⟩ := hhead
          rw [ih (List.pairwise_cons.1 hl).2 (List.pairwise_cons.1 hl').2 fun k => ?_]
          have htail := h k
          simp only [List.filter_cons] at htail
          split at htail
          · exact (List.cons.inj htail).2
          · exact htail

variable {β : Type} {place : β → Nat} {f g : β → List α}

theorem filter_flatMap_key (hf : ∀ y, ∀ x ∈ f y, key x = place y) (l : List β) (k : Nat) :
    (l.flatMap f).filter (key · = k) = (l.filter (place · = k)).flatMap f := by
  induction l with
  | nil => rfl
  | cons y l ih =>
      rw [List.flatMap_cons, List.filter_append, ih]
      by_cases hy : place y = k
      · have hall : (f y).filter (key · = k) = f y := by
          rw [List.filter_eq_self]
          exact fun x hx => by simp [hf y x hx, hy]
        simp [hall, hy]
      · have hnone : (f y).filter (key · = k) = [] := by
          rw [List.filter_eq_nil_iff]
          exact fun x hx => by simp [hf y x hx, hy]
        simp [hnone, hy]

theorem pairwise_flatMap_key {l : List β} (hl : l.Pairwise (place · < place ·))
    (hf : ∀ y, ∀ x ∈ f y, key x = place y) : (l.flatMap f).Pairwise (key · ≤ key ·) := by
  refine List.pairwise_flatMap.2 ⟨fun y _ => ?_, hl.imp fun hlt x hx x' hx' => ?_⟩
  · refine List.pairwise_iff_forall_sublist.2 fun {x x'} hsub => ?_
    rw [hf y x (hsub.subset (by simp)), hf y x' (hsub.subset (by simp))]
  · rw [hf _ x hx, hf _ x' hx']
    exact hlt.le

/-- Sorting puts what was made for the same place together, the first list before the second. -/
theorem mergeSort_flatMap_append {l : List β} (hl : l.Pairwise (place · < place ·))
    (hf : ∀ y, ∀ x ∈ f y, key x = place y) (hg : ∀ y, ∀ x ∈ g y, key x = place y) :
    (l.flatMap f ++ l.flatMap g).mergeSort (fun a b => key a ≤ key b) =
      l.flatMap fun y => f y ++ g y := by
  have hfg : ∀ y, ∀ x ∈ f y ++ g y, key x = place y :=
    fun y x hx => (List.mem_append.1 hx).elim (hf y x) (hg y x)
  refine eq_of_sorted_of_filter (pairwise_mergeSort_key key _) (pairwise_flatMap_key hl hfg)
    fun k => ?_
  rw [filter_mergeSort, List.filter_append, filter_flatMap_key hf, filter_flatMap_key hg,
    filter_flatMap_key hfg]
  have hone := hl.filter (place · = k)
  have hplace : ∀ y ∈ l.filter (place · = k), place y = k :=
    fun y hy => by simpa using (List.mem_filter.1 hy).2
  match l.filter (place · = k), hone, hplace with
  | [], _, _ => rfl
  | [y], _, _ => simp
  | y :: z :: _, hone, hplace =>
      have hlt := (List.pairwise_cons.1 hone).1 z List.mem_cons_self
      have hy := hplace y (by simp)
      have hz := hplace z (by simp)
      omega

end StableSort

/-- The line is a comment, blanks before it aside. -/
def IsComment (line : Text) : Prop :=
  ∃ blanks rest, line = blanks ++ '/' :: '/' :: rest ∧ ∀ c ∈ blanks, isBlank c = true

theorem isCommentLine_iff (line : Text) : isCommentLine line = true ↔ IsComment line := by
  rw [isCommentLine, List.isPrefixOf_iff_prefix]
  constructor
  · rintro ⟨rest, hrest⟩
    refine ⟨line.takeWhile isBlank, rest, ?_, fun c hc => List.mem_takeWhile_imp hc⟩
    calc line
        = line.takeWhile isBlank ++ Text.trimStart line := List.takeWhile_append_dropWhile.symm
      _ = line.takeWhile isBlank ++ '/' :: '/' :: rest := by rw [← hrest]; rfl
  · rintro ⟨blanks, rest, rfl, hblanks⟩
    rw [Text.trimStart_append_of_blank hblanks, Text.trimStart_eq_self]
    · exact ⟨rest, rfl⟩
    · intro c hc
      obtain rfl : '/' = c := by simpa using hc
      decide

instance (line : Text) : Decidable (IsComment line) :=
  decidable_of_iff _ (isCommentLine_iff line)

/--
Of these lines, the line with this number is the first with a relation, and none
sets the relation mode. Comments do not count.
-/
@[mk_iff]
structure MissesRelationMode (lines : List Text) (line : Text) (number : Nat) : Prop where
  relation : relationPattern.Found line
  first : ∀ earlier ∈ lines.take (number - 1),
    ¬ IsComment earlier → ¬ relationPattern.Found earlier
  unset : ∀ other ∈ lines, ¬ IsComment other → ¬ relationModePattern.Found other

instance (lines : List Text) (line : Text) (number : Nat) :
    Decidable (MissesRelationMode lines line number) :=
  decidable_of_iff' _ (missesRelationMode_iff lines line number)

/-- The issue that a rule reports. -/
def LineRule.issue (rule : LineRule) (number : Nat) : Issue :=
  { severity := rule.severity, message := rule.message, line := some number }

/-- What is reported about relations at the line with this number. -/
def relationReport (lines : List Text) (line : Text) (number : Nat) : List Issue :=
  if MissesRelationMode lines line number then
    [{ severity := .error, message := relationModeMessage, line := some number }]
  else []

/-- What is reported about the line with this number. -/
def lineReport (lines : List Text) (line : Text) (number : Nat) : List Issue :=
  if IsComment line then []
  else
    (lineRules.filter (·.pattern.Found line)).map (·.issue number) ++
      relationReport lines line number

/-- The text with a carriage return before each line feed. -/
def Text.withReturns (text : Text) : Text :=
  text.flatMap fun c => if c = '\n' then ['\r', '\n'] else [c]

theorem Text.lines_withReturns {text : Text} (h : '\r' ∉ text) :
    lines (withReturns text) = lines text := by
  induction text with
  | nil => rfl
  | cons c text ih =>
      obtain ⟨hc, htext⟩ := not_or.1 (mt List.mem_cons.2 h)
      have ih := ih htext
      by_cases hfeed : c = '\n'
      · subst hfeed
        calc lines (withReturns ('\n' :: text)) = [] :: lines (withReturns text) := rfl
          _ = [] :: lines text := by rw [ih]
      · have hcons : withReturns (c :: text) = c :: withReturns text := by
          simp [withReturns, hfeed]
        rw [hcons, lines_cons hfeed fun hr => hc hr.1.symm,
          lines_cons hfeed fun hr => hc hr.1.symm, ih]

theorem lineIssues_eq (line : Text) (number : Nat) :
    lineIssues line number =
      (lineRules.filter (·.pattern.Found line)).map (·.issue number) := by
  have hfound : ∀ rule : LineRule,
      rule.pattern.occursIn line = decide (rule.pattern.Found line) := by
    intro rule
    rw [Bool.eq_iff_iff, decide_eq_true_iff, Pattern.occursIn_iff]
  simp only [lineIssues, hfound]
  rfl

section Lines

variable (schema : Text)

theorem mem_schemaLines_iff (line : Text) (number : Nat) :
    (line, number) ∈ schemaLines schema ↔
      (1 ≤ number ∧ (Text.lines schema)[number - 1]? = some line) ∧ ¬ IsComment line := by
  rw [schemaLines, List.mem_filter, List.mk_mem_zipIdx_iff_le_and_getElem?_sub,
    ← isCommentLine_iff]
  simp

theorem pairwise_schemaLines : (schemaLines schema).Pairwise (·.2 < ·.2) := by
  refine List.Pairwise.filter _ (List.pairwise_map.1 ?_)
  rw [List.zipIdx_map_snd]
  exact List.pairwise_lt_range' 1

theorem forall_lines_iff (p : Text → Prop) :
    (∀ line ∈ Text.lines schema, ¬ IsComment line → p line) ↔
      ∀ entry ∈ schemaLines schema, p entry.1 := by
  constructor
  · rintro h ⟨line, number⟩ hentry
    obtain ⟨⟨-, hline⟩, hcomment⟩ := (mem_schemaLines_iff schema line number).1 hentry
    exact h line (List.mem_of_getElem? hline) hcomment
  · intro h line hline hcomment
    obtain ⟨i, hi⟩ := List.mem_iff_getElem?.1 hline
    exact h (line, i + 1) ((mem_schemaLines_iff schema line (i + 1)).2 ⟨⟨by simp, hi⟩, hcomment⟩)

theorem forall_earlier_iff (p : Text → Prop) (number : Nat) :
    (∀ line ∈ (Text.lines schema).take (number - 1), ¬ IsComment line → p line) ↔
      ∀ entry ∈ schemaLines schema, entry.2 < number → p entry.1 := by
  constructor
  · rintro h ⟨line, m⟩ hentry hm
    obtain ⟨⟨hpos, hline⟩, hcomment⟩ := (mem_schemaLines_iff schema line m).1 hentry
    refine h line (List.mem_iff_getElem?.2 ⟨m - 1, ?_⟩) hcomment
    rw [List.getElem?_take_of_lt (by omega), hline]
  · intro h line hline hcomment
    obtain ⟨i, hi⟩ := List.mem_iff_getElem?.1 hline
    rw [List.getElem?_take] at hi
    split at hi
    · refine h (line, i + 1) ((mem_schemaLines_iff schema line (i + 1)).2 ?_) (by omega)
      exact ⟨⟨by simp, hi⟩, hcomment⟩
    · cases hi

theorem missesRelationMode_schemaLines_iff (line : Text) (number : Nat) :
    MissesRelationMode (Text.lines schema) line number ↔
      relationPattern.Found line ∧
        (∀ entry ∈ schemaLines schema, entry.2 < number → ¬ relationPattern.Found entry.1) ∧
        ∀ entry ∈ schemaLines schema, ¬ relationModePattern.Found entry.1 := by
  rw [missesRelationMode_iff, ← forall_earlier_iff schema (¬ relationPattern.Found ·),
    ← forall_lines_iff schema (¬ relationModePattern.Found ·)]

theorem relationReport_flatMap_eq_nil {lines : List Text} {entries : List (Text × Nat)}
    (h : ∀ entry ∈ entries, ¬ MissesRelationMode lines entry.1 entry.2) :
    entries.flatMap (fun (line, number) => relationReport lines line number) = [] :=
  List.flatMap_eq_nil_iff.2 fun entry hentry => if_neg (h entry hentry)

/-- The issue with relations is that of the one line that misses the mode, if there is one. -/
theorem relationIssues_schemaLines :
    relationIssues (schemaLines schema) =
      (schemaLines schema).flatMap fun (line, number) =>
        relationReport (Text.lines schema) line number := by
  have hsorted := pairwise_schemaLines schema
  have hiff := missesRelationMode_schemaLines_iff schema
  generalize schemaLines schema = entries at hsorted hiff ⊢
  unfold relationIssues
  split
  · rename_i hfind
    refine (relationReport_flatMap_eq_nil fun entry hentry hmisses => ?_).symm
    exact List.find?_eq_none.1 hfind entry hentry ((Pattern.occursIn_iff _ _).2 hmisses.relation)
  · rename_i line number hfind
    obtain ⟨hfound, before, after, rfl, hbefore⟩ := List.find?_eq_some_iff_append.1 hfind
    rw [Pattern.occursIn_iff] at hfound
    have hnot : ∀ entry ∈ before, ¬ relationPattern.Found entry.1 := by
      intro entry hentry
      rw [← Pattern.occursIn_iff]
      simpa using hbefore entry hentry
    have hafter : ∀ entry ∈ after, number < entry.2 :=
      (List.pairwise_cons.1 (List.pairwise_append.1 hsorted).2.1).1
    split
    · rename_i hmode
      obtain ⟨other, hother, hset⟩ := List.any_eq_true.1 hmode
      refine (relationReport_flatMap_eq_nil fun entry _ hmisses => ?_).symm
      exact ((hiff _ _).1 hmisses).2.2 other hother ((Pattern.occursIn_iff _ _).1 hset)
    · rename_i hmode
      have hmisses : MissesRelationMode (Text.lines schema) line number := by
        refine (hiff line number).2
          ⟨hfound, fun entry hentry hlt => ?_, fun entry hentry hset => ?_⟩
        · rcases List.mem_append.1 hentry with hentry | hentry
          · exact hnot entry hentry
          · rcases List.mem_cons.1 hentry with rfl | hentry
            · exact absurd hlt (Nat.lt_irrefl number)
            · exact absurd hlt (hafter entry hentry).le.not_gt
        · exact hmode (List.any_eq_true.2 ⟨entry, hentry, (Pattern.occursIn_iff _ _).2 hset⟩)
      rw [List.flatMap_append, List.flatMap_cons, relationReport_flatMap_eq_nil,
        relationReport_flatMap_eq_nil]
      · simp [relationReport, hmisses]
      · intro entry hentry hentry'
        exact ((hiff _ _).1 hentry').2.1 (line, number) (by simp) (hafter entry hentry) hfound
      · exact fun entry hentry hentry' => hnot entry hentry hentry'.relation

theorem line_of_mem_lineIssues (entry : Text × Nat) (issue : Issue)
    (h : issue ∈ lineIssues entry.1 entry.2) : issue.line.getD 0 = entry.2 := by
  obtain ⟨rule, -, rfl⟩ := List.mem_map.1 h
  rfl

theorem line_of_mem_relationReport (lines : List Text) (entry : Text × Nat) (issue : Issue)
    (h : issue ∈ relationReport lines entry.1 entry.2) : issue.line.getD 0 = entry.2 := by
  unfold relationReport at h
  split at h
  · rw [List.mem_singleton.1 h]
    rfl
  · cases h

theorem checkSchema_issues :
    (checkSchema schema).issues =
      ((Text.lines schema).zipIdx 1).flatMap fun (line, number) =>
        lineReport (Text.lines schema) line number := by
  calc (checkSchema schema).issues
      = (schemaLines schema).flatMap fun (line, number) =>
          lineIssues line number ++ relationReport (Text.lines schema) line number := by
        rw [checkSchema, SchemaReport.ofIssues, relationIssues_schemaLines]
        exact mergeSort_flatMap_append (pairwise_schemaLines schema) line_of_mem_lineIssues
          (line_of_mem_relationReport (Text.lines schema))
    _ = (schemaLines schema).flatMap fun (line, number) =>
          lineReport (Text.lines schema) line number := by
        refine List.flatMap_congr fun (line, number) hentry => ?_
        obtain ⟨-, hcomment⟩ := (mem_schemaLines_iff schema line number).1 hentry
        simp only [lineReport, if_neg hcomment, lineIssues_eq]
    _ = _ := flatMap_filter fun (line, number) _ hdropped => by
        rw [Bool.not_eq_false', isCommentLine_iff] at hdropped
        exact if_pos hdropped

theorem checkSchema_valid :
    (checkSchema schema).valid = false ↔
      ∃ issue ∈ (checkSchema schema).issues, issue.severity = .error := by
  simp only [checkSchema, SchemaReport.ofIssues, List.mem_mergeSort, List.all_eq_false]
  simp

end Lines

/-- The report on a schema says of each line in turn what there is to say about it. -/
theorem schema_reported_by_line (schema : Text) :
    (checkSchema schema).issues =
        ((Text.lines schema).zipIdx 1).flatMap (fun (line, number) =>
          lineReport (Text.lines schema) line number) ∧
      ((checkSchema schema).valid = false ↔
        ∃ issue ∈ (checkSchema schema).issues, issue.severity = .error) ∧
      ('\r' ∉ schema → checkSchema schema.withReturns = checkSchema schema) := by
  refine ⟨checkSchema_issues schema, checkSchema_valid schema, fun h => ?_⟩
  simp only [checkSchema, schemaLines, Text.lines_withReturns h]

/-- The relation in the comment does not count, and the error comes before the last issue. -/
theorem schema_reported_by_line_relation :
    let schema : Text := "// @relation(\na A @relation(b, onDelete: c)\nd Json".toList
    '\r' ∉ schema ∧
      (checkSchema schema).issues.map (fun issue => (issue.severity, issue.line)) =
        [(.warning, some 2), (.error, some 2), (.warning, some 3)] ∧
      (checkSchema schema).valid = false ∧
      checkSchema schema.withReturns = checkSchema schema := by
  intro schema
  have hreturn : '\r' ∉ schema := by decide
  obtain ⟨hissues, hvalid, hreturns⟩ := schema_reported_by_line schema
  have hshown : (checkSchema schema).issues.map (fun issue => (issue.severity, issue.line)) =
      [(.warning, some 2), (.error, some 2), (.warning, some 3)] := by
    rw [hissues]
    decide +kernel
  refine ⟨hreturn, hshown, hvalid.2 ?_, hreturns hreturn⟩
  have herror : (Severity.error, some 2) ∈ (checkSchema schema).issues.map
      (fun issue => (issue.severity, issue.line)) := by simp [hshown]
  obtain ⟨issue, hissue, heq⟩ := List.mem_map.1 herror
  exact ⟨issue, hissue, (Prod.mk.inj heq).1⟩

end AuroraMigration
