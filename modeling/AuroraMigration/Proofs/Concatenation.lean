import AuroraMigration.Proofs.Transactions
import Mathlib.Algebra.GroupWithZero.Nat

/-!
# Migrations one after the other

Behind a semicolon outside all regions a scan is where it started. So a text
that ends there and a text put behind it fall into the fragments of one followed
by the fragments of the other, and transforming both together does what
transforming each of them does. Only the comment of a begin marker crosses the
joint: it is carried to the next statement, which may stand in the second text.
-/

namespace AuroraMigration

/-! ## Scans and fragments -/

/-- The text is empty or ends right behind a semicolon in code outside all parentheses. -/
def EndsStatement (sql : Text) : Prop :=
  sql = [] ∨ (scan sql).getLast?.any (Step.isTopLevel ';') = true

instance (sql : Text) : Decidable (EndsStatement sql) :=
  inferInstanceAs (Decidable (_ ∨ _))

theorem Step.Shape.topLevel_eq {separator : Char} (hsep : isPlain separator = true) {step : Step}
    (h : step.Shape) (htop : step.isTopLevel separator = true) :
    step = codeStep 0 separator := by
  have hstates := h.topLevel_state hsep htop
  simp only [Step.isTopLevel, Bool.and_eq_true, beq_iff_eq] at htop
  have hmore := (h.of_code htop.1.1).2.1
  obtain ⟨first, more, cls, before, after⟩ := step
  dsimp only at hstates htop hmore
  rw [htop.1.1, htop.2, hmore, hstates.1, hstates.2]
  rfl

theorem codeStep_sealed {c : Char} (hc : isPlain c = true) (htag : isTagChar c = false)
    (depth : Nat) : (codeStep depth c).Sealed where
  reads := stepAt_plain depth hc
  last := ⟨[], c, rfl, htag⟩

/-- The last step of a text that ends a statement is its semicolon. -/
theorem EndsStatement.cases {sql : Text} (h : EndsStatement sql) :
    sql = [] ∨ ∃ steps, scan sql = steps ++ [codeStep 0 ';'] := by
  rcases h with h | h
  · exact .inl h
  · obtain ⟨step, hlast, htop⟩ := (Option.any_eq_true _ _).1 h
    obtain ⟨steps, hsteps⟩ := List.getLast?_eq_some_iff.1 hlast
    have hshape := (trace_scan sql).shape step (List.mem_of_getLast? hlast)
    exact .inr ⟨steps, by rw [hsteps, hshape.topLevel_eq (by decide) htop]⟩

theorem EndsStatement.scan_append {a : Text} (h : EndsStatement a) (b : Text) :
    scan (a ++ b) = scan a ++ scan b := by
  rcases h.cases with rfl | ⟨steps, hsteps⟩
  · rfl
  · have htrace := trace_scan a
    rw [hsteps] at htrace
    have hscan := (htrace.extend b wellTagged_start
      (codeStep_sealed (by decide) (by decide) 0)).scanFrom_eq
    rw [← hsteps, stepsText_scan] at hscan
    have hlast : lastState .start (scan a) = .start := by
      rw [hsteps, lastState_append]
      rfl
    rw [hlast] at hscan
    exact hscan

theorem fragments_append {a : Text} (h : EndsStatement a) (b : Text) :
    fragments (a ++ b) = fragments a ++ fragments b := by
  have hempty : Fragment.ofPiece? [] = none := by decide
  rcases h.cases with rfl | ⟨steps, hsteps⟩
  · have hnone : fragments [] = [] := by decide
    rw [hnone]
    rfl
  · have hsep : Step.isTopLevel ';' (codeStep 0 ';') = true := rfl
    have hwhole : piecesAt ';' (a ++ b) =
        (steps.splitOnP (Step.isTopLevel ';')).map stepsText ++ piecesAt ';' b := by
      rw [piecesAt, h.scan_append b, hsteps, List.append_assoc, List.singleton_append,
        List.splitOnP_append_cons steps (scan b) hsep, List.map_append]
      rfl
    have hfirst : piecesAt ';' a =
        (steps.splitOnP (Step.isTopLevel ';')).map stepsText ++ [[]] := by
      rw [piecesAt, hsteps, List.splitOnP_append_cons steps [] hsep, List.map_append]
      rfl
    simp only [fragments, hwhole, hfirst, List.filterMap_append, List.filterMap_cons, hempty,
      List.filterMap_nil, List.append_nil]

/-! ## Statements -/

theorem statements_bodies (sql : Text) :
    (statements sql).map Statement.body =
      ((fragments sql).filter (·.marker?.isNone)).map Fragment.body :=
  statementsFrom_bodies false [] (fragments sql)

theorem statements_bodies_append {a : Text} (h : EndsStatement a) (b : Text) :
    (statements (a ++ b)).map Statement.body =
      (statements a).map Statement.body ++ (statements b).map Statement.body := by
  simp only [statements_bodies, fragments_append h b, List.filter_append, List.map_append]

/-- What is carried behind a fragment, as comment for the next statement. -/
def carriedBehind (carried : List Text) (fragment : Fragment) : List Text :=
  match fragment.marker? with
  | some .begin => carried ++ fragment.comment
  | some .commit => carried
  | none => []

/-- A statement without the note whether it stood in a transaction. -/
def Statement.content (statement : Statement) : List Text × Text :=
  (statement.comment, statement.body)

theorem statementsFrom_content (opened later : Bool) (carried : List Text)
    (found : List Fragment) :
    (statementsFrom opened carried found).map Statement.content =
      (statementsFrom later carried found).map Statement.content := by
  induction found generalizing opened later carried with
  | nil => rfl
  | cons fragment rest ih =>
      simp only [statementsFrom]
      split
      · rfl
      · rfl
      · rw [List.map_cons, List.map_cons, ih opened later []]
        rfl

/-- Fragments pass the comment they carry on to the fragments behind them, and nothing else. -/
theorem statementsFrom_append (opened : Bool) (carried : List Text)
    (found others : List Fragment) :
    (statementsFrom opened carried (found ++ others)).map Statement.content =
      (statementsFrom opened carried found).map Statement.content ++
        (statementsFrom false (found.foldl carriedBehind carried) others).map
          Statement.content := by
  induction found generalizing opened carried with
  | nil =>
      exact statementsFrom_content opened false carried others
  | cons fragment rest ih =>
      cases hmarker : fragment.marker? with
      | none =>
          simp only [List.cons_append, statementsFrom, List.foldl_cons, carriedBehind, hmarker,
            List.map_cons, ih opened []]
          rfl
      | some marker =>
          cases marker with
          | begin =>
              simp only [List.cons_append, statementsFrom, List.foldl_cons, carriedBehind, hmarker,
                ih true]
          | commit =>
              simp only [List.cons_append, statementsFrom, List.foldl_cons, carriedBehind, hmarker,
                ih false]

/-- The markers behind the last statement of a text. -/
def trailingMarkers (sql : Text) : List Fragment :=
  (fragments sql).rtakeWhile (·.marker?.isSome)

/-- No begin marker behind the last statement of a text has a comment. -/
def CarriesNothing (sql : Text) : Prop :=
  ∀ fragment ∈ trailingMarkers sql, fragment.marker? = some .begin → fragment.comment = []

instance (sql : Text) : Decidable (CarriesNothing sql) :=
  inferInstanceAs (Decidable (∀ fragment ∈ _, _ → _))

theorem carried_eq_nil {found : List Fragment}
    (h : ∀ fragment ∈ found.rtakeWhile (·.marker?.isSome),
      fragment.marker? = some .begin → fragment.comment = []) :
    found.foldl carriedBehind [] = [] := by
  induction found using List.reverseRecOn with
  | nil => rfl
  | append_singleton found fragment ih =>
      rw [List.foldl_append, List.foldl_cons, List.foldl_nil, carriedBehind]
      cases hmarker : fragment.marker? with
      | none => rfl
      | some marker =>
          rw [List.rtakeWhile_concat_pos _ _ _ (by simp [hmarker])] at h
          have hcarried := ih fun x hx => h x (List.mem_append_left _ hx)
          cases marker with
          | begin =>
              have hcomment := h fragment (by simp) hmarker
              simp only [hcarried, hcomment, List.append_nil]
          | commit => exact hcarried

theorem statements_content_append {a : Text} (h : EndsStatement a) (hcarried : CarriesNothing a)
    (b : Text) :
    (statements (a ++ b)).map Statement.content =
      (statements a).map Statement.content ++ (statements b).map Statement.content := by
  unfold statements
  rw [fragments_append h b, statementsFrom_append false [] (fragments a) (fragments b),
    carried_eq_nil hcarried]

/-! ## What a migration counts -/

theorem total_statements (count : Adaptation → Nat) (found : List Statement) :
    Migration.total count
        (found.map fun statement => (statement, Adaptation.ofBody statement.body)) =
      ((found.map Statement.body).map fun body => count (Adaptation.ofBody body)).sum := by
  induction found with
  | nil => rfl
  | cons statement rest ih => simp only [List.map_cons, Migration.total, ih, List.sum_cons]

theorem blocks_statements (found : List Statement) :
    Migration.blocks (found.map fun statement =>
        (statement, Adaptation.ofBody statement.body)) =
      (found.map Statement.content).filterMap fun content =>
        (Adaptation.ofBody content.2).body.map fun body => { comment := content.1, body } := by
  rw [Migration.blocks, List.filterMap_map, List.filterMap_map]
  rfl

theorem emitted_length (sql : Text) :
    (emitted sql).length =
      ((statements sql).map Statement.body).countP fun body =>
        (Adaptation.ofBody body).body.isSome := by
  rw [emitted, blocks_statements, List.length_filterMap_eq_countP, List.countP_map, List.countP_map]
  simp only [Function.comp_def, Option.isSome_map]
  rfl

theorem transform_unsupported (sql : Text) (options : ScriptOptions) :
    (Migration.transform sql options).unsupported =
      ((statements sql).map Statement.body).flatMap fun body =>
        (Adaptation.ofBody body).unsupported := by
  rw [Migration.transform, (ofAdapted_fields _ options).2.2, List.flatMap_map, List.flatMap_map]

theorem transform_stats (sql : Text) (options : ScriptOptions) :
    (Migration.transform sql options).stats =
      { statements := (emitted sql).length
        indexes := (((statements sql).map Statement.body).map fun body =>
          (Adaptation.ofBody body).indexesConverted).sum
        foreignKeys := (((statements sql).map Statement.body).map fun body =>
          (Adaptation.ofBody body).foreignKeysRemoved).sum } := by
  rw [Migration.transform, (ofAdapted_fields _ options).2.1, total_statements, total_statements]
  rfl

/-- The one warning there is tells about foreign keys. -/
theorem transform_warnings_eq (sql : Text) (options : ScriptOptions) :
    (Migration.transform sql options).warnings =
      if 0 < (Migration.transform sql options).stats.foreignKeys then [foreignKeyWarning]
      else [] := by
  simp only [Migration.transform, Migration.ofAdapted]
  split
  · rename_i hnone
    simp [hnone]
  · rename_i hsome
    simp [Migration.warn, Nat.pos_of_ne_zero hsome]

/-- A migration warns exactly if it has removed foreign keys. -/
theorem transform_warnings (sql : Text) (options : ScriptOptions) :
    (Migration.transform sql options).warnings ≠ [] ↔
      (Migration.transform sql options).stats.foreignKeys ≠ 0 := by
  rw [transform_warnings_eq]
  split
  · rename_i hsome
    simp [Nat.pos_iff_ne_zero.1 hsome]
  · rename_i hnone
    simp [Nat.eq_zero_of_not_pos hnone]

theorem stats_append {a : Text} (h : EndsStatement a) (b : Text) (options : ScriptOptions) :
    (Migration.transform (a ++ b) options).stats =
      { statements := (Migration.transform a options).stats.statements +
          (Migration.transform b options).stats.statements
        indexes := (Migration.transform a options).stats.indexes +
          (Migration.transform b options).stats.indexes
        foreignKeys := (Migration.transform a options).stats.foreignKeys +
          (Migration.transform b options).stats.foreignKeys } := by
  simp only [transform_stats, emitted_length, statements_bodies_append h b, List.countP_append,
    List.map_append, List.sum_append]

/-! ## Scripts without a header -/

/-- Without a header a script is its blocks, with an empty line between them. -/
theorem compose_blocks {blocks : List Block} (hne : blocks ≠ []) {options : ScriptOptions}
    (hheader : options.header = false) :
    compose blocks options = Text.join "\n\n".toList (blocks.map Block.render) ++ ['\n'] := by
  rw [compose_eq hne, scriptLead, hheader]
  rfl

/-- Two scripts as one, with an empty line between them if both have any text. -/
def joinScripts (first second : Text) : Text :=
  if first = [] then second
  else if second = [] then first
  else first ++ '\n' :: second

theorem compose_append (blocks others : List Block) {options : ScriptOptions}
    (hheader : options.header = false) :
    compose (blocks ++ others) options =
      joinScripts (compose blocks options) (compose others options) := by
  have hfilled : ∀ {found : List Block}, found ≠ [] → compose found options ≠ [] := by
    intro found hfound
    rw [compose_blocks hfound hheader]
    simp
  by_cases hblocks : blocks = []
  · subst hblocks
    rw [compose_nil, joinScripts, if_pos rfl]
    rfl
  · by_cases hothers : others = []
    · subst hothers
      rw [compose_nil, joinScripts, if_neg (hfilled hblocks), if_pos rfl, List.append_nil]
    · rw [joinScripts, if_neg (hfilled hblocks), if_neg (hfilled hothers),
        compose_blocks (by simp [hblocks]) hheader, compose_blocks hblocks hheader,
        compose_blocks hothers hheader, List.map_append,
        Text.join_append (by simpa using hblocks) (by simpa using hothers)]
      simp

/-! ## The whole migration -/

/-- Transforming two texts, the first of which ends a statement, does what transforming each of
them does. -/
theorem transform_append {a : Text} (h : EndsStatement a) (b : Text) (options : ScriptOptions) :
    (Migration.transform (a ++ b) options).stats =
        { statements := (Migration.transform a options).stats.statements +
            (Migration.transform b options).stats.statements
          indexes := (Migration.transform a options).stats.indexes +
            (Migration.transform b options).stats.indexes
          foreignKeys := (Migration.transform a options).stats.foreignKeys +
            (Migration.transform b options).stats.foreignKeys } ∧
      (Migration.transform (a ++ b) options).unsupported =
        (Migration.transform a options).unsupported ++
          (Migration.transform b options).unsupported ∧
      ((Migration.transform (a ++ b) options).warnings ≠ [] ↔
        (Migration.transform a options).warnings ≠ [] ∨
          (Migration.transform b options).warnings ≠ []) ∧
      (options.header = false → CarriesNothing a →
        (Migration.transform (a ++ b) options).sql =
          joinScripts (Migration.transform a options).sql
            (Migration.transform b options).sql) := by
  have hstats := stats_append h b options
  refine ⟨hstats, ?_, ?_, ?_⟩
  · simp only [transform_unsupported, statements_bodies_append h b, List.flatMap_append]
  · rw [transform_warnings, transform_warnings, transform_warnings, hstats]
    dsimp only
    omega
  · intro hheader hcarried
    have hblocks : emitted (a ++ b) = emitted a ++ emitted b := by
      simp only [emitted, blocks_statements, statements_content_append h hcarried b,
        List.filterMap_append]
    rw [transform_sql, transform_sql, transform_sql, hblocks, compose_append _ _ hheader]

/-- A transaction that is opened in one text and closed in the other, around an index and a
statement that the second text does not end. -/
theorem transform_append_open_transaction :
    EndsStatement "-- x\nBEGIN; CREATE INDEX i ON t (a);".toList ∧
      CarriesNothing "-- x\nBEGIN; CREATE INDEX i ON t (a);".toList ∧
      (Migration.transform
          ("-- x\nBEGIN; CREATE INDEX i ON t (a);".toList ++ "COMMIT; SELECT ';'".toList)
          { header := false }).sql =
        joinScripts
          (Migration.transform "-- x\nBEGIN; CREATE INDEX i ON t (a);".toList
            { header := false }).sql
          (Migration.transform "COMMIT; SELECT ';'".toList { header := false }).sql :=
  ⟨by decide +kernel, by decide +kernel,
    (transform_append (by decide +kernel) _ { header := false }).2.2.2 rfl (by decide +kernel)⟩

end AuroraMigration
