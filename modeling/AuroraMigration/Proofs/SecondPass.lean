import AuroraMigration.Proofs.Concatenation
import AuroraMigration.Proofs.OpenEnd
import AuroraMigration.Proofs.Retransform

/-!
# Transforming a script once more

Whatever a migration looks like, its script is read as at most one statement for
each of its blocks, and that statement starts with the keywords of the block. A
last block that is left open swallows the end of the script, which adds nothing
to its keywords. So a second run finds no index to convert and no new statement.
-/

namespace AuroraMigration

/-! ## Fragments that are no markers -/

/-- The fragments of pieces that are no transaction markers. -/
def looseFragments (pieces : List Text) : List Fragment :=
  (pieces.filterMap Fragment.ofPiece?).filter (·.marker?.isNone)

@[simp] theorem looseFragments_append (pieces others : List Text) :
    looseFragments (pieces ++ others) = looseFragments pieces ++ looseFragments others := by
  simp [looseFragments]

/-- Fragments are read from blocks: at most one from each, with the keywords of its block. -/
structure ReadFrom (blocks : List Block) (found : List Fragment) : Prop where
  length : found.length ≤ blocks.length
  keywords : ∀ fragment ∈ found, ∃ block ∈ blocks,
    keywordsOf (lexemes (scan fragment.body)) = keywordsOf (lexemes (scan block.body))

theorem readFrom_nil : ReadFrom [] [] :=
  ⟨Nat.le_refl 0, by simp⟩

theorem ReadFrom.append {blocks others : List Block} {found more : List Fragment}
    (h : ReadFrom blocks found) (hmore : ReadFrom others more) :
    ReadFrom (blocks ++ others) (found ++ more) where
  length := by
    rw [List.length_append, List.length_append]
    exact Nat.add_le_add h.length hmore.length
  keywords := by
    intro fragment hfragment
    rcases List.mem_append.1 hfragment with hfragment | hfragment
    · obtain ⟨block, hblock, hsame⟩ := h.keywords fragment hfragment
      exact ⟨block, List.mem_append_left _ hblock, hsame⟩
    · obtain ⟨block, hblock, hsame⟩ := hmore.keywords fragment hfragment
      exact ⟨block, List.mem_append_right _ hblock, hsame⟩

theorem readFrom_piece {piece : Text} {block : Block}
    (h : keywordsOf (lexemes (scan piece)) = keywordsOf (lexemes (scan block.body))) :
    ReadFrom [block] (looseFragments [piece]) where
  length := by
    have hone : ([piece].filterMap Fragment.ofPiece?).length ≤ 1 :=
      List.length_filterMap_le _ _
    exact (List.length_filter_le _ _).trans hone
  keywords := by
    intro fragment hfragment
    obtain ⟨found, hfound, hsome⟩ := List.mem_filterMap.1 (List.mem_filter.1 hfragment).1
    rw [List.mem_singleton.1 hfound] at hsome
    refine ⟨block, List.mem_singleton_self block, ?_⟩
    rw [(Fragment.ofPiece?_held hsome).keywords, h]

/-! ## Closed blocks -/

theorem looseFragments_marker {piece : Text} {fragment : Fragment} {marker : Marker}
    (h : Fragment.ofPiece? piece = some fragment) (hmarker : fragment.marker? = some marker)
    (pieces : List Text) : looseFragments (piece :: pieces) = looseFragments pieces := by
  simp [looseFragments, h, hmarker]

theorem Block.Sound.readFrom {block : Block} (h : block.Sound) {lead : Text}
    (hlead : Detached lead) : ReadFrom [block] (looseFragments (block.pieces lead)) := by
  have hfeed : Skipped ['\n'] ((['\n'] : Text).map (codeStep 0)) :=
    skipped_blank (List.all_eq_true.1 (by decide))
  have hbody : ReadFrom [block] (looseFragments [['\n'] ++ Text.trimEnd block.body]) := by
    apply readFrom_piece
    rw [(h.closedPiece.skip hfeed).2, h.body.lexemes_trimEnd]
  have hcommit : looseFragments ["\nCOMMIT".toList] = [] :=
    looseFragments_marker ofPiece?_commit (marker?_commit []) []
  have hrest := looseFragments_append [['\n'] ++ Text.trimEnd block.body] ["\nCOMMIT".toList]
  rw [hcommit, List.append_nil, List.singleton_append] at hrest
  rw [Block.pieces, looseFragments_marker (ofPiece?_begin hlead h.comment) (marker?_begin _), hrest]
  exact hbody

theorem scriptPieces_readFrom {blocks : List Block} (h : ∀ block ∈ blocks, block.Sound)
    {lead : Text} (hlead : Detached lead) :
    ReadFrom blocks (looseFragments (scriptPieces lead blocks)) := by
  induction blocks generalizing lead with
  | nil => exact readFrom_nil
  | cons block rest ih =>
      have hfirst := (h block List.mem_cons_self).readFrom hlead
      have hrest := ih (fun x hx => h x (List.mem_cons_of_mem block hx)) detached_gap
      rw [scriptPieces, looseFragments_append]
      exact hfirst.append hrest

/-! ## An open block at the end -/

/-- What a script holds from the body of its last block on. -/
def scriptEnd (body : Text) : Text :=
  ['\n'] ++ (terminate body ++ "\nCOMMIT;\n".toList)

theorem stepAt_quoted_plain {s : ScanState} (hs : s.mode.isQuoted = true) {c : Char}
    (hc : isPlain c = true) (rest : Text) :
    (stepAt s c rest).after = s ∧ (stepAt s c rest).cls.isQuoted = true ∧
      (stepAt s c rest).more = [] := by
  have hquote : ∀ d, isPlain d = false → c ≠ d := by
    rintro d hd rfl
    rw [hc] at hd
    cases hd
  obtain ⟨mode, depth⟩ := s
  cases mode with
  | string =>
      simp [stepAt, read, readQuoted, hquote '\'' (by decide), CharClass.isQuoted]
  | name => simp [stepAt, read, readQuoted, hquote '"' (by decide), CharClass.isQuoted]
  | dollar tag => simp [stepAt, read, readDollar, hquote '$' (by decide), CharClass.isQuoted]
  | code => cases hs
  | lineComment => cases hs
  | blockComment level => cases hs

/-- Plain text behind an open end holds no semicolon outside quotes and parentheses. -/
theorem scanFrom_opened {s : ScanState}
    (hs : s.mode.isQuoted = true ∨ (s.mode = .code ∧ s.depth ≠ 0)) {text : Text}
    (htext : ∀ c ∈ text, isPlain c = true) :
    ∀ step ∈ scanFrom s 0 text, step.isTopLevel ';' = false := by
  rcases hs with hquoted | ⟨hmode, hdepth⟩
  · induction text with
    | nil => simp
    | cons c text ih =>
        obtain ⟨hafter, hcls, hmore⟩ :=
          stepAt_quoted_plain hquoted (htext c List.mem_cons_self) text
        rw [scanFrom_cons, hafter, hmore]
        intro step hstep
        rcases List.mem_cons.1 hstep with rfl | hstep
        · unfold Step.isTopLevel
          cases hclass : (stepAt s c text).cls <;> simp_all [CharClass.isQuoted]
        · exact ih (fun d hd => htext d (List.mem_cons_of_mem c hd)) step hstep
  · obtain ⟨mode, depth⟩ := s
    obtain rfl : mode = .code := hmode
    have hscan := scanFrom_plain depth htext []
    rw [List.append_nil, scanFrom_nil, List.append_nil] at hscan
    rw [hscan]
    intro step hstep
    obtain ⟨c, -, rfl⟩ := List.mem_map.1 hstep
    have hnot : (depth == 0) = false := by simpa using hdepth
    simp [Step.isTopLevel, Step.depth, codeStep, hnot]

/-- The semicolon of a body and what a script puts behind it are plain and start with a break. -/
theorem scriptEnd_split (body : Text) :
    ∃ tail, scriptEnd body = ['\n'] ++ (Text.trimEnd body ++ tail) ∧ Boundary tail ∧
      ∀ c ∈ tail, isPlain c = true := by
  have hcases : ∃ mark ∈ ["\n;".toList, [], [';']], terminate body = Text.trimEnd body ++ mark := by
    simp only [terminate]
    split
    · exact ⟨_, by simp, rfl⟩
    · split
      · exact ⟨[], by simp, by simp⟩
      · exact ⟨_, by simp, rfl⟩
  obtain ⟨mark, hmark, hbody⟩ := hcases
  refine ⟨mark ++ "\nCOMMIT;\n".toList, by rw [scriptEnd, hbody, List.append_assoc], ?_⟩
  simp only [List.mem_cons, List.not_mem_nil, or_false] at hmark
  rcases hmark with rfl | rfl | rfl
  · exact ⟨(boundary_cons _ _).2 (by decide), List.all_eq_true.1 (by decide)⟩
  · exact ⟨(boundary_cons _ _).2 (by decide), List.all_eq_true.1 (by decide)⟩
  · exact ⟨(boundary_cons _ _).2 (by decide), List.all_eq_true.1 (by decide)⟩

/-- Behind an open body the end of a script is read as part of the body. -/
theorem OpenBody.reads_on {body : Text} (h : OpenBody body) :
    (∀ step ∈ scan (scriptEnd body), step.isTopLevel ';' = false) ∧
      keywordsOf (lexemes (scan (scriptEnd body))) =
        keywordsOf (lexemes (scan body)) := by
  obtain ⟨tail, hsplit, hboundary, hplain⟩ := scriptEnd_split body
  have hfeed : Skipped ['\n'] ((['\n'] : Text).map (codeStep 0)) :=
    skipped_blank (List.all_eq_true.1 (by decide))
  have hscan : scan (scriptEnd body) = (['\n'] : Text).map (codeStep 0) ++
      (scan (Text.trimEnd body) ++ scanFrom (scanEnd (Text.trimEnd body)) 0 tail) := by
    rw [hsplit, hfeed.scan_append, scan_append (Text.trimEnd body) hboundary]
  rw [hscan]
  constructor
  · intro step hstep
    rcases List.mem_append.1 hstep with hstep | hstep
    · exact not_separator_of_inert (hfeed.inert step hstep)
    · rcases List.mem_append.1 hstep with hstep | hstep
      · exact h.separators step hstep
      · exact scanFrom_opened h.opened hplain step hstep
  · have hopen := h.opened.imp_right And.right
    rw [scanEnd_eq_lastState] at hopen
    rw [lexemes_inert_append hfeed.inert,
      keywordsOf_steps_append ((trace_scan _).endsWords hopen), h.keywords]

/-- A script up to the `BEGIN` of its last block, and the rest of it. -/
theorem compose_last {front : List Block} (hfront : ∀ block ∈ front, ClosedBody block.body)
    (last : Block) (options : ScriptOptions) :
    ∃ lead steps, Skipped lead steps ∧ Detached lead ∧
      compose (front ++ [last]) options =
        withSeparators (scriptPieces (scriptLead options) front ++
          [lead ++ (lineBlock last.comment ++ "BEGIN".toList)]) ++ scriptEnd last.body := by
  by_cases hnil : front = []
  · subst hnil
    obtain ⟨steps, hlead⟩ := skipped_scriptLead options
    refine ⟨scriptLead options, steps, hlead, detached_scriptLead options, ?_⟩
    rw [List.nil_append, compose_eq (by simp)]
    simp [scriptPieces, Text.join, Block.render, scriptEnd, lineBlock]
  · have hgap : Skipped "\n\n".toList ("\n\n".toList.map (codeStep 0)) :=
      skipped_blank (List.all_eq_true.1 (by decide))
    refine ⟨"\n\n".toList, _, hgap, detached_gap, ?_⟩
    rw [compose_eq (by simp), List.map_append, Text.join_append (by simpa using hnil) (by simp),
      ← List.append_assoc, join_pieces _ hnil hfront, withSeparators_append]
    simp [Text.join, Block.render, scriptEnd, lineBlock]

/-! ## The second run -/

/-- A script is read as at most one statement for each of its blocks. -/
theorem compose_readFrom {blocks : List Block} (hsound : blocks.Pairwise fun block _ => block.Sound)
    (h : ∀ block ∈ blocks, block.Emitted) (options : ScriptOptions) :
    ReadFrom blocks (looseFragments (piecesAt ';' (compose blocks options))) := by
  rcases List.eq_nil_or_concat' blocks with rfl | ⟨front, last, rfl⟩
  · have hnone : looseFragments (piecesAt ';' []) = [] := by decide
    rw [compose_nil, hnone]
    exact readFrom_nil
  have hfront : ∀ block ∈ front, block.Sound :=
    fun block hblock => (List.pairwise_append.1 hsound).2.2 block hblock last (by simp)
  have hlast := h last (by simp)
  obtain ⟨steps, hlead⟩ := skipped_scriptLead options
  rcases hlast.body with hclosed | hopen
  · have hall : ∀ block ∈ front ++ [last], block.Sound := by
      intro block hblock
      rcases List.mem_append.1 hblock with hblock | hblock
      · exact hfront block hblock
      · rw [List.mem_singleton.1 hblock]
        exact ⟨hlast.comment, hclosed⟩
    have hend : looseFragments [['\n']] = [] := by decide
    rw [compose_pieces (by simp) (fun block hblock => (hall block hblock).body) options,
      piecesAt_withSeparators (scriptPieces_spec hall hlead).1 (by decide), looseFragments_append,
      hend, List.append_nil]
    exact scriptPieces_readFrom hall (detached_scriptLead options)
  · obtain ⟨lead, gap, hgap, hdetached, hcompose⟩ :=
      compose_last (fun block hblock => (hfront block hblock).body) last options
    obtain ⟨hseparators, hkeywords⟩ := hopen.reads_on
    have hpieces : ∀ piece ∈ scriptPieces (scriptLead options) front ++
        [lead ++ (lineBlock last.comment ++ "BEGIN".toList)], ClosedPiece piece := by
      intro piece hpiece
      rcases List.mem_append.1 hpiece with hpiece | hpiece
      · exact (scriptPieces_spec hfront hlead).1 piece hpiece
      · rw [List.mem_singleton.1 hpiece]
        obtain ⟨comment, hcomment⟩ := skipped_lineBlock hlast.comment
        exact ((closedPiece_begin.skip hcomment).1.skip hgap).1
    have hbegin : looseFragments [lead ++ (lineBlock last.comment ++ "BEGIN".toList)] = [] :=
      looseFragments_marker (ofPiece?_begin hdetached hlast.comment) (marker?_begin _) []
    rw [hcompose, piecesAt_withSeparators hpieces hseparators, looseFragments_append,
      looseFragments_append, hbegin, List.append_nil]
    exact (scriptPieces_readFrom hfront (detached_scriptLead options)).append
      (readFrom_piece hkeywords)

/-- A second run finds no index to convert and no statement that the first run did not have,
whatever the migration looks like. -/
theorem transform_twice_settled (sql : Text) (first second : ScriptOptions) :
    (Migration.transform (Migration.transform sql first).sql second).stats.indexes = 0 ∧
      (Migration.transform (Migration.transform sql first).sql second).stats.statements ≤
        (Migration.transform sql first).stats.statements := by
  have hread := compose_readFrom (emitted_closed sql) (fun block => emitted_block) first
  rw [← transform_sql] at hread
  generalize (Migration.transform sql first).sql = script at hread ⊢
  have hbodies : (statements script).map Statement.body =
      (looseFragments (piecesAt ';' script)).map Fragment.body :=
    statements_bodies script
  constructor
  · rw [transform_stats, hbodies]
    rw [List.sum_eq_zero_iff_forall_eq_nat]
    intro count hcount
    obtain ⟨body, hbody, rfl⟩ := List.mem_map.1 hcount
    obtain ⟨fragment, hfragment, rfl⟩ := List.mem_map.1 hbody
    obtain ⟨block, hblock, hkeywords⟩ := hread.keywords fragment hfragment
    exact ((emitted_block hblock).async.congr hkeywords).indexesConverted
  · rw [transform_statements, transform_statements, emitted_length, hbodies]
    refine List.countP_le_length.trans ?_
    rw [List.length_map]
    exact hread.length

/-- A string that is never closed swallows the end of the script, which is then no fixed point. -/
example :
    (Migration.transform (Migration.transform "CREATE INDEX i ON t ('a".toList {}).sql {}).sql ≠
        (Migration.transform "CREATE INDEX i ON t ('a".toList {}).sql ∧
      (Migration.transform (Migration.transform "CREATE INDEX i ON t ('a".toList {}).sql {}).stats =
        { statements := 1, indexes := 0, foreignKeys := 0 } := by
  decide +kernel

end AuroraMigration
