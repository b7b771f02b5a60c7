import AuroraMigration.Proofs.Lookahead

/-!
# Traces of a scan

A trace is a list of steps that a scan takes from a state, each read with the
text that really follows it. The scan of any text is a trace of that text, and
a trace determines the scan, so statements about scans of composed, cut or
changed texts are proved on their traces. The main statements say when the scan
of a text put together from two is the scan of one followed by the scan of the
other.
-/

namespace AuroraMigration

@[simp] theorem stepsText_nil : stepsText [] = [] := rfl

@[simp] theorem stepsText_cons (step : Step) (steps : List Step) :
    stepsText (step :: steps) = step.chars ++ stepsText steps := rfl

@[simp] theorem stepsText_append (xs ys : List Step) :
    stepsText (xs ++ ys) = stepsText xs ++ stepsText ys := by
  simp [stepsText]

/-- The last character of steps is that of the last step. -/
theorem getLast?_stepsText {steps : List Step} {c : Char}
    (h : (stepsText steps).getLast? = some c) :
    ∃ before step, steps = before ++ [step] ∧ step.chars.getLast? = some c := by
  cases hl : steps.getLast? with
  | none =>
      rw [List.getLast?_eq_none_iff.1 hl] at h
      cases h
  | some step =>
      obtain ⟨before, rfl⟩ := List.getLast?_eq_some_iff.1 hl
      refine ⟨before, step, rfl, ?_⟩
      simpa [Step.chars, List.getLast?_append, List.getLast?_cons] using h

/-- The state that a scan is in once it has taken these steps from `s`. -/
def lastState (s : ScanState) : List Step → ScanState
  | [] => s
  | step :: later => lastState step.after later

@[simp] theorem lastState_nil (s : ScanState) : lastState s [] = s := rfl

@[simp] theorem lastState_cons (s : ScanState) (step : Step) (later : List Step) :
    lastState s (step :: later) = lastState step.after later := rfl

@[simp] theorem lastState_append (s : ScanState) (xs ys : List Step) :
    lastState s (xs ++ ys) = lastState (lastState s xs) ys := by
  induction xs generalizing s with
  | nil => rfl
  | cons step xs ih => exact ih step.after

theorem scanEnd_eq_lastState (sql : Text) : scanEnd sql = lastState .start (scan sql) := by
  have hlast : ∀ (s : ScanState) (steps : List Step),
      (steps.getLast?.map Step.after).getD s = lastState s steps := by
    intro s steps
    induction steps generalizing s with
    | nil => rfl
    | cons step later ih =>
        rw [lastState_cons, ← ih step.after, List.getLast?_cons]
        cases later.getLast? <;> rfl
  exact hlast .start (scan sql)

/-- The scan in state `s` takes these steps when `rest` follows them. -/
def Trace (s : ScanState) : List Step → Text → Prop
  | [], _ => True
  | step :: later, rest =>
      stepAt s step.first (step.more ++ (stepsText later ++ rest)) = step ∧
        Trace step.after later rest

@[simp] theorem trace_nil (s : ScanState) (rest : Text) : Trace s [] rest :=
  trivial

theorem trace_cons {s : ScanState} {step : Step} {later : List Step} {rest : Text} :
    Trace s (step :: later) rest ↔
      stepAt s step.first (step.more ++ (stepsText later ++ rest)) = step ∧
        Trace step.after later rest :=
  Iff.rfl

theorem trace_append {s : ScanState} {xs ys : List Step} {rest : Text} :
    Trace s (xs ++ ys) rest ↔
      Trace s xs (stepsText ys ++ rest) ∧ Trace (lastState s xs) ys rest := by
  induction xs generalizing s with
  | nil => simp
  | cons step xs ih =>
      simp only [List.cons_append, trace_cons, stepsText_append, List.append_assoc,
        lastState_cons, ih, and_assoc]

/-! ## Steps -/

@[simp] theorem stepAt_first (s : ScanState) (c : Char) (rest : Text) :
    (stepAt s c rest).first = c := rfl

@[simp] theorem stepAt_before (s : ScanState) (c : Char) (rest : Text) :
    (stepAt s c rest).before = s := rfl

/-- A step depends on the text ahead through what is read only. -/
theorem stepAt_congr {s : ScanState} {c : Char} {rest rest' : Text}
    (h : read s c rest = read s c rest') : stepAt s c rest = stepAt s c rest' := by
  simp [stepAt, h]

theorem stepAt_chars_prefix (s : ScanState) (c : Char) (rest : Text) :
    (stepAt s c rest).chars ++ rest.drop (stepAt s c rest).more.length = c :: rest := by
  obtain ⟨later, hlater⟩ := read_more_prefix s c rest
  have hdrop : ((read s c rest).more ++ later).drop (read s c rest).more.length = later := by
    simp
  rw [hlater] at hdrop
  change c :: ((read s c rest).more ++ rest.drop (read s c rest).more.length) = c :: rest
  rw [hdrop, hlater]

theorem stepAt_wellTagged {s : ScanState} (hs : s.WellTagged) (c : Char) (rest : Text) :
    (stepAt s c rest).after.WellTagged :=
  read_wellTagged hs c rest

theorem read_more_of_stepAt {s : ScanState} {step : Step} {rest : Text}
    (h : stepAt s step.first rest = step) : (read s step.first rest).more = step.more :=
  congrArg Step.more h

/-! ## Scans are traces -/

theorem scanFrom_skip (s : ScanState) (skip : Nat) (text : Text) :
    scanFrom s skip text = scanFrom s 0 (text.drop skip) := by
  induction text generalizing skip with
  | nil => simp [scanFrom]
  | cons c rest ih =>
      cases skip with
      | zero => rfl
      | succ skip => simpa [scanFrom] using ih skip

@[simp] theorem scanFrom_nil (s : ScanState) (skip : Nat) : scanFrom s skip [] = [] := by
  cases skip <;> rfl

theorem scanFrom_cons (s : ScanState) (c : Char) (rest : Text) :
    scanFrom s 0 (c :: rest) =
      stepAt s c rest ::
        scanFrom (stepAt s c rest).after 0 (rest.drop (stepAt s c rest).more.length) := by
  rw [scanFrom, scanFrom_skip]

/-- The steps of a scan hold the whole text and form a trace. -/
theorem scanFrom_spec (s : ScanState) (text : Text) :
    stepsText (scanFrom s 0 text) = text ∧ Trace s (scanFrom s 0 text) [] := by
  -- by the length of the text, as a step may read several characters
  induction hn : text.length using Nat.strongRecOn generalizing s text with
  | ind n ih =>
      cases text with
      | nil => simp
      | cons c rest =>
          have hlen : (rest.drop (stepAt s c rest).more.length).length < n := by
            simp only [List.length_drop, List.length_cons] at hn ⊢
            omega
          obtain ⟨htext, htrace⟩ := ih _ hlen (stepAt s c rest).after _ rfl
          have hchars := stepAt_chars_prefix s c rest
          rw [scanFrom_cons, stepsText_cons, htext]
          refine ⟨hchars, ?_, htrace⟩
          rw [htext, List.append_nil]
          have hrest : (stepAt s c rest).more ++ rest.drop (stepAt s c rest).more.length = rest :=
            (List.cons.inj hchars).2
          rw [hrest, stepAt_first]

@[simp] theorem stepsText_scanFrom (s : ScanState) (text : Text) :
    stepsText (scanFrom s 0 text) = text :=
  (scanFrom_spec s text).1

@[simp] theorem stepsText_scan (sql : Text) : stepsText (scan sql) = sql :=
  stepsText_scanFrom .start sql

theorem trace_scanFrom (s : ScanState) (text : Text) : Trace s (scanFrom s 0 text) [] :=
  (scanFrom_spec s text).2

theorem trace_scan (sql : Text) : Trace .start (scan sql) [] :=
  trace_scanFrom .start sql

/-- A trace is what the scan of its text begins with. -/
theorem Trace.scanFrom_eq {s : ScanState} {steps : List Step} {rest : Text}
    (h : Trace s steps rest) :
    scanFrom s 0 (stepsText steps ++ rest) = steps ++ scanFrom (lastState s steps) 0 rest := by
  induction steps generalizing s with
  | nil => rfl
  | cons step later ih =>
      obtain ⟨hstep, hlater⟩ := h
      have htext : stepsText (step :: later) ++ rest =
          step.first :: (step.more ++ (stepsText later ++ rest)) := by
        simp [Step.chars]
      rw [htext, scanFrom_cons, hstep]
      simp [ih hlater]

theorem Trace.wellTagged {s : ScanState} {steps : List Step} {rest : Text}
    (h : Trace s steps rest) (hs : s.WellTagged) : (lastState s steps).WellTagged := by
  induction steps generalizing s with
  | nil => exact hs
  | cons step later ih =>
      obtain ⟨hstep, hlater⟩ := h
      refine ih hlater ?_
      rw [← hstep]
      exact stepAt_wellTagged hs _ _

/-! ## Cutting and extending -/

/-- Steps stay what they are when the text after them is cut or starts with a break. -/
theorem Trace.cut {s : ScanState} {steps : List Step} {rest rest' : Text}
    (h : Trace s steps rest) (hs : s.WellTagged) (hrest : Boundary rest') :
    Trace s steps rest' := by
  induction steps generalizing s with
  | nil => trivial
  | cons step later ih =>
      obtain ⟨hstep, hlater⟩ := h
      have hread := read_cut hs (read_more_of_stepAt hstep) hrest
      refine ⟨(stepAt_congr hread).trans hstep, ih hlater ?_⟩
      rw [← hstep]
      exact stepAt_wellTagged hs _ _

/-- A step after which any text may follow without a change to it or to steps before it. -/
structure Step.Sealed (step : Step) : Prop where
  reads : ∀ rest, stepAt step.before step.first (step.more ++ rest) = step
  last : ∃ u d, step.chars = u ++ [d] ∧ isTagChar d = false

theorem Trace.extend {s : ScanState} {steps : List Step} {step : Step} {rest : Text}
    (rest' : Text) (h : Trace s (steps ++ [step]) rest) (hs : s.WellTagged)
    (hsealed : step.Sealed) : Trace s (steps ++ [step]) rest' := by
  induction steps generalizing s with
  | nil =>
      have hbefore : step.before = s := by rw [← h.1, stepAt_before]
      refine ⟨?_, trivial⟩
      rw [← hbefore]
      exact hsealed.reads _
  | cons first later ih =>
      rw [List.cons_append, trace_cons] at h
      obtain ⟨hstep, hlater⟩ := h
      obtain ⟨u, d, hchars, hd⟩ := hsealed.last
      have hahead : ∀ text, stepsText (later ++ [step]) ++ text =
          (stepsText later ++ u) ++ d :: text := by
        intro text
        simp [hchars]
      have hmore := read_more_of_stepAt hstep
      rw [hahead] at hmore hstep
      have hread := read_extend rest' hs hmore hd
      rw [List.cons_append, trace_cons]
      refine ⟨?_, ih hlater ?_⟩
      · rw [hahead]
        exact (stepAt_congr hread).trans hstep
      · rw [← hstep]
        exact stepAt_wellTagged hs _ _

/-- Cutting a text after some steps of its scan leaves these steps as its scan. -/
theorem Trace.scanFrom_stepsText {s : ScanState} {steps : List Step} {rest : Text}
    (h : Trace s steps rest) (hs : s.WellTagged) : scanFrom s 0 (stepsText steps) = steps := by
  simpa using (h.cut hs boundary_nil).scanFrom_eq

/-- A scan stops at a break and goes on behind it. -/
theorem scanFrom_append {s : ScanState} (hs : s.WellTagged) (a : Text) {b : Text}
    (hb : Boundary b) :
    scanFrom s 0 (a ++ b) =
      scanFrom s 0 a ++ scanFrom (lastState s (scanFrom s 0 a)) 0 b := by
  have h := ((trace_scanFrom s a).cut hs hb).scanFrom_eq
  rwa [stepsText_scanFrom] at h

theorem scanEnd_wellTagged (sql : Text) : (scanEnd sql).WellTagged := by
  rw [scanEnd_eq_lastState]
  exact (trace_scan sql).wellTagged wellTagged_start

theorem scan_append (a : Text) {b : Text} (hb : Boundary b) :
    scan (a ++ b) = scan a ++ scanFrom (scanEnd a) 0 b := by
  rw [scanEnd_eq_lastState]
  exact scanFrom_append wellTagged_start a hb

theorem completes_first {s : ScanState} {c : Char} {ahead : Text} (h : Completes s c ahead) :
    isBreak c = false := by
  unfold Completes at h
  split at h
  · rcases h with ⟨rfl, -⟩ | ⟨rfl, -⟩ | ⟨rfl, -⟩ <;> decide
  · rw [h.1]
    decide
  · rw [h.1]
    decide
  · rw [h.1]
    decide
  · exact h.elim
  · rcases h with ⟨rfl, -⟩ | ⟨rfl, -⟩ <;> decide

/-- A break is read alone, whatever follows. -/
theorem read_more_of_isBreak (s : ScanState) {c : Char} (hc : isBreak c = true) (rest : Text) :
    (read s c rest).more = [] := by
  apply read_more_eq_nil
  intro ahead h
  rw [completes_first h] at hc
  cases hc

theorem stepAt_of_isBreak (s : ScanState) {c : Char} (hc : isBreak c = true)
    (rest rest' : Text) : stepAt s c rest = stepAt s c rest' := by
  apply stepAt_congr
  apply read_congr
  rw [read_more_of_isBreak s hc, read_more_of_isBreak s hc]

/-! ## Code -/

/-- Whether `c` is read alone outside all regions and changes nothing. -/
def isPlain (c : Char) : Bool :=
  !List.contains ['\'', '"', '-', '/', '$', '(', ')'] c

/-- The step that reads a plain character at some depth of parentheses. -/
def codeStep (depth : Nat) (c : Char) : Step :=
  { first := c, more := [], cls := .code, before := ⟨.code, depth⟩, after := ⟨.code, depth⟩ }

theorem stepAt_plain (depth : Nat) {c : Char} (hc : isPlain c = true) (rest : Text) :
    stepAt ⟨.code, depth⟩ c rest = codeStep depth c := by
  simp only [stepAt, read, readCode]
  split <;> first | rfl | (exact absurd hc (by decide))

theorem stepsText_codeSteps (depth : Nat) (word : Text) :
    stepsText (word.map (codeStep depth)) = word := by
  induction word with
  | nil => rfl
  | cons c word ih => simp [ih, codeStep, Step.chars]

theorem trace_plain (depth : Nat) {word : Text} (hword : ∀ c ∈ word, isPlain c = true)
    (rest : Text) : Trace ⟨.code, depth⟩ (word.map (codeStep depth)) rest := by
  induction word with
  | nil => trivial
  | cons c word ih =>
      have hc : isPlain c = true := hword c List.mem_cons_self
      exact ⟨stepAt_plain depth hc _, ih fun d hd => hword d (List.mem_cons_of_mem c hd)⟩

theorem lastState_codeSteps (depth : Nat) (word : Text) :
    lastState ⟨.code, depth⟩ (word.map (codeStep depth)) = ⟨.code, depth⟩ := by
  induction word with
  | nil => rfl
  | cons c word ih => exact ih

theorem scanFrom_plain (depth : Nat) {word : Text} (hword : ∀ c ∈ word, isPlain c = true)
    (rest : Text) :
    scanFrom ⟨.code, depth⟩ 0 (word ++ rest) =
      word.map (codeStep depth) ++ scanFrom ⟨.code, depth⟩ 0 rest := by
  have h := (trace_plain depth hword rest).scanFrom_eq
  rwa [stepsText_codeSteps, lastState_codeSteps] at h

theorem isBlank_iff (c : Char) :
    isBlank c = true ↔ (9 ≤ c.toNat ∧ c.toNat ≤ 13) ∨ c.toNat = 32 ∨ c.toNat = 133 ∨
      c.toNat = 160 ∨ c.toNat = 5760 ∨ (8192 ≤ c.toNat ∧ c.toNat ≤ 8202) ∨
      (8232 ≤ c.toNat ∧ c.toNat ≤ 8233) ∨ c.toNat = 8239 ∨ c.toNat = 8287 ∨ c.toNat = 12288 := by
  simp only [isBlank, blankRanges, Ranges.mem, List.any_cons, List.any_nil, Bool.or_eq_true,
    Bool.and_eq_true, decide_eq_true_eq, Bool.or_false]
  omega

theorem isTagChar_of_isBlank {c : Char} (h : isBlank c = true) : isTagChar c = false := by
  have hrange := (isBlank_iff c).1 h
  cases htag : isTagChar c with
  | false => rfl
  | true =>
      delta isTagChar Char.isAlphanum Char.isAlpha Char.isUpper Char.isLower Char.isDigit at htag
      simp only [Bool.or_eq_true, Bool.and_eq_true, decide_eq_true_eq, beq_iff_eq, ge_iff_le,
        UInt32.le_iff_toNat_le] at htag
      rcases htag with ((htag | htag) | htag) | rfl
      · simp at htag
        omega
      · simp at htag
        omega
      · simp at htag
        omega
      · simp at hrange

/-- White space is no part of any delimiter. -/
theorem isBreak_of_isBlank {c : Char} (h : isBlank c = true) : isBreak c = true := by
  simp only [isBreak, isTagChar_of_isBlank h, Bool.false_or, Bool.not_eq_true',
    List.contains_eq_mem, decide_eq_false_iff_not, List.mem_cons, List.not_mem_nil, or_false]
  rintro (rfl | rfl | rfl | rfl | rfl | rfl) <;> exact absurd h (by decide)

theorem isPlain_of_isBlank {c : Char} (h : isBlank c = true) : isPlain c = true := by
  simp only [isPlain, Bool.not_eq_true', List.contains_eq_mem, decide_eq_false_iff_not,
    List.mem_cons, List.not_mem_nil, or_false]
  rintro (rfl | rfl | rfl | rfl | rfl | rfl | rfl) <;> exact absurd h (by decide)

/-! ## Regions -/

namespace Mode

/-- The mark that opens a region. -/
def mark : Mode → Text
  | .code => []
  | .string => ['\'']
  | .name => ['"']
  | .dollar tag => '$' :: (tag ++ ['$'])
  | .lineComment => ['-', '-']
  | .blockComment _ => ['/', '*']

/-- The characters with which a scan leaves a region. -/
def closer : Mode → Text
  | .lineComment => ['\n']
  | .blockComment _ => ['*', '/']
  | region => region.mark

/-- What the characters of a region belong to. -/
def cls : Mode → CharClass
  | .code => .code
  | .string => .string
  | .name => .name
  | .dollar _ => .dollar
  | .lineComment => .comment
  | .blockComment _ => .comment

/-- Whether a scan stands inside `'…'`, `"…"` or a dollar quote. -/
def isQuoted : Mode → Bool
  | .string => true
  | .name => true
  | .dollar _ => true
  | _ => false

/-- Whether a scan stands inside a comment. -/
def isComment : Mode → Bool
  | .lineComment => true
  | .blockComment _ => true
  | _ => false

end Mode

theorem Mode.eq_code {mode : Mode} (hquoted : mode.isQuoted = false)
    (hcomment : mode.isComment = false) : mode = .code := by
  cases mode <;> simp_all [Mode.isQuoted, Mode.isComment]

/-- Whether characters are quoted. -/
def CharClass.isQuoted : CharClass → Bool
  | .string => true
  | .name => true
  | .dollar => true
  | _ => false

theorem Mode.isQuoted_cls (mode : Mode) : mode.cls.isQuoted = mode.isQuoted := by
  cases mode <;> rfl

theorem Mode.cls_of_isComment {mode : Mode} (h : mode.isComment = true) : mode.cls = .comment := by
  cases mode <;> first | rfl | cases h

theorem Mode.isQuoted_of_isComment {mode : Mode} (h : mode.isComment = true) :
    mode.isQuoted = false := by
  cases mode <;> first | rfl | cases h

theorem Mode.eq_name_of_cls {mode : Mode} (h : mode.cls = .name) : mode = .name := by
  cases mode <;> first | rfl | cases h

theorem Mode.comment_of_cls {mode : Mode} (h : mode.cls = .comment) :
    mode = .lineComment ∨ ∃ level, mode = .blockComment level := by
  cases mode with
  | lineComment => exact .inl rfl
  | blockComment level => exact .inr ⟨level, rfl⟩
  | _ => cases h

theorem Mode.quoted_or_comment {mode : Mode} (h : mode ≠ .code) :
    mode.isQuoted = true ∨ mode.isComment = true := by
  cases mode <;> simp_all [Mode.isQuoted, Mode.isComment]

theorem Mode.not_blank_of_mark {mode : Mode} {c : Char} {rest : Text} (h : mode.mark = c :: rest) :
    isBlank c = false := by
  cases mode with
  | code => cases h
  | _ =>
      obtain ⟨rfl, -⟩ := List.cons.inj h
      decide

/-- The last character of a step is no white space. -/
def Step.EndsSolid (step : Step) : Prop :=
  ∀ c, step.chars.getLast? = some c → isBlank c = false

/-- The last character of a step is that of a delimiter. -/
def Step.EndsDelimiter (step : Step) : Prop :=
  ∀ c, step.chars.getLast? = some c → isBreak c = false

theorem Step.EndsDelimiter.solid {step : Step} (h : step.EndsDelimiter) : step.EndsSolid := by
  intro c hc
  cases hblank : isBlank c with
  | false => rfl
  | true =>
      have hbreak := h c hc
      rw [isBreak_of_isBlank hblank] at hbreak
      cases hbreak

theorem Mode.closer_last {mode : Mode} (h : mode.isQuoted = true) {c : Char}
    (hc : mode.closer.getLast? = some c) : isBreak c = false := by
  have hlast : mode.closer.getLast? = some '\'' ∨ mode.closer.getLast? = some '"' ∨
      mode.closer.getLast? = some '$' := by
    cases mode with
    | string => exact .inl rfl
    | name => exact .inr (.inl rfl)
    | dollar tag => exact .inr (.inr (List.getLast?_concat (l := '$' :: tag)))
    | _ => cases h
  rw [hc, Option.some.injEq, Option.some.injEq, Option.some.injEq] at hlast
  rcases hlast with rfl | rfl | rfl <;> decide

/-- The depth of parentheses after a step; one that closes none changes nothing. -/
def Step.nest (depth : Nat) (step : Step) : Nat :=
  match step.cls, step.first with
  | .code, '(' => depth + 1
  | .code, ')' => depth - 1
  | _, _ => depth

theorem Step.nest_of_ne_code {step : Step} (h : step.cls ≠ .code) (depth : Nat) :
    step.nest depth = depth := by
  unfold Step.nest
  split
  · exact absurd ‹_› h
  · exact absurd ‹_› h
  · rfl

theorem Step.nest_of_ne {step : Step} (hopen : step.first ≠ '(') (hclose : step.first ≠ ')')
    (depth : Nat) : step.nest depth = depth := by
  unfold Step.nest
  split
  · exact absurd ‹_› hopen
  · exact absurd ‹_› hclose
  · rfl

theorem Step.nest_of_blank {step : Step} (h : isBlank step.first = true) (depth : Nat) :
    step.nest depth = depth := by
  refine Step.nest_of_ne ?_ ?_ depth
  · intro hfirst
    rw [hfirst] at h
    exact absurd h (by decide)
  · intro hfirst
    rw [hfirst] at h
    exact absurd h (by decide)

/-- All that a step can do: read code, open a region, read on in it or leave it. -/
inductive Step.Action (step : Step) : Prop
  | code : step.before.mode = .code → step.cls = .code → step.more = [] →
      step.after.mode = .code → step.after.depth = step.nest step.before.depth → Step.Action step
  | opens : step.before.mode = .code → step.after.mode ≠ .code → step.cls = step.after.mode.cls →
      step.chars = step.after.mode.mark → step.after.depth = step.before.depth → Step.Action step
  | stays : step.before.mode ≠ .code → step.cls = step.before.mode.cls →
      step.after = step.before → Step.Action step
  | nests (level level' : Nat) : step.before.mode = .blockComment level → step.cls = .comment →
      step.chars = ['/', '*'] ∨ step.chars = ['*', '/'] →
      step.after.mode = .blockComment level' → step.after.depth = step.before.depth →
      Step.Action step
  | closes : step.before.mode ≠ .code → step.cls = step.before.mode.cls →
      step.chars = step.before.mode.closer → step.after.mode = .code →
      step.after.depth = step.before.depth → Step.Action step

theorem stepAt_action_code (depth : Nat) (c : Char) (rest : Text) :
    (stepAt ⟨.code, depth⟩ c rest).Action := by
  have hread : read ⟨.code, depth⟩ c rest = readCode depth c rest := rfl
  simp only [stepAt, hread, readCode]
  split
  case h_1 => exact .opens rfl (by simp) rfl rfl rfl
  case h_2 => exact .opens rfl (by simp) rfl rfl rfl
  case h_3 =>
    split
    · exact .opens rfl (by simp) rfl rfl rfl
    · exact .code rfl rfl rfl rfl rfl
  case h_4 =>
    split
    · exact .opens rfl (by simp) rfl rfl rfl
    · exact .code rfl rfl rfl rfl rfl
  case h_5 =>
    split
    · exact .opens rfl (by simp) rfl rfl rfl
    · exact .code rfl rfl rfl rfl rfl
  case h_6 => exact .code rfl rfl rfl rfl rfl
  case h_7 => exact .code rfl rfl rfl rfl rfl
  case h_8 hopen hclose => exact .code rfl rfl rfl rfl (Step.nest_of_ne hopen hclose depth).symm

theorem stepAt_action_quoted {quote : Char} {mode : Mode} {depth : Nat} {c : Char} {rest : Text}
    (hmode : mode ≠ .code) (hcloser : mode.closer = [quote])
    (hread : read ⟨mode, depth⟩ c rest = readQuoted quote mode mode.cls depth c rest) :
    (stepAt ⟨mode, depth⟩ c rest).Action := by
  simp only [stepAt, hread, readQuoted]
  by_cases hc : c = quote
  · by_cases hdouble : rest.head? = some quote
    · simp only [if_pos hc, if_pos hdouble]
      exact .stays hmode rfl rfl
    · simp only [if_pos hc, if_neg hdouble]
      exact .closes hmode rfl (by simp [Step.chars, hcloser, hc]) rfl rfl
  · simp only [if_neg hc]
    exact .stays hmode rfl rfl

theorem stepAt_action_blockComment (level depth : Nat) (c : Char) (rest : Text) :
    (stepAt ⟨.blockComment level, depth⟩ c rest).Action := by
  simp only [stepAt, read, readBlockComment]
  by_cases hopen : c = '/' ∧ rest.head? = some '*'
  · simp only [if_pos hopen]
    exact .nests level (level + 1) rfl rfl (.inl (by rw [hopen.1]; rfl)) rfl rfl
  · by_cases hclose : c = '*' ∧ rest.head? = some '/'
    · simp only [if_neg hopen, if_pos hclose]
      by_cases hlevel : level = 1
      · simp only [if_pos hlevel]
        exact .closes (by simp) rfl (by rw [hclose.1]; rfl) rfl rfl
      · simp only [if_neg hlevel]
        exact .nests level (level - 1) rfl rfl (.inr (by rw [hclose.1]; rfl)) rfl rfl
    · simp only [if_neg hopen, if_neg hclose]
      exact .stays (by simp) rfl rfl

theorem stepAt_action (s : ScanState) (c : Char) (rest : Text) : (stepAt s c rest).Action := by
  obtain ⟨mode, depth⟩ := s
  cases mode with
  | code => exact stepAt_action_code depth c rest
  | string => exact stepAt_action_quoted (by simp) rfl rfl
  | name => exact stepAt_action_quoted (by simp) rfl rfl
  | dollar tag =>
      simp only [stepAt, read, readDollar]
      split
      · rename_i hclose
        exact .closes (by simp) rfl (by rw [hclose.1]; rfl) rfl rfl
      · exact .stays (by simp) rfl rfl
  | lineComment =>
      simp only [stepAt, read, readLineComment]
      split
      · rename_i hfeed
        exact .closes (by simp) rfl (by rw [hfeed]; rfl) rfl rfl
      · exact .stays (by simp) rfl rfl
  | blockComment level => exact stepAt_action_blockComment level depth c rest

/-- In a region a step reads characters of the region. -/
theorem stepAt_cls {s : ScanState} (hs : s.mode ≠ .code) (c : Char) (rest : Text) :
    (stepAt s c rest).cls = s.mode.cls := by
  cases stepAt_action s c rest with
  | code hcode => exact absurd hcode hs
  | opens hcode => exact absurd hcode hs
  | stays _ hcls => exact hcls
  | nests level _ hbefore hcls =>
      rw [stepAt_before] at hbefore
      rw [hcls, hbefore]
      rfl
  | closes _ hcls => exact hcls

/-- What a step reads, code or quotes or comments, and where it leads to from there. -/
inductive Step.Shape (step : Step) : Prop
  | code : step.before.mode = .code → step.cls = .code → step.more = [] →
      step.after.mode = .code → step.after.depth = step.nest step.before.depth → Step.Shape step
  | quoted : (step.before.mode = .code ∨ step.before.mode.isQuoted = true) →
      step.cls.isQuoted = true →
      (step.after.mode.isQuoted = true ∨ (step.after.mode = .code ∧ step.EndsDelimiter)) →
      step.after.depth = step.before.depth → Step.Shape step
  | comment : (step.before.mode = .code ∨ step.before.mode.isComment = true) →
      step.cls = .comment → step.after.mode.isQuoted = false →
      step.after.depth = step.before.depth → Step.Shape step

theorem Step.Action.shape {step : Step} (h : step.Action) : step.Shape := by
  cases h with
  | code hbefore hcls hmore hafter hdepth => exact .code hbefore hcls hmore hafter hdepth
  | opens hbefore hafter hcls _ hdepth =>
      rcases Mode.quoted_or_comment hafter with hquoted | hcomment
      · exact .quoted (.inl hbefore) (by rw [hcls, Mode.isQuoted_cls, hquoted])
          (.inl hquoted) hdepth
      · exact .comment (.inl hbefore) (by rw [hcls, Mode.cls_of_isComment hcomment])
          (Mode.isQuoted_of_isComment hcomment) hdepth
  | stays hbefore hcls hsame =>
      rcases Mode.quoted_or_comment hbefore with hquoted | hcomment
      · exact .quoted (.inr hquoted) (by rw [hcls, Mode.isQuoted_cls, hquoted])
          (.inl (by rw [hsame, hquoted])) (by rw [hsame])
      · exact .comment (.inr hcomment) (by rw [hcls, Mode.cls_of_isComment hcomment])
          (by rw [hsame, Mode.isQuoted_of_isComment hcomment]) (by rw [hsame])
  | nests _ _ hbefore hcls _ hafter hdepth =>
      exact .comment (.inr (by rw [hbefore]; rfl)) hcls (by rw [hafter]; rfl) hdepth
  | closes hbefore hcls hchars hafter hdepth =>
      rcases Mode.quoted_or_comment hbefore with hquoted | hcomment
      · refine .quoted (.inr hquoted) (by rw [hcls, Mode.isQuoted_cls, hquoted])
          (.inr ⟨hafter, fun c hc => ?_⟩) hdepth
        rw [hchars] at hc
        exact Mode.closer_last hquoted hc
      · exact .comment (.inr hcomment) (by rw [hcls, Mode.cls_of_isComment hcomment])
          (by rw [hafter]; rfl) hdepth

theorem stepAt_shape (s : ScanState) (c : Char) (rest : Text) : (stepAt s c rest).Shape :=
  (stepAt_action s c rest).shape

/-- Steps that read code stay in code. -/
theorem Step.Shape.of_code {step : Step} (h : step.Shape) (hcls : step.cls = .code) :
    step.before.mode = .code ∧ step.more = [] ∧ step.after.mode = .code := by
  cases h with
  | code hbefore _ hmore hafter => exact ⟨hbefore, hmore, hafter⟩
  | quoted _ hquoted => simp [hcls, CharClass.isQuoted] at hquoted
  | comment _ hcomment => simp [hcls] at hcomment

theorem Step.Shape.depth_eq {step : Step} (h : step.Shape) :
    step.after.depth = step.nest step.before.depth := by
  cases h with
  | code _ _ _ _ hdepth => exact hdepth
  | quoted _ hcls _ hdepth =>
      rw [hdepth, Step.nest_of_ne_code fun hcode => by simp [hcode, CharClass.isQuoted] at hcls]
  | comment _ hcls _ hdepth => rw [hdepth, Step.nest_of_ne_code (by simp [hcls])]

theorem Trace.stepAt_of_mem {s : ScanState} {steps : List Step} {rest : Text}
    (h : Trace s steps rest) {step : Step} (hstep : step ∈ steps) :
    ∃ before c ahead, step = stepAt before c ahead := by
  induction steps generalizing s with
  | nil => cases hstep
  | cons first later ih =>
      rcases List.mem_cons.1 hstep with rfl | hstep
      · exact ⟨_, _, _, h.1.symm⟩
      · exact ih h.2 hstep

theorem Trace.shape {s : ScanState} {steps : List Step} {rest : Text} (h : Trace s steps rest) :
    ∀ step ∈ steps, step.Shape := by
  intro step hstep
  obtain ⟨before, c, ahead, rfl⟩ := h.stepAt_of_mem hstep
  exact stepAt_shape before c ahead

/-! ## Comments and white space -/

theorem Step.Shape.depth_of_inert {step : Step} (h : step.Shape)
    (hinert : step.isSignificant = false) : step.after.depth = step.before.depth := by
  rw [h.depth_eq]
  by_cases hcls : step.cls = .code
  · simp only [Step.isSignificant, hcls, Bool.not_eq_false'] at hinert
    exact Step.nest_of_blank hinert step.before.depth
  · exact Step.nest_of_ne_code hcls step.before.depth

/-- What stands in quotes is significant, white space included. -/
theorem Step.not_quoted_of_inert {step : Step} (hinert : step.isSignificant = false) :
    step.cls.isQuoted = false := by
  unfold Step.isSignificant at hinert
  cases hcls : step.cls <;> simp_all [CharClass.isQuoted]

theorem Step.Shape.before_of_inert {step : Step} (h : step.Shape)
    (hinert : step.isSignificant = false) : step.before.mode.isQuoted = false := by
  cases h with
  | code hbefore => simp [hbefore, Mode.isQuoted]
  | quoted _ hcls =>
      rw [Step.not_quoted_of_inert hinert] at hcls
      contradiction
  | comment hbefore =>
      rcases hbefore with hbefore | hbefore
      · simp [hbefore, Mode.isQuoted]
      · cases hm : step.before.mode <;> simp_all [Mode.isQuoted, Mode.isComment]

theorem Step.Shape.after_of_significant {step : Step} (h : step.Shape)
    (hsig : step.isSignificant = true) :
    step.after.mode.isComment = false ∧ (step.after.mode = .code → step.EndsSolid) := by
  cases h with
  | code _ hcls hmore hafter =>
      refine ⟨by simp [hafter, Mode.isComment], fun _ c hc => ?_⟩
      simp only [Step.chars, hmore, List.getLast?_singleton, Option.some.injEq] at hc
      simpa [Step.isSignificant, hcls, hc] using hsig
  | quoted _ _ hafter =>
      rcases hafter with hafter | ⟨hafter, hsolid⟩
      · refine ⟨?_, fun hcode => ?_⟩
        · cases hm : step.after.mode <;> simp_all [Mode.isQuoted, Mode.isComment]
        · simp [hcode, Mode.isQuoted] at hafter
      · exact ⟨by simp [hafter, Mode.isComment], fun _ => hsolid.solid⟩
  | comment _ hcls => simp [Step.isSignificant, hcls] at hsig

/-- Comments and white space change no depth and start outside quotes. -/
theorem Trace.inert {s : ScanState} {steps : List Step} {rest : Text} (h : Trace s steps rest)
    (hinert : ∀ step ∈ steps, step.isSignificant = false) :
    (lastState s steps).depth = s.depth ∧ (steps ≠ [] → s.mode.isQuoted = false) := by
  induction steps generalizing s with
  | nil => simp
  | cons step later ih =>
      obtain ⟨hstep, hlater⟩ := h
      have hbefore : step.before = s := by rw [← hstep, stepAt_before]
      have hshape : step.Shape := by
        rw [← hstep]
        exact stepAt_shape s _ _
      have hstepInert := hinert step List.mem_cons_self
      have hrec := ih hlater fun x hx => hinert x (List.mem_cons_of_mem step hx)
      refine ⟨?_, fun _ => ?_⟩
      · rw [lastState_cons, hrec.1, hshape.depth_of_inert hstepInert, hbefore]
      · rw [← hbefore]
        exact hshape.before_of_inert hstepInert

/-- White space ends line comments and no other region. -/
theorem stepAt_after_blank (s : ScanState) {c : Char} (hc : isBlank c = true) (rest : Text) :
    (stepAt s c rest).after = s ∨
      (s.mode = .lineComment ∧ c = '\n' ∧ (stepAt s c rest).after = ⟨.code, s.depth⟩) := by
  have hdepth : (stepAt s c rest).after.depth = s.depth := by
    rw [(stepAt_shape s c rest).depth_eq, Step.nest_of_blank hc, stepAt_before]
  have hsame : ∀ {mode : Mode}, (stepAt s c rest).after.mode = mode →
      (stepAt s c rest).after = ⟨mode, s.depth⟩ := by
    rintro mode rfl
    rw [← hdepth]
  cases stepAt_action s c rest with
  | code hbefore _ _ hafter => exact .inl (hsame (hafter.trans hbefore.symm))
  | opens _ _ _ hmark =>
      have hsolid : isBlank c = false := Mode.not_blank_of_mark hmark.symm
      rw [hsolid] at hc
      cases hc
  | stays _ _ hafter => exact .inl hafter
  | nests _ _ _ _ hchars =>
      rcases hchars with hchars | hchars
      · obtain ⟨rfl, -⟩ := List.cons.inj hchars
        exact absurd hc (by decide)
      · obtain ⟨rfl, -⟩ := List.cons.inj hchars
        exact absurd hc (by decide)
  | closes _ _ hchars hafter =>
      rw [stepAt_before] at hchars
      cases hmode : s.mode with
      | lineComment =>
          rw [hmode] at hchars
          exact .inr ⟨rfl, (List.cons.inj hchars).1, hsame hafter⟩
      | code =>
          rw [hmode] at hchars
          cases hchars
      | _ =>
          rw [hmode] at hchars
          obtain ⟨rfl, -⟩ := List.cons.inj hchars
          exact absurd hc (by decide)

theorem stepAt_sealed_of_blank (s : ScanState) {c : Char} (hc : isBlank c = true) (rest : Text) :
    (stepAt s c rest).Sealed := by
  have hmore : (stepAt s c rest).more = [] := read_more_of_isBreak s (isBreak_of_isBlank hc) rest
  refine ⟨fun rest' => stepAt_of_isBreak s (isBreak_of_isBlank hc) _ _, [], c, ?_, ?_⟩
  · simp [Step.chars, hmore]
  · exact isTagChar_of_isBlank hc

/-- What follows a comment or white space that ends in code changes no step before. -/
theorem stepAt_sealed {s : ScanState} {c : Char} {rest : Text}
    (hinert : (stepAt s c rest).isSignificant = false)
    (hcode : (stepAt s c rest).after.mode = .code) : (stepAt s c rest).Sealed := by
  by_cases hblank : isBlank c = true
  · exact stepAt_sealed_of_blank s hblank rest
  have hcls : (stepAt s c rest).cls = .comment := by
    unfold Step.isSignificant at hinert
    cases h : (stepAt s c rest).cls <;> simp_all
  cases stepAt_action s c rest with
  | code _ h => simp [h] at hcls
  | opens _ hafter => exact absurd hcode hafter
  | stays hbefore _ hsame => exact absurd (hsame ▸ hcode) hbefore
  | nests _ _ _ _ _ hafter => simp [hafter] at hcode
  | closes hbefore hregion hchars =>
      rw [stepAt_before] at hbefore hregion hchars
      have hcomment : s.mode.isComment = true := by
        refine (Mode.quoted_or_comment hbefore).resolve_left fun hquoted => ?_
        rw [← Mode.isQuoted_cls, ← hregion, hcls] at hquoted
        cases hquoted
      cases hmode : s.mode with
      | lineComment =>
          rw [hmode] at hchars
          obtain ⟨rfl, -⟩ := List.cons.inj hchars
          exact absurd rfl hblank
      | blockComment level =>
          rw [hmode] at hchars
          obtain ⟨rfl, hmore⟩ := List.cons.inj hchars
          refine ⟨fun rest' => stepAt_congr (read_congr ?_), ['*'], '/', hchars, by decide⟩
          have hcompletes : Completes s '*' ['/'] := by
            unfold Completes
            rw [hmode]
            exact .inr ⟨rfl, rfl⟩
          have hslash : (read s '*' rest).more = ['/'] := hmore
          change (read s '*' ((stepAt s '*' rest).more ++ rest')).more = (read s '*' rest).more
          rw [hslash, hmore]
          exact read_more_of_completes hcompletes (List.prefix_append ['/'] rest')
      | _ =>
          rw [hmode] at hcomment
          cases hcomment

theorem Trace.extend_inert {s : ScanState} {steps : List Step} {step : Step} {rest : Text}
    (h : Trace s (steps ++ [step]) rest) (hs : s.WellTagged)
    (hinert : step.isSignificant = false) (hcode : step.after.mode = .code) (rest' : Text) :
    Trace s (steps ++ [step]) rest' := by
  have hstep := (trace_append.1 h).2.1
  refine h.extend rest' hs ?_
  rw [← hstep] at hinert hcode ⊢
  exact stepAt_sealed hinert hcode

end AuroraMigration
