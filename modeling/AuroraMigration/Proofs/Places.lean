import AuroraMigration.Proofs.LastToken
import Mathlib.Data.String.Basic

/-!
# Places in bytes

A text is kept in UTF-8, where a place is a number of bytes and only some of
these numbers lie between two characters. A scan that moves by bytes adds up
widths: the bytes of one character, or one byte for each character of a
delimiter. The main statements say that it never leaves the places between
characters, so that its steps tile the text and every cut taken at one of its
places is a cut between characters; and that a text cut there is scanned again
just as it was scanned within the whole.
-/

namespace AuroraMigration

namespace Text

theorem byteSize_eq_utf8Len (text : Text) : byteSize text = String.utf8Len text := by
  induction text with
  | nil => rfl
  | cons c text ih => rw [byteSize, String.utf8Len_cons, ih, Nat.add_comm]

theorem utf8ByteSize_eq (text : Text) : (String.ofList text).utf8ByteSize = byteSize text := by
  rw [String.utf8ByteSize_ofList, byteSize_eq_utf8Len]

/-- Whether `n` bytes of its UTF-8 encoding end between two characters of the text or at an end. -/
def IsPlace (text : Text) (n : Nat) : Prop :=
  String.Pos.Raw.IsValid (String.ofList text) ⟨n⟩

instance (text : Text) (n : Nat) : Decidable (IsPlace text n) :=
  inferInstanceAs (Decidable (String.Pos.Raw.IsValid _ _))

theorem isPlace_iff (text : Text) (n : Nat) :
    IsPlace text n ↔ ∃ before after, text = before ++ after ∧ byteSize before = n := by
  unfold IsPlace
  rw [String.Pos.Raw.isValid_ofList]
  constructor
  · rintro ⟨i, hi⟩
    exact ⟨text.take i, text.drop i, (List.take_append_drop i text).symm, by
      rw [← utf8ByteSize_eq]
      exact hi.symm⟩
  · rintro ⟨before, after, rfl, rfl⟩
    exact ⟨before.length, by rw [List.take_left, utf8ByteSize_eq]⟩

/-- The characters in a range of bytes; none if its ends are not two places in this order. -/
def slice? (text : Text) (range : Nat × Nat) : Option Text :=
  if range.1 ≤ range.2 ∧ IsPlace text range.1 ∧ IsPlace text range.2 then
    some (String.Pos.Raw.extract (String.ofList text) ⟨range.1⟩ ⟨range.2⟩).toList
  else none

theorem slice?_eq_some {text before part after : Text} (h : text = before ++ part ++ after) :
    slice? text (byteSize before, byteSize (before ++ part)) = some part := by
  have hstart : IsPlace text (byteSize before) :=
    (isPlace_iff _ _).2 ⟨before, part ++ after, by rw [h, List.append_assoc], rfl⟩
  have hstop : IsPlace text (byteSize (before ++ part)) :=
    (isPlace_iff _ _).2 ⟨before ++ part, after, h, rfl⟩
  have hle : byteSize before ≤ byteSize (before ++ part) := by
    rw [byteSize_append]
    exact Nat.le_add_right _ _
  have hextract := String.extract_of_valid before part after
  rw [← h, ← String.utf8Len_append, ← byteSize_eq_utf8Len, ← byteSize_eq_utf8Len] at hextract
  rw [slice?, if_pos ⟨hle, hstart, hstop⟩, hextract, String.toList_ofList]

theorem slice?_rest {text before after : Text} (h : text = before ++ after) :
    slice? text (byteSize before, byteSize text) = some after := by
  have hcut := slice?_eq_some (h.trans (List.append_nil _).symm)
  rwa [← h] at hcut

theorem slice?_front {text before after : Text} (h : text = before ++ after) :
    slice? text (0, byteSize before) = some before :=
  slice?_eq_some (show text = [] ++ before ++ after from h)

theorem isPlace_of_slice? {text part : Text} {range : Nat × Nat}
    (h : slice? text range = some part) : IsPlace text range.1 ∧ IsPlace text range.2 := by
  unfold slice? at h
  split at h
  · rename_i hplaces
    exact hplaces.2
  · cases h

theorem lt_byteSize_of_slice? {text rest : Text} {n : Nat} {c : Char}
    (h : slice? text (n, byteSize text) = some (c :: rest)) : n < byteSize text := by
  obtain ⟨before, after, rfl, rfl⟩ := (isPlace_iff _ _).1 (isPlace_of_slice? h).1
  rw [slice?_rest rfl, Option.some.injEq] at h
  have hc := c.utf8Size_pos
  rw [h, byteSize_append, byteSize]
  omega

theorem length_le_byteSize (text : Text) : text.length ≤ byteSize text := by
  induction text with
  | nil => exact Nat.le_refl 0
  | cons c text ih =>
      have hc := c.utf8Size_pos
      rw [List.length_cons, byteSize]
      omega

theorem byteSize_eq_length {text : Text} (h : ∀ c ∈ text, c.utf8Size = 1) :
    byteSize text = text.length := by
  induction text with
  | nil => rfl
  | cons c text ih =>
      rw [byteSize, h c List.mem_cons_self, ih fun d hd => h d (List.mem_cons_of_mem c hd),
        List.length_cons, Nat.add_comm]

end Text

/-! ## Steps with their bytes -/

/-- A step and the bytes that it takes up. -/
structure PlacedStep where
  step : Step
  range : Nat × Nat
  deriving DecidableEq, Repr

namespace PlacedStep

/-- Number of bytes before the step. -/
def start (placed : PlacedStep) : Nat :=
  placed.range.1

/-- Number of bytes up to the end of the step. -/
def stop (placed : PlacedStep) : Nat :=
  placed.range.2

/-- The step as it stands behind `n` more bytes. -/
def shift (n : Nat) (placed : PlacedStep) : PlacedStep :=
  { placed with range := (n + placed.start, n + placed.stop) }

end PlacedStep

theorem length_byteRanges (offset : Nat) (steps : List Step) :
    (byteRanges offset steps).length = steps.length := by
  induction steps generalizing offset with
  | nil => rfl
  | cons step later ih => rw [byteRanges, List.length_cons, List.length_cons, ih]

/-- Consecutive steps with their bytes, the first of which starts at `offset`. -/
def placeSteps (offset : Nat) (steps : List Step) : List PlacedStep :=
  List.zipWith PlacedStep.mk steps (byteRanges offset steps)

/-- The steps of a scan with the bytes that they take up. -/
def placedSteps (sql : Text) : List PlacedStep :=
  placeSteps 0 (scan sql)

@[simp] theorem placeSteps_nil (offset : Nat) : placeSteps offset [] = [] := rfl

@[simp] theorem placeSteps_cons (offset : Nat) (step : Step) (later : List Step) :
    placeSteps offset (step :: later) =
      ⟨step, (offset, offset + Text.byteSize step.chars)⟩ ::
        placeSteps (offset + Text.byteSize step.chars) later := rfl

theorem placeSteps_append (offset : Nat) (xs ys : List Step) :
    placeSteps offset (xs ++ ys) =
      placeSteps offset xs ++ placeSteps (offset + Text.byteSize (stepsText xs)) ys := by
  induction xs generalizing offset with
  | nil => rfl
  | cons step xs ih =>
      rw [List.cons_append, placeSteps_cons, ih, stepsText_cons, Text.byteSize_append,
        Nat.add_assoc]
      rfl

theorem placeSteps_shift (n offset : Nat) (steps : List Step) :
    placeSteps (n + offset) steps = (placeSteps offset steps).map (PlacedStep.shift n) := by
  induction steps generalizing offset with
  | nil => rfl
  | cons step later ih =>
      rw [placeSteps_cons, placeSteps_cons, List.map_cons, Nat.add_assoc, ih]
      rfl

@[simp] theorem map_step_placeSteps (offset : Nat) (steps : List Step) :
    (placeSteps offset steps).map PlacedStep.step = steps := by
  induction steps generalizing offset with
  | nil => rfl
  | cons step later ih => rw [placeSteps_cons, List.map_cons, ih]

@[simp] theorem map_range_placeSteps (offset : Nat) (steps : List Step) :
    (placeSteps offset steps).map PlacedStep.range = byteRanges offset steps := by
  induction steps generalizing offset with
  | nil => rfl
  | cons step later ih =>
      rw [placeSteps_cons, List.map_cons, ih]
      rfl

theorem byteSize_stepsText_concat (xs : List Step) (step : Step) :
    Text.byteSize (stepsText (xs ++ [step])) =
      Text.byteSize (stepsText xs) + Text.byteSize step.chars := by
  simp [Text.byteSize_append]

/-- Steps with their bytes are parted as the steps are. -/
theorem placedSteps_eq_append {sql : Text} {front later : List PlacedStep} {placed : PlacedStep}
    (h : placedSteps sql = front ++ placed :: later) :
    ∃ xs ys, scan sql = xs ++ placed.step :: ys ∧ front = placeSteps 0 xs ∧
      placed.range =
        (Text.byteSize (stepsText xs), Text.byteSize (stepsText (xs ++ [placed.step]))) ∧
      later = placeSteps placed.stop ys := by
  have hsteps := congrArg (List.map PlacedStep.step) h
  rw [placedSteps, map_step_placeSteps, List.map_append, List.map_cons] at hsteps
  rw [placedSteps, hsteps, placeSteps_append, placeSteps_cons, Nat.zero_add,
    ← byteSize_stepsText_concat] at h
  have hparts := List.append_inj h (by simp [placeSteps, length_byteRanges])
  obtain ⟨hplaced, hlater⟩ := List.cons.inj hparts.2
  have hrange := congrArg PlacedStep.range hplaced.symm
  refine ⟨front.map PlacedStep.step, later.map PlacedStep.step, hsteps, hparts.1.symm, hrange, ?_⟩
  rw [PlacedStep.stop, hrange, hlater]

theorem placedStep_mem {sql : Text} {xs ys : List Step} {step : Step}
    (h : scan sql = xs ++ step :: ys) :
    ⟨step, (Text.byteSize (stepsText xs), Text.byteSize (stepsText (xs ++ [step])))⟩ ∈
      placedSteps sql := by
  rw [placedSteps, h, placeSteps_append, placeSteps_cons, Nat.zero_add, byteSize_stepsText_concat]
  exact List.mem_append_right _ List.mem_cons_self

/-- A step of a scan takes up the bytes between those of the steps around it. -/
theorem range_of_mem_placedSteps {sql : Text} {placed : PlacedStep} (h : placed ∈ placedSteps sql) :
    ∃ xs ys, scan sql = xs ++ placed.step :: ys ∧ placed.range =
      (Text.byteSize (stepsText xs), Text.byteSize (stepsText (xs ++ [placed.step]))) := by
  obtain ⟨front, later, hsplit⟩ := List.append_of_mem h
  obtain ⟨xs, ys, hscan, -, hrange, -⟩ := placedSteps_eq_append hsplit
  exact ⟨xs, ys, hscan, hrange⟩

/-! ## Scanning by bytes -/

/-- The number of bytes that a step moves on by, told from the number of its characters. -/
def Step.width (step : Step) : Nat :=
  if step.more = [] then step.first.utf8Size else step.more.length + 1

/-- Where a scan by bytes stands: the number of bytes before it, and its state. -/
structure ScanPlace where
  bytes : Nat
  state : ScanState
  deriving DecidableEq, Repr

/-- Where a scan by bytes stands behind the first steps of a scan. -/
def ScanPlace.behind (before : List Step) : ScanPlace :=
  ⟨Text.byteSize (stepsText before), lastState .start before⟩

theorem ScanPlace.behind_concat_bytes (before : List Step) (step : Step) :
    (behind (before ++ [step])).bytes = (behind before).bytes + Text.byteSize step.chars :=
  byteSize_stepsText_concat before step

/-- What a scan by bytes meets where it stands. -/
inductive Outlook where
  /-- There is no place between characters here. -/
  | astray
  /-- The text ends here. -/
  | finished
  /-- A step, and the place behind it. -/
  | step (placed : PlacedStep) (next : ScanPlace)
  deriving DecidableEq, Repr

/-- Look at the text from a place on. -/
def ScanPlace.look (sql : Text) (place : ScanPlace) : Outlook :=
  match Text.slice? sql (place.bytes, Text.byteSize sql) with
  | none => .astray
  | some [] => .finished
  | some (c :: rest) =>
      let step := stepAt place.state c rest
      let stop := place.bytes + step.width
      .step ⟨step, (place.bytes, stop)⟩ ⟨stop, step.after⟩

/-- From a place on, a scan by bytes takes these steps up to the end and never goes astray. -/
inductive ScanPlace.Reads (sql : Text) : ScanPlace → List PlacedStep → Prop
  | finished {place : ScanPlace} : place.look sql = .finished → Reads sql place []
  | step {place next : ScanPlace} {placed : PlacedStep} {later : List PlacedStep} :
      place.look sql = .step placed next → Reads sql next later → Reads sql place (placed :: later)

/-- The characters of delimiters take one byte each. -/
theorem utf8Size_of_not_isBreak {c : Char} (h : isBreak c = false) : c.utf8Size = 1 := by
  rw [Char.utf8Size_eq_one_iff, UInt32.le_iff_toNat_le]
  simp only [isBreak, Bool.not_eq_false', Bool.or_eq_true] at h
  rcases h with htag | hmark
  · delta isTagChar Char.isAlphanum Char.isAlpha Char.isUpper Char.isLower Char.isDigit at htag
    simp only [Bool.or_eq_true, Bool.and_eq_true, decide_eq_true_eq, beq_iff_eq, ge_iff_le,
      UInt32.le_iff_toNat_le] at htag
    rcases htag with ((htag | htag) | htag) | rfl
    · exact htag.2.trans (by decide)
    · exact htag.2.trans (by decide)
    · exact htag.2.trans (by decide)
    · decide
  · simp only [List.contains_eq_mem, decide_eq_true_eq, List.mem_cons, List.not_mem_nil,
      or_false] at hmark
    rcases hmark with rfl | rfl | rfl | rfl | rfl | rfl <;> decide

/-- The width of a step is the number of bytes of its characters. -/
theorem stepAt_width {s : ScanState} (hs : s.WellTagged) (c : Char) (rest : Text) :
    (stepAt s c rest).width = Text.byteSize (stepAt s c rest).chars := by
  have hfinds := read_finds s c rest
  change (read s c rest).Finds _ _ at hfinds
  rcases hfinds with ⟨hmore, -⟩ | ⟨hmore, -⟩
  · have hnone : (stepAt s c rest).more = [] := hmore
    simp [Step.width, hnone, Step.chars, Text.byteSize]
  · have hfirst := utf8Size_of_not_isBreak (completes_first hmore)
    obtain ⟨tag, d, hmark, htag, hd⟩ := completes_chars hs hmore
    have hchars : ∀ e ∈ tag ++ [d], e.utf8Size = 1 := by
      intro e he
      rcases List.mem_append.1 he with he | he
      · exact utf8Size_of_not_isBreak (isBreak_of_isTagChar (htag e he))
      · rw [List.mem_singleton.1 he]
        exact utf8Size_of_not_isBreak hd
    have hsome : (stepAt s c rest).more = tag ++ [d] := hmark
    have hne : tag ++ [d] ≠ [] := by simp
    rw [Step.width, Step.chars, hsome, if_neg hne, Text.byteSize, Text.byteSize_eq_length hchars,
      stepAt_first, hfirst, Nat.add_comm]

/-- Behind some steps of the scan, a scan by bytes takes the next one. -/
theorem look_of_step {sql : Text} {before later : List Step} {step : Step}
    (h : scan sql = before ++ step :: later) :
    ScanPlace.look sql (.behind before) =
      .step ⟨step, ((ScanPlace.behind before).bytes, (ScanPlace.behind (before ++ [step])).bytes)⟩
        (.behind (before ++ [step])) := by
  have htrace := trace_scan sql
  rw [h, trace_append] at htrace
  obtain ⟨hbefore, hstep, -⟩ := htrace
  rw [List.append_nil] at hstep
  have hwidth : step.width = Text.byteSize step.chars := by
    rw [← hstep]
    exact stepAt_width (hbefore.wellTagged wellTagged_start) _ _
  have hsql : sql = stepsText before ++ stepsText (step :: later) := by
    rw [← stepsText_append, ← h, stepsText_scan]
  have hslice : Text.slice? sql (Text.byteSize (stepsText before), Text.byteSize sql) =
      some (step.first :: (step.more ++ stepsText later)) :=
    Text.slice?_rest hsql
  simp [ScanPlace.look, ScanPlace.behind, hslice, hstep, hwidth, Text.byteSize_append]

theorem look_at_end (sql : Text) : ScanPlace.look sql (.behind (scan sql)) = .finished := by
  have hslice := Text.slice?_rest (List.append_nil sql).symm
  simp [ScanPlace.look, ScanPlace.behind, hslice]

/-- Behind some steps of the scan, a scan by bytes takes all later ones and finishes. -/
theorem reads_from {sql : Text} {before later : List Step} (h : scan sql = before ++ later) :
    ScanPlace.Reads sql (.behind before) (placeSteps (ScanPlace.behind before).bytes later) := by
  induction later generalizing before with
  | nil =>
      rw [List.append_nil] at h
      rw [← h]
      exact .finished (look_at_end sql)
  | cons step later ih =>
      have hlook := look_of_step h
      have hscan : scan sql = before ++ [step] ++ later := by
        rw [h, List.append_cons]
      have hnext := ih hscan
      rw [ScanPlace.behind_concat_bytes] at hlook hnext
      exact .step hlook hnext

theorem reads_placedSteps (sql : Text) :
    ScanPlace.Reads sql ⟨0, .start⟩ (placedSteps sql) :=
  reads_from (List.nil_append _).symm

/-! ## Tiles -/

/-- The ranges follow each other from `start` to `stop` without a gap, and none of them is empty. -/
def Tiles (stop : Nat) : (start : Nat) → List (Nat × Nat) → Prop
  | start, [] => start = stop
  | start, range :: later => range.1 = start ∧ range.1 < range.2 ∧ Tiles stop range.2 later

theorem Step.byteSize_chars_pos (step : Step) : 0 < Text.byteSize step.chars := by
  have hfirst := step.first.utf8Size_pos
  simp only [Step.chars, Text.byteSize]
  omega

theorem tiles_byteRanges (offset : Nat) (steps : List Step) :
    Tiles (offset + Text.byteSize (stepsText steps)) offset (byteRanges offset steps) := by
  induction steps generalizing offset with
  | nil => rfl
  | cons step later ih =>
      have hpos := step.byteSize_chars_pos
      have hlater := ih (offset + Text.byteSize step.chars)
      rw [Nat.add_assoc, ← Text.byteSize_append, ← stepsText_cons] at hlater
      exact ⟨rfl, Nat.lt_add_of_pos_right hpos, hlater⟩

theorem slice?_of_scan {sql : Text} {before part after : List Step}
    (h : scan sql = before ++ (part ++ after)) :
    Text.slice? sql
        (Text.byteSize (stepsText before), Text.byteSize (stepsText (before ++ part))) =
      some (stepsText part) := by
  have hsql : sql = stepsText before ++ stepsText part ++ stepsText after := by
    rw [List.append_assoc, ← stepsText_append, ← stepsText_append, ← h, stepsText_scan]
  rw [stepsText_append before part]
  exact Text.slice?_eq_some hsql

theorem slice?_placedStep {sql : Text} {placed : PlacedStep} (h : placed ∈ placedSteps sql) :
    Text.slice? sql placed.range = some placed.step.chars := by
  obtain ⟨xs, ys, hscan, hrange⟩ := range_of_mem_placedSteps h
  rw [← List.singleton_append] at hscan
  have hslice := slice?_of_scan hscan
  rw [← hrange] at hslice
  simpa using hslice

/-! ## Cuts at the places of steps -/

/--
The ranges of bytes between separators outside all parentheses.

The first of them starts at `start` and the last of them ends at `stop`.
-/
def rangesBetween (separator : Char) (stop : Nat) : (start : Nat) → List PlacedStep →
    List (Nat × Nat)
  | start, [] => [(start, stop)]
  | start, placed :: later =>
      if placed.step.isTopLevel separator then
        (start, placed.start) :: rangesBetween separator stop placed.stop later
      else rangesBetween separator stop start later

theorem rangesBetween_append {separator : Char} {part : List Step}
    (h : ∀ step ∈ part, step.isTopLevel separator = false) (stop start offset : Nat)
    (later : List PlacedStep) :
    rangesBetween separator stop start (placeSteps offset part ++ later) =
      rangesBetween separator stop start later := by
  induction part generalizing offset with
  | nil => rfl
  | cons step part ih =>
      have hstep := h step List.mem_cons_self
      rw [placeSteps_cons, List.cons_append, rangesBetween, hstep, if_neg Bool.false_ne_true]
      exact ih (fun x hx => h x (List.mem_cons_of_mem step hx)) _

/-- The pieces between separators are cut out at the places of the separators. -/
theorem SplitsOn.slices {separator : Char} {steps : List Step} {parts : List (List Step)}
    (h : SplitsOn (Step.isTopLevel separator) steps parts) {sql : Text} {before : List Step}
    (hscan : scan sql = before ++ steps) :
    (rangesBetween separator (Text.byteSize sql) (Text.byteSize (stepsText before))
        (placeSteps (Text.byteSize (stepsText before)) steps)).map (Text.slice? sql) =
      parts.map (some ∘ stepsText) := by
  induction h generalizing before with
  | @last part hpart =>
      have hranges := rangesBetween_append hpart (Text.byteSize sql)
        (Text.byteSize (stepsText before)) (Text.byteSize (stepsText before)) []
      rw [List.append_nil] at hranges
      have hsql : sql = stepsText before ++ stepsText part := by
        rw [← stepsText_append, ← hscan, stepsText_scan]
      rw [hranges, rangesBetween, List.map_singleton, Text.slice?_rest hsql]
      rfl
  | @cut part rest x parts hpart hx _ ih =>
      have hslice := slice?_of_scan hscan
      have hbehind : scan sql = before ++ part ++ [x] ++ rest := by
        rw [hscan]
        simp
      have hrest := ih hbehind
      have hplace : Text.byteSize (stepsText before) + Text.byteSize (stepsText part) =
          Text.byteSize (stepsText (before ++ part)) := by
        rw [stepsText_append, Text.byteSize_append]
      rw [placeSteps_append, rangesBetween_append hpart, placeSteps_cons, rangesBetween,
        if_pos hx, hplace, ← byteSize_stepsText_concat, List.map_cons, List.map_cons]
      exact congrArg₂ List.cons hslice hrest

theorem slices_piecesAt (separator : Char) (sql : Text) :
    (rangesBetween separator (Text.byteSize sql) 0 (placedSteps sql)).map (Text.slice? sql) =
      (piecesAt separator sql).map some := by
  have hsplit := splitsOn_splitOnP (Step.isTopLevel separator) (scan sql)
  rw [piecesAt, List.map_map]
  exact hsplit.slices (List.nil_append _).symm

/-- The end of the last step that is neither comment nor white space. -/
def significantEnd (steps : List PlacedStep) : Nat :=
  ((steps.filter fun placed => placed.step.isSignificant).getLast?.map PlacedStep.stop).getD 0

theorem significantEnd_placeSteps (steps : List Step) :
    significantEnd (placeSteps 0 steps) = Text.byteSize (stepsText (significantPart steps)) := by
  obtain ⟨tail, hsplit, htail⟩ := significantPart_split steps
  have hinert : ∀ offset, (placeSteps offset tail).filter (fun p => p.step.isSignificant) = [] := by
    intro offset
    rw [List.filter_eq_nil_iff]
    intro placed hplaced
    have hmem := List.mem_map_of_mem (f := PlacedStep.step) hplaced
    rw [map_step_placeSteps] at hmem
    simp [htail _ hmem]
  have hkept : significantEnd (placeSteps 0 steps) =
      significantEnd (placeSteps 0 (significantPart steps)) := by
    conv_lhs => rw [hsplit]
    rw [significantEnd, placeSteps_append, List.filter_append, hinert, List.append_nil]
    rfl
  rw [hkept]
  rcases List.eq_nil_or_concat (significantPart steps) with hnil | ⟨front, step, hlast⟩
  · rw [hnil]
    rfl
  · rw [List.concat_eq_append] at hlast
    have hsig : step.isSignificant = true :=
      significantPart_last (by rw [hlast, List.getLast?_concat])
    rw [hlast, significantEnd, placeSteps_append, List.filter_append, placeSteps_cons,
      placeSteps_nil, List.filter_cons_of_pos (by exact hsig), List.filter_nil,
      List.getLast?_concat, byteSize_stepsText_concat]
    simp [PlacedStep.stop]

theorem tokenAt_of_mem {offset : Nat} {steps : List Step} {token : Token}
    (h : token ∈ tokensFrom offset steps) :
    ∃ before after xs ts ys, TokenAt offset steps before token after xs ts ys := by
  obtain ⟨before, after, htokens⟩ := List.append_of_mem h
  exact ⟨before, after, tokenAt_of_tokensFrom htokens⟩

/-- A token takes up the bytes of the steps that it is made of. -/
theorem TokenAt.byteRange {sql : Text} {before after : List Token} {token : Token}
    {xs ts ys : List Step} (h : TokenAt 0 (scan sql) before token after xs ts ys) :
    token.byteRange sql =
      (Text.byteSize (stepsText xs), Text.byteSize (stepsText (xs ++ ts))) := by
  have hstart := h.start
  have hstop := h.length
  rw [Nat.zero_add] at hstart hstop
  have hsql : sql = stepsText xs ++ (stepsText ts ++ stepsText ys) := by
    rw [← stepsText_append, ← stepsText_append, ← h.split, stepsText_scan]
  have hsql' : sql = stepsText (xs ++ ts) ++ stepsText ys := by
    rw [hsql, stepsText_append, List.append_assoc]
  rw [Token.byteRange, ← hstart, ← hstop]
  congr 2
  · rw [hsql, List.take_left]
  · rw [hsql', List.take_left]

/-- A token is cut out between the start of one step and the end of another. -/
theorem slice?_token {sql : Text} {token : Token} (h : token ∈ tokenize sql) :
    (∃ first ∈ placedSteps sql, ∃ last ∈ placedSteps sql,
      token.byteRange sql = (first.start, last.stop)) ∧
      Text.slice? sql (token.byteRange sql) = some token.text := by
  obtain ⟨before, after, xs, ts, ys, hat⟩ := tokenAt_of_mem h
  rw [hat.byteRange, ← hat.text]
  refine ⟨?_, slice?_of_scan hat.split⟩
  obtain ⟨first, inner, hfirst⟩ := List.exists_cons_of_ne_nil hat.nonempty
  obtain ⟨front, last, hlast⟩ := (List.eq_nil_or_concat' ts).resolve_left hat.nonempty
  have hstart : scan sql = xs ++ first :: (inner ++ ys) := by
    rw [hat.split, hfirst, List.cons_append]
  have hstop : scan sql = (xs ++ front) ++ last :: ys := by
    rw [hat.split, hlast]
    simp
  refine ⟨_, placedStep_mem hstart, _, placedStep_mem hstop, ?_⟩
  rw [hlast, ← List.append_assoc]
  rfl

/--
The steps of a scan tile the text, at places between characters.

A scan that moves by bytes never goes astray and takes these steps. They follow
each other without a gap from the start to the end of the UTF-8 encoding, and the
slices at their ends make up the text. So do the cuts taken at these places: the
pieces between separators, the tokens, and the text without the comments and the
white space at its end.
-/
theorem steps_tile_text (sql : Text) :
    ScanPlace.Reads sql ⟨0, .start⟩ (placedSteps sql) ∧
      Tiles (String.ofList sql).utf8ByteSize 0 ((placedSteps sql).map PlacedStep.range) ∧
      (∀ placed ∈ placedSteps sql, Text.IsPlace sql placed.start ∧ Text.IsPlace sql placed.stop ∧
        Text.slice? sql placed.range = some placed.step.chars) ∧
      (placedSteps sql).flatMap (fun placed => placed.step.chars) = sql ∧
      (∀ separator, (rangesBetween separator (Text.byteSize sql) 0 (placedSteps sql)).map
        (Text.slice? sql) = (piecesAt separator sql).map some) ∧
      (∀ token ∈ tokenize sql,
        (∃ first ∈ placedSteps sql, ∃ last ∈ placedSteps sql,
          token.byteRange sql = (first.start, last.stop)) ∧
        Text.slice? sql (token.byteRange sql) = some token.text) ∧
      Text.slice? sql (0, significantEnd (placedSteps sql)) = some (trimComments sql) := by
  refine ⟨reads_placedSteps sql, ?_, fun placed hplaced => ?_, ?_,
    fun separator => slices_piecesAt separator sql, fun token htoken => slice?_token htoken, ?_⟩
  · have htiles := tiles_byteRanges 0 (scan sql)
    rw [stepsText_scan, Nat.zero_add] at htiles
    rw [placedSteps, map_range_placeSteps, Text.utf8ByteSize_eq]
    exact htiles
  · have hslice := slice?_placedStep hplaced
    obtain ⟨hstart, hstop⟩ := Text.isPlace_of_slice? hslice
    exact ⟨hstart, hstop, hslice⟩
  · have htext : ((placedSteps sql).map PlacedStep.step).flatMap Step.chars = sql := by
      rw [placedSteps, map_step_placeSteps]
      exact stepsText_scan sql
    rwa [List.flatMap_map] at htext
  · obtain ⟨rest, hrest⟩ := trimComments_isPrefix sql
    rw [placedSteps, significantEnd_placeSteps]
    exact Text.slice?_front hrest.symm

/-- In a string and in a word that looks like a tag, characters that take two bytes. -/
theorem steps_tile_text_accents :
    (∃ placed ∈ placedSteps "'é'$ñ$".toList, placed.range = (1, 3) ∧
      Text.IsPlace "'é'$ñ$".toList 1 ∧ Text.IsPlace "'é'$ñ$".toList 3 ∧
      ¬ Text.IsPlace "'é'$ñ$".toList 2 ∧
      Text.slice? "'é'$ñ$".toList (1, 3) = some ['é']) ∧
    ∃ token ∈ tokenize "'é'$ñ$".toList, token.byteRange "'é'$ñ$".toList = (4, 8) ∧
      Text.slice? "'é'$ñ$".toList (4, 8) = some "$ñ$".toList := by
  have hplaced : ⟨⟨'é', [], .string, ⟨.string, 0⟩, ⟨.string, 0⟩⟩, (1, 3)⟩ ∈
      placedSteps "'é'$ñ$".toList := by
    decide +kernel
  have htoken : ⟨.word, "$ñ$".toList, 3⟩ ∈ tokenize "'é'$ñ$".toList := by decide +kernel
  obtain ⟨-, -, hsteps, -, -, htokens, -⟩ := steps_tile_text "'é'$ñ$".toList
  obtain ⟨hstart, hstop, hslice⟩ := hsteps _ hplaced
  exact ⟨⟨_, hplaced, rfl, hstart, hstop, by decide +kernel, hslice⟩,
    ⟨_, htoken, by decide +kernel, (htokens _ htoken).2⟩⟩

/-! ## Scanning again what is cut out -/

theorem start_of_mem_placeSteps {offset : Nat} {steps : List Step} {placed : PlacedStep}
    (h : placed ∈ placeSteps offset steps) :
    offset ≤ placed.start ∧ placed.start < offset + Text.byteSize (stepsText steps) := by
  induction steps generalizing offset with
  | nil => cases h
  | cons step later ih =>
      have hpos := step.byteSize_chars_pos
      rw [stepsText_cons, Text.byteSize_append]
      rcases List.mem_cons.1 h with rfl | h
      · simp only [PlacedStep.start]
        omega
      · have hlater := ih h
        omega

/-- The steps before a step are those that start before it. -/
theorem filter_before {sql : Text} {front later : List PlacedStep} {placed : PlacedStep}
    (h : placedSteps sql = front ++ placed :: later) :
    (placedSteps sql).filter (·.start < placed.start) = front := by
  obtain ⟨xs, ys, -, rfl, hrange, rfl⟩ := placedSteps_eq_append h
  have hstart : placed.start = Text.byteSize (stepsText xs) := congrArg Prod.fst hrange
  have hstop : placed.start ≤ placed.stop := by
    rw [hstart, PlacedStep.stop, hrange, byteSize_stepsText_concat]
    omega
  rw [h, List.filter_append, List.filter_eq_self.2, List.filter_eq_nil_iff.2, List.append_nil]
  · intro x hx
    rcases List.mem_cons.1 hx with rfl | hx
    · simp
    · have hbehind := (start_of_mem_placeSteps hx).1
      simp only [decide_eq_true_eq]
      omega
  · intro x hx
    have hbefore := (start_of_mem_placeSteps hx).2
    simp only [decide_eq_true_eq]
    omega

/--
What is cut out of a text is scanned as it was within the text.

Behind a step that leaves a scan in code outside all parentheses, the steps of
the rest of the text are the steps that remain, at places shifted by the bytes
that are cut off. Before any step, a separator in code as much as any other, the
steps of the text up to it are those that start before it.
-/
theorem cut_text_scans_alike (sql : Text) :
    (∀ taken last remaining, placedSteps sql = taken ++ last :: remaining →
      last.step.after = .start →
        (Text.slice? sql (last.stop, Text.byteSize sql)).map
          (fun tail => (placedSteps tail).map (PlacedStep.shift last.stop)) = some remaining) ∧
    ∀ next ∈ placedSteps sql,
      (Text.slice? sql (0, next.start)).map placedSteps =
        some ((placedSteps sql).filter (·.start < next.start)) := by
  constructor
  · intro taken last remaining h hstart
    obtain ⟨xs, ys, hscan, -, hrange, rfl⟩ := placedSteps_eq_append h
    have htrace := trace_scan sql
    rw [hscan, trace_append, trace_cons, hstart] at htrace
    have hagain : scan (stepsText ys) = ys := scan_stepsText htrace.2.2
    have hsql : sql = stepsText (xs ++ [last.step]) ++ stepsText ys := by
      rw [← stepsText_append, List.append_assoc, List.singleton_append, ← hscan, stepsText_scan]
    have hslice := Text.slice?_rest hsql
    have hstop : last.stop = Text.byteSize (stepsText (xs ++ [last.step])) :=
      congrArg Prod.snd hrange
    rw [hstop, hslice, Option.map_some, placedSteps, hagain, ← placeSteps_shift, Nat.add_zero]
  · intro next hnext
    obtain ⟨front, later, hsplit⟩ := List.append_of_mem hnext
    obtain ⟨xs, ys, hscan, hfront, hrange, -⟩ := placedSteps_eq_append hsplit
    have htrace := trace_scan sql
    rw [hscan, trace_append] at htrace
    have hagain : scan (stepsText xs) = xs := scan_stepsText htrace.1
    have hsql : sql = stepsText xs ++ stepsText (next.step :: ys) := by
      rw [← stepsText_append, ← hscan, stepsText_scan]
    have hslice := Text.slice?_front hsql
    have hstart : next.start = Text.byteSize (stepsText xs) := congrArg Prod.fst hrange
    rw [filter_before hsplit, hstart, hslice, Option.map_some, placedSteps, hagain, hfront]

/-- A semicolon between a dollar sign that starts no tag and one that starts a tag. -/
theorem cut_text_scans_alike_tag :
    (Text.slice? "é$a;$b$,$b$x".toList (5, 13)).map
        (fun tail => (placedSteps tail).map (PlacedStep.shift 5)) =
      some ((placedSteps "é$a;$b$,$b$x".toList).drop 4) ∧
    (Text.slice? "é$a;$b$,$b$x".toList (0, 4)).map placedSteps =
      some ((placedSteps "é$a;$b$,$b$x".toList).filter (·.start < 4)) := by
  have hsplit : placedSteps "é$a;$b$,$b$x".toList =
      (placedSteps "é$a;$b$,$b$x".toList).take 3 ++ ⟨codeStep 0 ';', (4, 5)⟩ ::
        (placedSteps "é$a;$b$,$b$x".toList).drop 4 := by
    decide +kernel
  have hmem : ⟨codeStep 0 ';', (4, 5)⟩ ∈ placedSteps "é$a;$b$,$b$x".toList := by
    decide +kernel
  obtain ⟨hbehind, hbefore⟩ := cut_text_scans_alike "é$a;$b$,$b$x".toList
  exact ⟨hbehind _ _ _ hsplit rfl, hbefore _ hmem⟩

end AuroraMigration
