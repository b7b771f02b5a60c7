import AuroraMigration.Proofs.Places

/-!
# Counters of 32 bits

A scan counts the parentheses and the comments that are open, and its counters
have no bound. A machine keeps such a counter in 32 bits, where a sum that does
not fit either goes on from the other end of the range or stops the program. Here
the scan is stated once more with counters of that width. The main statement says
that on a text of fewer than 2^32 bytes no counter leaves its range, so that the
steps are those of the scan without bounds: an open parenthesis has taken up a
byte and an open comment two, and the counters stay below the place in bytes.
The last statement says that in longer texts a counter can come back to zero.
-/

namespace AuroraMigration

/-! ## What the counters come to -/

/-- Number of block comments that a scan stands in. -/
def ScanState.level (s : ScanState) : Nat :=
  match s.mode with
  | .blockComment level => level
  | _ => 0

/-- What holds of the counters of a scan that has read `bytes` bytes. -/
structure ScanState.Counts (s : ScanState) (bytes : Nat) : Prop where
  level_pos : ∀ level, s.mode = .blockComment level → 1 ≤ level
  /-- An open parenthesis has taken up a byte, and an open comment two. -/
  le_bytes : s.depth + 2 * s.level ≤ bytes

theorem ScanState.Counts.mono {s : ScanState} {m n : Nat} (h : s.Counts m) (hmn : m ≤ n) :
    s.Counts n :=
  ⟨h.level_pos, Nat.le_trans h.le_bytes hmn⟩

theorem ScanState.Counts.depth_le {s : ScanState} {n : Nat} (h : s.Counts n) : s.depth ≤ n :=
  Nat.le_trans (Nat.le_add_right _ _) h.le_bytes

theorem ScanState.counts_blockComment {level depth n : Nat} (hlevel : 1 ≤ level)
    (h : depth + 2 * level ≤ n) : (⟨.blockComment level, depth⟩ : ScanState).Counts n := by
  refine ⟨fun inner hinner => ?_, h⟩
  cases hinner
  exact hlevel

theorem ScanState.counts_of_depth_le {mode : Mode} (hmode : ∀ level, mode ≠ .blockComment level)
    {depth n : Nat} (h : depth ≤ n) : (⟨mode, depth⟩ : ScanState).Counts n := by
  refine ⟨fun level hlevel => absurd hlevel (hmode level), ?_⟩
  cases mode with
  | blockComment level => exact absurd rfl (hmode level)
  | _ => exact h

theorem ScanState.counts_start : ScanState.start.Counts 0 :=
  counts_of_depth_le (by simp) (Nat.le_refl 0)

theorem readCode_counts {depth n : Nat} (h : depth ≤ n) (c : Char) (rest : Text) :
    (readCode depth c rest).after.Counts (n + ((readCode depth c rest).more.length + 1)) := by
  unfold readCode
  split
  case h_3 => split <;> exact ScanState.counts_of_depth_le (by simp) (by omega)
  case h_4 =>
    split
    · exact ScanState.counts_blockComment (Nat.le_refl 1) (show depth + 2 * 1 ≤ n + 2 by omega)
    · exact ScanState.counts_of_depth_le (by simp) (by omega)
  case h_5 => split <;> exact ScanState.counts_of_depth_le (by simp) (by omega)
  all_goals exact ScanState.counts_of_depth_le (by simp) (by omega)

theorem readQuoted_counts (quote : Char) {inside : Mode}
    (hinside : ∀ level, inside ≠ .blockComment level) (cls : CharClass) {depth n : Nat}
    (h : depth ≤ n) (c : Char) (rest : Text) :
    (readQuoted quote inside cls depth c rest).after.Counts n := by
  unfold readQuoted
  split
  · split
    · exact ScanState.counts_of_depth_le hinside h
    · exact ScanState.counts_of_depth_le (by simp) h
  · exact ScanState.counts_of_depth_le hinside h

theorem readBlockComment_counts {level depth n : Nat} (hlevel : 1 ≤ level)
    (h : depth + 2 * level ≤ n) (c : Char) (rest : Text) :
    (readBlockComment level depth c rest).after.Counts
      (n + ((readBlockComment level depth c rest).more.length + 1)) := by
  unfold readBlockComment
  split
  · exact ScanState.counts_blockComment (Nat.le_add_left 1 level)
      (show depth + 2 * (level + 1) ≤ n + 2 by omega)
  · split
    · by_cases hone : level = 1
      · rw [if_pos hone]
        exact ScanState.counts_of_depth_le (by simp) (by omega)
      · rw [if_neg hone]
        exact ScanState.counts_blockComment (by omega) (by omega)
    · exact ScanState.counts_blockComment hlevel (by omega)

/-- A step adds no more to the counters than it has characters. -/
theorem stepAt_counts {s : ScanState} {n : Nat} (h : s.Counts n) (c : Char) (rest : Text) :
    (stepAt s c rest).after.Counts (n + (stepAt s c rest).chars.length) := by
  obtain ⟨mode, depth⟩ := s
  have hdepth : depth ≤ n := h.depth_le
  cases mode with
  | code => exact readCode_counts hdepth c rest
  | string => exact (readQuoted_counts _ (by simp) _ hdepth c rest).mono (Nat.le_add_right n _)
  | name => exact (readQuoted_counts _ (by simp) _ hdepth c rest).mono (Nat.le_add_right n _)
  | dollar tag =>
      simp only [stepAt, read, readDollar]
      split <;> exact ScanState.counts_of_depth_le (by simp) (by omega)
  | lineComment =>
      simp only [stepAt, read, readLineComment]
      split <;> exact ScanState.counts_of_depth_le (by simp) (by omega)
  | blockComment level => exact readBlockComment_counts (h.level_pos level rfl) h.le_bytes c rest

/-- The counters stay below the number of bytes that are read. -/
theorem Trace.counts {s : ScanState} {steps : List Step} {rest : Text} (h : Trace s steps rest)
    {n : Nat} (hs : s.Counts n) :
    (lastState s steps).Counts (n + Text.byteSize (stepsText steps)) := by
  induction steps generalizing s n with
  | nil => exact hs
  | cons step later ih =>
      have hstep := stepAt_counts hs step.first (step.more ++ (stepsText later ++ rest))
      rw [h.1] at hstep
      have hbytes := Text.length_le_byteSize step.chars
      rw [lastState_cons, stepsText_cons, Text.byteSize_append, ← Nat.add_assoc]
      exact ih h.2 (hstep.mono (by omega))

theorem ScanPlace.behind_counts {sql : Text} {before later : List Step}
    (h : scan sql = before ++ later) :
    (behind before).state.Counts (behind before).bytes := by
  have htrace := trace_scan sql
  rw [h, trace_append] at htrace
  have hcounts := htrace.1.counts ScanState.counts_start
  rwa [Nat.zero_add] at hcounts

/-! ## Counting in 32 bits -/

/-- What becomes of a counter that would leave its range. -/
inductive Overflow where
  /-- It goes on from the other end of the range. -/
  | wraps
  /-- There is no result, and the scan is given up. -/
  | stops
  deriving DecidableEq, Repr

namespace Overflow

/-- The sum of two counters. -/
def add? (overflow : Overflow) (a b : UInt32) : Option UInt32 :=
  match overflow with
  | .wraps => some (a + b)
  | .stops => if a.toNat + b.toNat < 2 ^ 32 then some (a + b) else none

/-- The difference of two counters. -/
def sub? (overflow : Overflow) (a b : UInt32) : Option UInt32 :=
  match overflow with
  | .wraps => some (a - b)
  | .stops => if b ≤ a then some (a - b) else none

theorem add?_of_lt (overflow : Overflow) {a b : UInt32} (h : a.toNat + b.toNat < 2 ^ 32) :
    overflow.add? a b = some (a + b) := by
  cases overflow with
  | wraps => rfl
  | stops => exact if_pos h

theorem sub?_of_le (overflow : Overflow) {a b : UInt32} (h : b ≤ a) :
    overflow.sub? a b = some (a - b) := by
  cases overflow with
  | wraps => rfl
  | stops => exact if_pos h

end Overflow

theorem toNat_succ {a : UInt32} (h : a.toNat + 1 < 2 ^ 32) : (a + 1).toNat = a.toNat + 1 := by
  rw [UInt32.toNat_add, UInt32.toNat_one, Nat.mod_eq_of_lt h]

theorem toNat_saturating (a : UInt32) : (if a = 0 then 0 else a - 1).toNat = a.toNat - 1 := by
  split
  · rename_i h
    rw [h]
    rfl
  · rename_i h
    have hpos : 0 < a.toNat := Nat.pos_of_ne_zero fun hz => h (UInt32.toNat_inj.1 hz)
    exact UInt32.toNat_sub_of_le _ _ (UInt32.le_iff_toNat_le.2 hpos)

/-!
## The scan with counters of 32 bits

It is stated on its own and uses no step of the scan that it is compared with.
-/

namespace Narrow

/-- The lexical region a scan stands in between two steps. -/
inductive Mode where
  | code
  | string
  | name
  | dollar (tag : Text)
  | lineComment
  | blockComment (level : UInt32)
  deriving DecidableEq, Repr

/-- Between two steps a scan knows its region and how many parentheses are open. -/
structure State where
  mode : Mode
  depth : UInt32
  deriving DecidableEq, Repr

/-- Number of block comments that a scan stands in. -/
def State.level (s : State) : UInt32 :=
  match s.mode with
  | .blockComment level => level
  | _ => 0

/-- What a step reads beyond its first character, what it is, and the state it leads to. -/
structure Reading where
  more : Text := []
  cls : CharClass
  after : State

/--
The step that reads `c` outside all regions.

Only an opening parenthesis can overflow; a closing one leaves zero as it is.
-/
def readCode? (overflow : Overflow) (depth : UInt32) (c : Char) (rest : Text) : Option Reading :=
  match c with
  | '\'' => some { cls := .string, after := ⟨.string, depth⟩ }
  | '"' => some { cls := .name, after := ⟨.name, depth⟩ }
  | '-' =>
      match rest with
      | '-' :: _ => some { more := ['-'], cls := .comment, after := ⟨.lineComment, depth⟩ }
      | _ => some { cls := .code, after := ⟨.code, depth⟩ }
  | '/' =>
      match rest with
      | '*' :: _ => some { more := ['*'], cls := .comment, after := ⟨.blockComment 1, depth⟩ }
      | _ => some { cls := .code, after := ⟨.code, depth⟩ }
  | '$' =>
      match dollarTag? rest with
      | some tag =>
          some { more := tag ++ ['$'], cls := .dollar, after := ⟨.dollar tag, depth⟩ }
      | none => some { cls := .code, after := ⟨.code, depth⟩ }
  | '(' => (overflow.add? depth 1).map fun deeper => { cls := .code, after := ⟨.code, deeper⟩ }
  | ')' => some { cls := .code, after := ⟨.code, if depth = 0 then 0 else depth - 1⟩ }
  | _ => some { cls := .code, after := ⟨.code, depth⟩ }

/-- The step that reads `c` between quotes. -/
def readQuoted (quote : Char) (inside : Mode) (cls : CharClass) (depth : UInt32) (c : Char)
    (rest : Text) : Reading :=
  if c = quote then
    if rest.head? = some quote then { more := [quote], cls, after := ⟨inside, depth⟩ }
    else { cls, after := ⟨.code, depth⟩ }
  else { cls, after := ⟨inside, depth⟩ }

/-- The step that reads `c` in a dollar quote. -/
def readDollar (tag : Text) (depth : UInt32) (c : Char) (rest : Text) : Reading :=
  if c = '$' ∧ (tag ++ ['$']).isPrefixOf rest then
    { more := tag ++ ['$'], cls := .dollar, after := ⟨.code, depth⟩ }
  else { cls := .dollar, after := ⟨.dollar tag, depth⟩ }

/-- The step that reads `c` in a line comment. -/
def readLineComment (depth : UInt32) (c : Char) : Reading :=
  if c = '\n' then { cls := .comment, after := ⟨.code, depth⟩ }
  else { cls := .comment, after := ⟨.lineComment, depth⟩ }

/-- The step that reads `c` in a block comment; at level zero, closing one overflows too. -/
def readBlockComment? (overflow : Overflow) (level depth : UInt32) (c : Char) (rest : Text) :
    Option Reading :=
  if c = '/' ∧ rest.head? = some '*' then
    (overflow.add? level 1).map fun deeper =>
      { more := ['*'], cls := .comment, after := ⟨.blockComment deeper, depth⟩ }
  else if c = '*' ∧ rest.head? = some '/' then
    if level = 1 then some { more := ['/'], cls := .comment, after := ⟨.code, depth⟩ }
    else (overflow.sub? level 1).map fun outer =>
      { more := ['/'], cls := .comment, after := ⟨.blockComment outer, depth⟩ }
  else some { cls := .comment, after := ⟨.blockComment level, depth⟩ }

/-- What is read at the character `c` with `rest` ahead, unless a counter overflows. -/
def State.read? (overflow : Overflow) (s : State) (c : Char) (rest : Text) : Option Reading :=
  match s.mode with
  | .code => readCode? overflow s.depth c rest
  | .string => some (readQuoted '\'' .string .string s.depth c rest)
  | .name => some (readQuoted '"' .name .name s.depth c rest)
  | .dollar tag => some (readDollar tag s.depth c rest)
  | .lineComment => some (readLineComment s.depth c)
  | .blockComment level => readBlockComment? overflow level s.depth c rest

/-- One step of a scan, the states around it, and the bytes that it takes up. -/
structure Step where
  first : Char
  more : Text
  cls : CharClass
  before : State
  after : State
  range : Nat × Nat
  deriving DecidableEq, Repr

/-- Where a scan stands: the number of bytes before it, and its state. -/
structure Place where
  bytes : Nat
  state : State
  deriving DecidableEq, Repr

/-- A scan starts outside all regions and all parentheses. -/
def Place.start : Place :=
  ⟨0, ⟨.code, 0⟩⟩

/-- What a scan meets where it stands. -/
inductive Outlook where
  /-- There is no place between characters here. -/
  | astray
  /-- A counter overflows, and the scan is given up. -/
  | overflowed
  /-- The text ends here. -/
  | finished
  /-- A step, and the place behind it. -/
  | step (step : Step) (next : Place)
  deriving DecidableEq, Repr

/-- Look at the text from a place on. -/
def Place.look (overflow : Overflow) (sql : Text) (place : Place) : Outlook :=
  match Text.slice? sql (place.bytes, Text.byteSize sql) with
  | none => .astray
  | some [] => .finished
  | some (c :: rest) =>
      match place.state.read? overflow c rest with
      | none => .overflowed
      | some reading =>
          let width := if reading.more = [] then c.utf8Size else reading.more.length + 1
          let stop := place.bytes + width
          .step ⟨c, reading.more, reading.cls, place.state, reading.after, (place.bytes, stop)⟩
            ⟨stop, reading.after⟩

/-- The places that a scan of the text comes to. -/
inductive Reached (overflow : Overflow) (sql : Text) : Place → Prop
  | start : Reached overflow sql .start
  | step {place next : Place} {step : Step} :
      Reached overflow sql place → place.look overflow sql = .step step next →
      Reached overflow sql next

/-- From a place on, a scan takes these steps up to the end, and no counter stops it. -/
inductive Reads (overflow : Overflow) (sql : Text) : Place → List Step → Prop
  | finished {place : Place} : place.look overflow sql = .finished → Reads overflow sql place []
  | step {place next : Place} {step : Step} {later : List Step} :
      place.look overflow sql = .step step next → Reads overflow sql next later →
      Reads overflow sql place (step :: later)

/-! ## Without bounds -/

/-- The region, its level without bounds. -/
def Mode.widen : Mode → AuroraMigration.Mode
  | .code => .code
  | .string => .string
  | .name => .name
  | .dollar tag => .dollar tag
  | .lineComment => .lineComment
  | .blockComment level => .blockComment level.toNat

/-- The state, its counters without bounds. -/
def State.widen (s : State) : ScanState :=
  ⟨s.mode.widen, s.depth.toNat⟩

def Reading.widen (reading : Reading) : AuroraMigration.Reading :=
  ⟨reading.more, reading.cls, reading.after.widen⟩

def Step.widen (step : Step) : PlacedStep :=
  ⟨⟨step.first, step.more, step.cls, step.before.widen, step.after.widen⟩, step.range⟩

def Place.widen (place : Place) : ScanPlace :=
  ⟨place.bytes, place.state.widen⟩

/-- The outlook of a scan without bounds, which no counter stops. -/
def Outlook.widen : Outlook → Option AuroraMigration.Outlook
  | .astray => some .astray
  | .overflowed => none
  | .finished => some .finished
  | .step taken next => some (.step taken.widen next.widen)

theorem State.level_widen (s : State) : s.widen.level = s.level.toNat := by
  cases hmode : s.mode <;> simp [State.widen, State.level, ScanState.level, Mode.widen, hmode]

theorem State.level_pos {s : State} {n : Nat} (h : s.widen.Counts n) {level : UInt32}
    (hlevel : s.mode = .blockComment level) : 1 ≤ level := by
  have hwide : s.widen.mode = .blockComment level.toNat := congrArg Mode.widen hlevel
  exact UInt32.le_iff_toNat_le.2 (h.level_pos level.toNat hwide)

theorem State.le_bytes {s : State} {n : Nat} (h : s.widen.Counts n) :
    s.depth.toNat + 2 * s.level.toNat ≤ n := by
  rw [← s.level_widen]
  exact h.le_bytes

theorem readCode?_widen (overflow : Overflow) {depth : UInt32} (h : depth.toNat + 1 < 2 ^ 32)
    (c : Char) (rest : Text) :
    (readCode? overflow depth c rest).map Reading.widen =
      some (AuroraMigration.readCode depth.toNat c rest) := by
  unfold readCode? readCode
  split
  case h_6 =>
    rw [overflow.add?_of_lt h]
    simp [Reading.widen, State.widen, Mode.widen, toNat_succ h]
  case h_7 =>
    simp [Reading.widen, State.widen, Mode.widen, toNat_saturating]
  case h_3 => split <;> simp_all [Reading.widen, State.widen, Mode.widen]
  case h_4 => split <;> simp_all [Reading.widen, State.widen, Mode.widen]
  case h_5 => split <;> simp_all [Reading.widen, State.widen, Mode.widen]
  case h_8 => simp_all [Reading.widen, State.widen, Mode.widen]
  all_goals rfl

theorem readQuoted_widen (quote : Char) (inside : Mode) (cls : CharClass) (depth : UInt32)
    (c : Char) (rest : Text) :
    (readQuoted quote inside cls depth c rest).widen =
      AuroraMigration.readQuoted quote inside.widen cls depth.toNat c rest := by
  unfold readQuoted AuroraMigration.readQuoted
  split
  · split <;> rfl
  · rfl

theorem readDollar_widen (tag : Text) (depth : UInt32) (c : Char) (rest : Text) :
    (readDollar tag depth c rest).widen =
      AuroraMigration.readDollar tag depth.toNat c rest := by
  unfold readDollar AuroraMigration.readDollar
  split <;> rfl

theorem readLineComment_widen (depth : UInt32) (c : Char) :
    (readLineComment depth c).widen = AuroraMigration.readLineComment depth.toNat c := by
  unfold readLineComment AuroraMigration.readLineComment
  split <;> rfl

theorem readBlockComment?_widen (overflow : Overflow) {level : UInt32} (hlevel : 1 ≤ level)
    (h : level.toNat + 1 < 2 ^ 32) (depth : UInt32) (c : Char) (rest : Text) :
    (readBlockComment? overflow level depth c rest).map Reading.widen =
      some (readBlockComment level.toNat depth.toNat c rest) := by
  have hone : level.toNat = 1 ↔ level = 1 := by
    rw [← UInt32.toNat_one, UInt32.toNat_inj]
  unfold readBlockComment? readBlockComment
  split
  · rw [overflow.add?_of_lt h]
    simp [Reading.widen, State.widen, Mode.widen, toNat_succ h]
  · split
    · by_cases hl : level = 1
      · simp [Reading.widen, State.widen, Mode.widen, hl]
      · rw [if_neg hl, overflow.sub?_of_le hlevel]
        simp [Reading.widen, State.widen, Mode.widen, hone, hl, UInt32.toNat_sub_of_le _ _ hlevel]
    · rfl

/-- Where the next sums fit, what is read is what a scan without bounds reads. -/
theorem State.read?_widen (overflow : Overflow) {s : State} {n : Nat} (h : s.widen.Counts n)
    (hn : n + 1 < 2 ^ 32) (c : Char) (rest : Text) :
    (s.read? overflow c rest).map Reading.widen = some (read s.widen c rest) := by
  obtain ⟨mode, depth⟩ := s
  have hdepth : depth.toNat ≤ n := h.depth_le
  cases mode with
  | code => exact readCode?_widen overflow (show depth.toNat + 1 < 2 ^ 32 by omega) c rest
  | string => exact congrArg some (readQuoted_widen _ _ _ depth c rest)
  | name => exact congrArg some (readQuoted_widen _ _ _ depth c rest)
  | dollar tag => exact congrArg some (readDollar_widen tag depth c rest)
  | lineComment => exact congrArg some (readLineComment_widen depth c)
  | blockComment level =>
      have hlevel : 1 ≤ level.toNat := h.level_pos level.toNat rfl
      have hle : depth.toNat + 2 * level.toNat ≤ n := h.le_bytes
      exact readBlockComment?_widen overflow (UInt32.le_iff_toNat_le.2 hlevel) (by omega) depth c
        rest

/-- What a scan meets is what one without bounds meets, as long as the counters fit. -/
theorem Place.look_widen (overflow : Overflow) {sql : Text} (hsql : Text.byteSize sql < 2 ^ 32)
    {place : Place} (h : place.state.widen.Counts place.bytes) :
    (place.look overflow sql).widen = some (place.widen.look sql) := by
  cases hslice : Text.slice? sql (place.bytes, Text.byteSize sql) with
  | none => simp [Place.look, ScanPlace.look, Place.widen, hslice, Outlook.widen]
  | some ahead =>
      cases ahead with
      | nil => simp [Place.look, ScanPlace.look, Place.widen, hslice, Outlook.widen]
      | cons c rest =>
          have hbytes := Text.lt_byteSize_of_slice? hslice
          have hread := State.read?_widen overflow h (by omega) c rest
          obtain ⟨reading, hnarrow, hwide⟩ := Option.map_eq_some_iff.1 hread
          simp [Place.look, ScanPlace.look, Place.widen, hslice, hnarrow, Outlook.widen,
            Step.widen, stepAt, ← hwide, Reading.widen, AuroraMigration.Step.width]

/-! ## Runs -/

section Runs

variable {overflow : Overflow} {sql : Text}

theorem Reads.unique {place : Place} {xs ys : List Step} (hxs : Reads overflow sql place xs)
    (hys : Reads overflow sql place ys) : xs = ys := by
  induction hxs generalizing ys with
  | finished hlook =>
      cases hys with
      | finished => rfl
      | step hlook' => simp [hlook] at hlook'
  | step hlook _ ih =>
      cases hys with
      | finished hlook' => simp [hlook] at hlook'
      | step hlook' hlater =>
          simp only [hlook, Outlook.step.injEq] at hlook'
          obtain ⟨rfl, rfl⟩ := hlook'
          rw [ih hlater]

theorem look_behind (overflow : Overflow) (hsql : Text.byteSize sql < 2 ^ 32)
    {before later : List AuroraMigration.Step} (h : scan sql = before ++ later) {place : Place}
    (hplace : place.widen = .behind before) :
    (place.look overflow sql).widen = some (ScanPlace.look sql (.behind before)) := by
  have hcounts := ScanPlace.behind_counts h
  rw [← hplace] at hcounts ⊢
  exact Place.look_widen overflow hsql hcounts

/-- Behind all steps of the scan without bounds, the text ends. -/
theorem look_end (hsql : Text.byteSize sql < 2 ^ 32) {place : Place}
    (hplace : place.widen = .behind (scan sql)) : place.look overflow sql = .finished := by
  have hlook := look_behind overflow hsql (List.append_nil (scan sql)).symm hplace
  rw [look_at_end] at hlook
  cases hnarrow : place.look overflow sql with
  | finished => rfl
  | _ => simp [hnarrow, Outlook.widen] at hlook

/-- Behind some steps of the scan without bounds, the next one is taken. -/
theorem look_step (overflow : Overflow) (hsql : Text.byteSize sql < 2 ^ 32)
    {before later : List AuroraMigration.Step} {step : AuroraMigration.Step}
    (h : scan sql = before ++ step :: later) {place : Place}
    (hplace : place.widen = .behind before) :
    ∃ taken next, place.look overflow sql = .step taken next ∧
      taken.widen = ⟨step, ((ScanPlace.behind before).bytes,
        (ScanPlace.behind (before ++ [step])).bytes)⟩ ∧
      next.widen = .behind (before ++ [step]) := by
  have hlook := look_behind overflow hsql h hplace
  rw [look_of_step h] at hlook
  cases hnarrow : place.look overflow sql with
  | step taken next =>
      simp only [hnarrow, Outlook.widen, Option.some.injEq, AuroraMigration.Outlook.step.injEq]
        at hlook
      exact ⟨taken, next, rfl, hlook.1, hlook.2⟩
  | _ => simp [hnarrow, Outlook.widen] at hlook

/-- A scan only comes to places behind the first steps of the scan without bounds. -/
theorem Reached.behind (hsql : Text.byteSize sql < 2 ^ 32) {place : Place}
    (h : Reached overflow sql place) :
    ∃ before later, scan sql = before ++ later ∧ place.widen = .behind before := by
  induction h with
  | start => exact ⟨[], scan sql, rfl, rfl⟩
  | step _ hlook ih =>
      obtain ⟨before, later, hscan, hplace⟩ := ih
      cases later with
      | nil =>
          rw [List.append_nil] at hscan
          rw [← hscan] at hplace
          rw [look_end hsql hplace] at hlook
          cases hlook
      | cons step later =>
          obtain ⟨taken, next, hstep, -, hnext⟩ := look_step overflow hsql hscan hplace
          rw [hstep, Outlook.step.injEq] at hlook
          rw [hlook.2] at hnext
          exact ⟨before ++ [step], later, by rw [hscan, List.append_cons], hnext⟩

/-- The counters stay below the place in bytes. -/
theorem Reached.counts (hsql : Text.byteSize sql < 2 ^ 32) {place : Place}
    (h : Reached overflow sql place) : place.state.widen.Counts place.bytes := by
  obtain ⟨before, later, hscan, hplace⟩ := h.behind hsql
  have hcounts := ScanPlace.behind_counts hscan
  rwa [← hplace] at hcounts

theorem exists_reads (overflow : Overflow) (hsql : Text.byteSize sql < 2 ^ 32)
    {before later : List AuroraMigration.Step} (h : scan sql = before ++ later) {place : Place}
    (hplace : place.widen = .behind before) :
    ∃ steps, Reads overflow sql place steps ∧
      steps.map Step.widen = placeSteps (ScanPlace.behind before).bytes later := by
  induction later generalizing before place with
  | nil =>
      rw [List.append_nil] at h
      rw [← h] at hplace
      exact ⟨[], .finished (look_end hsql hplace), rfl⟩
  | cons step later ih =>
      obtain ⟨taken, next, hlook, htaken, hnext⟩ := look_step overflow hsql h hplace
      have hbehind : scan sql = before ++ [step] ++ later := by
        rw [h, List.append_cons]
      obtain ⟨steps, hsteps, hmap⟩ := ih hbehind hnext
      refine ⟨taken :: steps, .step hlook hsteps, ?_⟩
      rw [List.map_cons, hmap, htaken, placeSteps_cons, ScanPlace.behind_concat_bytes]

end Runs

end Narrow

/--
No counter of 32 bits leaves its range on a text of fewer than 2^32 bytes.

Wherever the scan comes to, a block comment has a level of at least one, and the
depth together with twice the level is at most the number of bytes before it.
So no counter stops the scan, and while there is something to read both of them
have room for one more. Whatever an overflow would do, there is one run from
start to end, and without bounds on its counters it is the scan of the text.
-/
theorem counters_never_wrap (overflow : Overflow) {sql : Text}
    (hsql : Text.byteSize sql < 2 ^ 32) :
    (∀ place, Narrow.Reached overflow sql place →
      (∀ level, place.state.mode = .blockComment level → 1 ≤ level) ∧
      place.state.depth.toNat + 2 * place.state.level.toNat ≤ place.bytes ∧
      place.look overflow sql ≠ .overflowed ∧
      (place.bytes < Text.byteSize sql →
        (place.state.depth + 1).toNat = place.state.depth.toNat + 1 ∧
        (place.state.level + 1).toNat = place.state.level.toNat + 1)) ∧
    ∃ steps, (∀ run, Narrow.Reads overflow sql .start run ↔ run = steps) ∧
      steps.map Narrow.Step.widen = placedSteps sql := by
  constructor
  · intro place hplace
    have hcounts := hplace.counts hsql
    have hle := Narrow.State.le_bytes hcounts
    refine ⟨fun level hlevel => Narrow.State.level_pos hcounts hlevel, hle, fun hlook => ?_,
      fun hbytes => ⟨toNat_succ (by omega), toNat_succ (by omega)⟩⟩
    have hwide := Narrow.Place.look_widen overflow hsql hcounts
    rw [hlook] at hwide
    cases hwide
  · obtain ⟨steps, hsteps, hmap⟩ :=
      Narrow.exists_reads overflow hsql (List.nil_append (scan sql)).symm
        (show Narrow.Place.start.widen = .behind [] from rfl)
    refine ⟨steps, fun run => ⟨fun hrun => hrun.unique hsteps, ?_⟩, hmap⟩
    rintro rfl
    exact hsteps

/-- One parenthesis and two comments, one within the other, take up five bytes. -/
theorem counters_never_wrap_nested :
    Text.byteSize "(/*/*x".toList < 2 ^ 32 ∧
    Narrow.Reached .stops "(/*/*x".toList ⟨5, ⟨.blockComment 2, 1⟩⟩ ∧
    (1 : UInt32) ≤ 2 ∧ (1 : UInt32).toNat + 2 * (2 : UInt32).toNat ≤ 5 ∧
    Narrow.Place.look .stops "(/*/*x".toList ⟨5, ⟨.blockComment 2, 1⟩⟩ ≠ .overflowed ∧
    ∃ steps, (∀ run, Narrow.Reads .stops "(/*/*x".toList .start run ↔ run = steps) ∧
      steps.map Narrow.Step.widen = placedSteps "(/*/*x".toList := by
  have hsql : Text.byteSize "(/*/*x".toList < 2 ^ 32 := by decide +kernel
  have hopen : Narrow.Place.look .stops "(/*/*x".toList .start =
      .step ⟨'(', [], .code, ⟨.code, 0⟩, ⟨.code, 1⟩, (0, 1)⟩ ⟨1, ⟨.code, 1⟩⟩ := by
    decide +kernel
  have houter : Narrow.Place.look .stops "(/*/*x".toList ⟨1, ⟨.code, 1⟩⟩ =
      .step ⟨'/', ['*'], .comment, ⟨.code, 1⟩, ⟨.blockComment 1, 1⟩, (1, 3)⟩
        ⟨3, ⟨.blockComment 1, 1⟩⟩ := by
    decide +kernel
  have hinner : Narrow.Place.look .stops "(/*/*x".toList ⟨3, ⟨.blockComment 1, 1⟩⟩ =
      .step ⟨'/', ['*'], .comment, ⟨.blockComment 1, 1⟩, ⟨.blockComment 2, 1⟩, (3, 5)⟩
        ⟨5, ⟨.blockComment 2, 1⟩⟩ := by
    decide +kernel
  have hreached := Narrow.Reached.step (.step (.step .start hopen) houter) hinner
  obtain ⟨hplaces, hrun⟩ := counters_never_wrap .stops hsql
  obtain ⟨hlevel, hle, hlook, -⟩ := hplaces _ hreached
  exact ⟨hsql, hreached, hlevel 2 rfl, hle, hlook, hrun⟩

/-! ## Longer texts -/

theorem lastState_opened (depth n : Nat) :
    lastState ⟨.code, depth⟩ (scanFrom ⟨.code, depth⟩ 0 (List.replicate n '(')) =
      ⟨.code, depth + n⟩ := by
  induction n generalizing depth with
  | zero => rfl
  | succ n ih =>
      have hlater := ih (depth + 1)
      rw [Nat.add_assoc, Nat.add_comm 1 n] at hlater
      rw [List.replicate_succ, scanFrom_cons, lastState_cons]
      exact hlater

theorem Narrow.look_opened {k n : Nat} (h : k < n) :
    Narrow.Place.look .wraps (List.replicate n '(') ⟨k, ⟨.code, UInt32.ofNat k⟩⟩ =
      .step ⟨'(', [], .code, ⟨.code, UInt32.ofNat k⟩, ⟨.code, UInt32.ofNat (k + 1)⟩, (k, k + 1)⟩
        ⟨k + 1, ⟨.code, UInt32.ofNat (k + 1)⟩⟩ := by
  have hsize : Text.byteSize (List.replicate k '(') = k := by
    rw [Text.byteSize_eq_length, List.length_replicate]
    intro c hc
    rw [List.eq_of_mem_replicate hc]
    rfl
  have htext : List.replicate n '(' =
      List.replicate k '(' ++ '(' :: List.replicate (n - k - 1) '(' := by
    rw [← List.replicate_succ, List.replicate_append_replicate]
    congr 1
    omega
  have hslice := Text.slice?_rest htext
  rw [hsize] at hslice
  simp only [Narrow.Place.look, hslice, UInt32.ofNat_add]
  rfl

/--
Behind `n` opening parentheses the depth is `n`, and a depth that wraps is `n` modulo 2^32.

So the two scans part on a text of 2^32 bytes, where the depth that wraps is zero
again, and the bound on the size of a text cannot be raised.
-/
theorem depth_of_parentheses (n : Nat) :
    (scanEnd (List.replicate n '(')).depth = n ∧
      Narrow.Reached .wraps (List.replicate n '(') ⟨n, ⟨.code, UInt32.ofNat n⟩⟩ := by
  have hreached : ∀ k, k ≤ n →
      Narrow.Reached .wraps (List.replicate n '(') ⟨k, ⟨.code, UInt32.ofNat k⟩⟩ := by
    intro k hk
    induction k with
    | zero => exact .start
    | succ k ih => exact .step (ih (Nat.le_of_lt hk)) (Narrow.look_opened hk)
  constructor
  · rw [scanEnd_eq_lastState, scan, ScanState.start, lastState_opened, Nat.zero_add]
  · exact hreached n (Nat.le_refl n)

end AuroraMigration
