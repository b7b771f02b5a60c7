import AuroraMigration.Proofs.Trace
import Mathlib.Data.List.Induction
import Mathlib.Data.List.Infix

/-!
# The regions of a text

The lexical grammar, stated without a scan. A region is opened by its mark. What
follows the mark is read from left to right in pieces, which are the pairs that
count as one inside the region and single characters, and the region ends with
the first piece that makes up its end. The main statement says that a scan
follows this grammar: it is back in code exactly where a region that it meets in
code ends, and the steps that lie in no region are code.
-/

namespace AuroraMigration

/-! ## The grammar -/

/-- The shortest beginning `p` of `l` for which `stop` holds. -/
structure Shortest {α : Type} (stop : List α → Prop) (l p : List α) : Prop where
  begins : p <+: l
  stops : stop p
  least : ∀ q, q <+: p → stop q → q = p

instance {α : Type} [DecidableEq α] (stop : List α → Prop) [DecidablePred stop] (l p : List α) :
    Decidable (Shortest stop l p) :=
  decidable_of_iff (p <+: l ∧ stop p ∧ ∀ q ∈ p.inits, stop q → q = p)
    ⟨fun h => ⟨h.1, h.2.1, fun q hq => h.2.2 q ((List.mem_inits q p).2 hq)⟩,
      fun h => ⟨h.begins, h.stops, fun q hq => h.least q ((List.mem_inits q p).1 hq)⟩⟩

/-- The shortest beginning for which `stop` holds has `n` characters. -/
def StopsAfter {α : Type} (chars : α → Text) (stop : List α → Prop) (l : List α) (n : Nat) : Prop :=
  ∃ p, Shortest stop l p ∧ n = (p.flatMap chars).length

/-- A text cut, from left to right, into the given pairs of characters and single ones. -/
def readPairs (pairs : List Text) : Text → List Text
  | c :: d :: rest =>
      if [c, d] ∈ pairs then [c, d] :: readPairs pairs rest
      else [c] :: readPairs pairs (d :: rest)
  | [c] => [[c]]
  | [] => []

namespace Mode

/-- Whether a mark opens this region; a tag may be empty, but does not start with a digit. -/
def IsOpened : Mode → Prop
  | .code => False
  | .dollar tag => (∀ c ∈ tag, isTagChar c = true) ∧ tag.head?.any Char.isDigit = false
  | .blockComment level => level = 1
  | _ => True

/-- The region is the one that opens at the start of the text. -/
def Opens (region : Mode) (text : Text) : Prop :=
  region.IsOpened ∧ region.mark <+: text

/-- The pairs of characters that count as one inside a region. -/
def pairs : Mode → List Text
  | .string => [['\'', '\'']]
  | .name => [['"', '"']]
  | .blockComment _ => [['/', '*'], ['*', '/']]
  | _ => []

/--
Whether these pieces, read since the mark of a region, make up its end.

Quotes end with a quote that stands alone, a dollar quote with its mark, and
block comments, of which `level` are open at first, when all of them are closed.
-/
def Stops : Mode → List Text → Prop
  | .code, _ => True
  | .string, pieces => ['\''] ∈ pieces
  | .name, pieces => ['"'] ∈ pieces
  | .dollar tag, pieces => mark (.dollar tag) <:+ pieces.flatten
  | .lineComment, pieces => ['\n'] ∈ pieces
  | .blockComment level, pieces => pieces.count ['/', '*'] + level = pieces.count ['*', '/']

instance (region : Mode) (pieces : List Text) : Decidable (region.Stops pieces) :=
  match region with
  | .code => inferInstanceAs (Decidable True)
  | .string => inferInstanceAs (Decidable (['\''] ∈ pieces))
  | .name => inferInstanceAs (Decidable (['"'] ∈ pieces))
  | .dollar tag => inferInstanceAs (Decidable (mark (.dollar tag) <:+ pieces.flatten))
  | .lineComment => inferInstanceAs (Decidable (['\n'] ∈ pieces))
  | .blockComment level =>
      inferInstanceAs (Decidable (pieces.count ['/', '*'] + level = pieces.count ['*', '/']))

/-- The region comes to its end with the first `n` characters of a text it goes on in. -/
def ClosesAfter (region : Mode) (text : Text) (n : Nat) : Prop :=
  StopsAfter id region.Stops (readPairs region.pairs text) n

/-- The region that opens at the start of the text ends after `n` characters. -/
def EndsAfter (region : Mode) (text : Text) (n : Nat) : Prop :=
  ∃ m, region.ClosesAfter (text.drop region.mark.length) m ∧ n = region.mark.length + m

end Mode

/-! ## Shortest beginnings -/

section Shortest

variable {α : Type} {stop stop' : List α → Prop} {l p : List α}

theorem Shortest.unique {q : List α} (hp : Shortest stop l p) (hq : Shortest stop l q) : p = q := by
  rcases List.prefix_or_prefix_of_prefix hp.begins hq.begins with h | h
  · exact hq.least p h hp.stops
  · exact (hp.least q h hq.stops).symm

theorem Shortest.mono {l' : List α} (h : Shortest stop l p) (hl : l <+: l') : Shortest stop l' p :=
  ⟨h.begins.trans hl, h.stops, h.least⟩

theorem shortest_congr (h : ∀ q, q <+: l → (stop q ↔ stop' q)) :
    Shortest stop l p ↔ Shortest stop' l p := by
  constructor
  · intro hp
    exact ⟨hp.begins, (h p hp.begins).1 hp.stops, fun q hq hstop =>
      hp.least q hq ((h q (hq.trans hp.begins)).2 hstop)⟩
  · intro hp
    exact ⟨hp.begins, (h p hp.begins).2 hp.stops, fun q hq hstop =>
      hp.least q hq ((h q (hq.trans hp.begins)).1 hstop)⟩

theorem shortest_cons_iff {x : α} (hnil : ¬ stop []) :
    Shortest stop (x :: l) p ↔ ∃ q, p = x :: q ∧ Shortest (fun q => stop (x :: q)) l q := by
  constructor
  · intro h
    cases p with
    | nil => exact absurd h.stops hnil
    | cons y q =>
        obtain ⟨rfl, hq⟩ := List.cons_prefix_cons.1 h.begins
        refine ⟨q, rfl, hq, h.stops, fun r hr hstop => ?_⟩
        exact (List.cons.inj (h.least (y :: r) (List.cons_prefix_cons.2 ⟨rfl, hr⟩) hstop)).2
  · rintro ⟨q, rfl, h⟩
    refine ⟨List.cons_prefix_cons.2 ⟨rfl, h.begins⟩, h.stops, fun r hr hstop => ?_⟩
    cases r with
    | nil => exact absurd hstop hnil
    | cons y r =>
        obtain ⟨rfl, hshort⟩ := List.cons_prefix_cons.1 hr
        rw [h.least r hshort hstop]

theorem shortest_singleton {x : α} (hnil : ¬ stop []) (hstop : stop [x]) : Shortest stop [x] [x] :=
  (shortest_cons_iff hnil).2
    ⟨[], rfl, List.prefix_rfl, hstop, fun _ hq _ => List.prefix_nil.1 hq⟩

/-- A beginning that stops has a shortest beginning that does. -/
theorem exists_shortest (hl : p <+: l) (hp : stop p) : ∃ q, q <+: p ∧ Shortest stop l q := by
  induction p generalizing l stop with
  | nil => exact ⟨[], List.prefix_rfl, hl, hp, fun _ hq _ => List.prefix_nil.1 hq⟩
  | cons x p ih =>
      by_cases hnil : stop []
      · exact ⟨[], List.nil_prefix, List.nil_prefix, hnil, fun _ hq _ => List.prefix_nil.1 hq⟩
      · obtain ⟨later, rfl⟩ := hl
        obtain ⟨q, hq, hshort⟩ :=
          @ih (fun q => stop (x :: q)) _ (List.prefix_append p later) hp
        exact ⟨x :: q, List.cons_prefix_cons.2 ⟨rfl, hq⟩,
          (shortest_cons_iff hnil).2 ⟨q, rfl, hshort⟩⟩

end Shortest

section StopsAfter

variable {α : Type} {chars : α → Text} {stop stop' : List α → Prop} {l : List α}

theorem not_stopsAfter_nil (hnil : ¬ stop []) (n : Nat) : ¬ StopsAfter chars stop [] n := by
  rintro ⟨p, hp, -⟩
  rw [List.prefix_nil.1 hp.begins] at hp
  exact hnil hp.stops

theorem stopsAfter_append {xs : List α} (h : Shortest stop xs xs) (l : List α) (n : Nat) :
    StopsAfter chars stop (xs ++ l) n ↔ n = (xs.flatMap chars).length := by
  have hxs : Shortest stop (xs ++ l) xs := h.mono (List.prefix_append xs l)
  constructor
  · rintro ⟨p, hp, rfl⟩
    rw [hp.unique hxs]
  · exact fun hn => ⟨xs, hxs, hn⟩

theorem stopsAfter_cons {x : α} (hnil : ¬ stop [])
    (h : ∀ q, q <+: l → (stop (x :: q) ↔ stop' q)) (n : Nat) :
    StopsAfter chars stop (x :: l) n ↔
      ∃ m, StopsAfter chars stop' l m ∧ n = (chars x).length + m := by
  constructor
  · rintro ⟨p, hp, rfl⟩
    obtain ⟨q, rfl, hq⟩ := (shortest_cons_iff hnil).1 hp
    exact ⟨_, ⟨q, (shortest_congr h).1 hq, rfl⟩, by simp⟩
  · rintro ⟨m, ⟨q, hq, rfl⟩, rfl⟩
    exact ⟨x :: q, (shortest_cons_iff hnil).2 ⟨q, rfl, (shortest_congr h).2 hq⟩, by simp⟩

end StopsAfter

/-! ## Pieces -/

theorem readPairs_pair {pairs : List Text} {c d : Char} (h : [c, d] ∈ pairs) (rest : Text) :
    readPairs pairs (c :: d :: rest) = [c, d] :: readPairs pairs rest := by
  rw [readPairs, if_pos h]

theorem readPairs_single {pairs : List Text} {c : Char} {rest : Text}
    (h : ∀ d, rest.head? = some d → [c, d] ∉ pairs) :
    readPairs pairs (c :: rest) = [c] :: readPairs pairs rest := by
  cases rest with
  | nil => rfl
  | cons d rest => rw [readPairs, if_neg (h d rfl)]

theorem readPairs_none (text : Text) : readPairs [] text = text.map ([·]) := by
  induction text with
  | nil => rfl
  | cons c rest ih => rw [readPairs_single (by simp), ih, List.map_cons]

theorem flatten_readPairs (pairs : List Text) (text : Text) :
    (readPairs pairs text).flatten = text := by
  fun_induction readPairs pairs text <;> simp_all

/-! ## Steps inside a region -/

/-- Whether a scan can stand in this region. -/
def Mode.IsRegion : Mode → Prop
  | .code => False
  | .blockComment level => 0 < level
  | _ => True

theorem Mode.IsOpened.isRegion {region : Mode} (h : region.IsOpened) : region.IsRegion := by
  cases region <;> simp_all [Mode.IsOpened, Mode.IsRegion]

theorem Mode.IsRegion.ne_code {region : Mode} (h : region.IsRegion) : region ≠ .code := by
  rintro rfl
  exact h

theorem Mode.IsRegion.cls_ne_code {region : Mode} (h : region.IsRegion) : region.cls ≠ .code := by
  cases region <;> simp_all [Mode.IsRegion, Mode.cls]

theorem Mode.IsRegion.not_stops_nil {region : Mode} (h : region.IsRegion) :
    ¬ region.Stops [] := by
  cases region with
  | code => exact h.elim
  | blockComment level =>
      simp only [Mode.Stops, List.count_nil, Nat.zero_add]
      exact Nat.ne_of_gt h
  | _ => simp [Mode.Stops, Mode.mark]

/-- What a step in a region makes of the pieces ahead: it reads the end, or one piece. -/
inductive Proceeds (region : Mode) (text later : Text) (step : Step) : Prop
  | closes (pieces : List Text) : step.after.mode = .code → pieces.flatten = step.chars →
      readPairs region.pairs text = pieces ++ readPairs region.pairs later →
      Shortest region.Stops pieces pieces → Proceeds region text later step
  | remains : step.after.mode.IsRegion → step.after.mode.cls = region.cls →
      readPairs region.pairs text = step.chars :: readPairs step.after.mode.pairs later →
      (∀ pieces, pieces <+: readPairs step.after.mode.pairs later →
        (region.Stops (step.chars :: pieces) ↔ step.after.mode.Stops pieces)) →
      Proceeds region text later step

theorem proceeds_quoted {quote : Char} {region : Mode} (hregion : region.IsRegion)
    (hpairs : region.pairs = [[quote, quote]])
    (hstops : ∀ pieces, region.Stops pieces ↔ [quote] ∈ pieces) {depth : Nat} {c : Char}
    {rest : Text}
    (hread : read ⟨region, depth⟩ c rest = readQuoted quote region region.cls depth c rest) :
    Proceeds region (c :: rest) (rest.drop (stepAt ⟨region, depth⟩ c rest).more.length)
      (stepAt ⟨region, depth⟩ c rest) := by
  by_cases hc : c = quote
  · subst hc
    by_cases hdouble : rest.head? = some c
    · obtain ⟨rest, rfl⟩ := List.head?_eq_some_iff.1 hdouble
      have hstep : stepAt ⟨region, depth⟩ c (c :: rest) =
          ⟨c, [c], region.cls, ⟨region, depth⟩, ⟨region, depth⟩⟩ := by
        simp [stepAt, hread, readQuoted]
      rw [hstep]
      refine .remains hregion rfl (readPairs_pair (by simp [hpairs]) rest) fun pieces _ => ?_
      simp [hstops, Step.chars]
    · have hstep : stepAt ⟨region, depth⟩ c rest =
          ⟨c, [], region.cls, ⟨region, depth⟩, ⟨.code, depth⟩⟩ := by
        simp [stepAt, hread, readQuoted, hdouble]
      rw [hstep]
      refine .closes [[c]] rfl rfl (readPairs_single ?_)
        (shortest_singleton hregion.not_stops_nil ((hstops _).2 (by simp)))
      intro d hd
      have hne : d ≠ c := fun h => hdouble (h ▸ hd)
      simp [hpairs, hne]
  · have hstep : stepAt ⟨region, depth⟩ c rest =
        ⟨c, [], region.cls, ⟨region, depth⟩, ⟨region, depth⟩⟩ := by
      simp [stepAt, hread, readQuoted, hc]
    rw [hstep]
    refine .remains hregion rfl (readPairs_single (by simp [hpairs, hc])) fun pieces _ => ?_
    simp [hstops, Step.chars, Ne.symm hc]

theorem proceeds_lineComment (depth : Nat) (c : Char) (rest : Text) :
    Proceeds .lineComment (c :: rest)
      (rest.drop (stepAt ⟨.lineComment, depth⟩ c rest).more.length)
      (stepAt ⟨.lineComment, depth⟩ c rest) := by
  have hpieces : readPairs [] (c :: rest) = [c] :: readPairs [] rest := readPairs_single (by simp)
  by_cases hc : c = '\n'
  · subst hc
    exact .closes [['\n']] rfl rfl hpieces
      (shortest_singleton (by simp [Mode.Stops]) (by simp [Mode.Stops]))
  · have hstep : stepAt ⟨.lineComment, depth⟩ c rest =
        ⟨c, [], .comment, ⟨.lineComment, depth⟩, ⟨.lineComment, depth⟩⟩ := by
      simp [stepAt, read, readLineComment, hc]
    rw [hstep]
    refine .remains trivial rfl hpieces fun pieces _ => ?_
    simp [Mode.Stops, Step.chars, Ne.symm hc]

theorem proceeds_blockComment {level : Nat} (hlevel : 0 < level) (depth : Nat) (c : Char)
    (rest : Text) :
    Proceeds (.blockComment level) (c :: rest)
      (rest.drop (stepAt ⟨.blockComment level, depth⟩ c rest).more.length)
      (stepAt ⟨.blockComment level, depth⟩ c rest) := by
  by_cases hopen : c = '/' ∧ rest.head? = some '*'
  · obtain ⟨rfl, hstar⟩ := hopen
    obtain ⟨rest, rfl⟩ := List.head?_eq_some_iff.1 hstar
    refine .remains (Nat.succ_pos level) rfl (readPairs_pair (by simp [Mode.pairs]) rest)
      fun pieces _ => ?_
    simp [Mode.Stops, stepAt, read, readBlockComment, Step.chars, Nat.add_right_comm,
      Nat.add_assoc]
  by_cases hclose : c = '*' ∧ rest.head? = some '/'
  · obtain ⟨rfl, hslash⟩ := hclose
    obtain ⟨rest, rfl⟩ := List.head?_eq_some_iff.1 hslash
    have hpieces : readPairs [['/', '*'], ['*', '/']] ('*' :: '/' :: rest) =
        ['*', '/'] :: readPairs [['/', '*'], ['*', '/']] rest := readPairs_pair (by simp) rest
    by_cases hone : level = 1
    · subst hone
      exact .closes [['*', '/']] rfl rfl hpieces
        (shortest_singleton (by simp [Mode.Stops]) (by simp [Mode.Stops]))
    · have hstep : stepAt ⟨.blockComment level, depth⟩ '*' ('/' :: rest) =
          ⟨'*', ['/'], .comment, ⟨.blockComment level, depth⟩,
            ⟨.blockComment (level - 1), depth⟩⟩ := by
        simp [stepAt, read, readBlockComment, hone]
      rw [hstep]
      refine .remains (show 0 < level - 1 by omega) rfl hpieces fun pieces _ => ?_
      simp [Mode.Stops, Step.chars]
      omega
  · have hstep : stepAt ⟨.blockComment level, depth⟩ c rest =
        ⟨c, [], .comment, ⟨.blockComment level, depth⟩, ⟨.blockComment level, depth⟩⟩ := by
      simp [stepAt, read, readBlockComment, hopen, hclose]
    rw [hstep]
    refine .remains hlevel rfl (readPairs_single ?_) fun pieces _ => ?_
    · intro d hd
      rw [hd] at hopen hclose
      simpa [Mode.pairs] using And.intro (not_and.1 hopen) (not_and.1 hclose)
    · simp [Mode.Stops, Step.chars]

/-- A tag mark ends in no shorter beginning of itself. -/
theorem shortest_mark (tag : Text) :
    Shortest (Mode.dollar tag).Stops ((Mode.dollar tag).mark.map ([·]))
      ((Mode.dollar tag).mark.map ([·])) := by
  have hflat : ∀ text : Text, (text.map ([·])).flatten = text := List.flatMap_singleton'
  refine ⟨List.prefix_rfl, ?_, fun q hq hstop => ?_⟩
  · rw [Mode.Stops, hflat]
  · obtain ⟨text, htext, rfl⟩ := List.prefix_map_iff.1 hq
    rw [Mode.Stops, hflat] at hstop
    rw [htext.eq_of_length (Nat.le_antisymm htext.length_le hstop.length_le)]

theorem proceeds_dollar (tag : Text) (depth : Nat) (c : Char) (rest : Text) :
    Proceeds (.dollar tag) (c :: rest)
      (rest.drop (stepAt ⟨.dollar tag, depth⟩ c rest).more.length)
      (stepAt ⟨.dollar tag, depth⟩ c rest) := by
  by_cases hclose : c = '$' ∧ (tag ++ ['$']) <+: rest
  · obtain ⟨rfl, later, rfl⟩ := hclose
    have hstep : stepAt ⟨.dollar tag, depth⟩ '$' (tag ++ ['$'] ++ later) =
        ⟨'$', tag ++ ['$'], .dollar, ⟨.dollar tag, depth⟩, ⟨.code, depth⟩⟩ := by
      simp [stepAt, read, readDollar]
    rw [hstep]
    refine .closes _ rfl (List.flatMap_singleton' _) ?_ (shortest_mark tag)
    rw [List.drop_left, Mode.pairs, readPairs_none, readPairs_none, ← List.map_append]
    · rfl
    all_goals simp
  · have hstep : stepAt ⟨.dollar tag, depth⟩ c rest =
        ⟨c, [], .dollar, ⟨.dollar tag, depth⟩, ⟨.dollar tag, depth⟩⟩ := by
      simp [stepAt, read, readDollar, hclose]
    rw [hstep]
    refine .remains trivial rfl (readPairs_single (by simp [Mode.pairs])) fun pieces hpieces => ?_
    have hahead : pieces.flatten <+: rest := by
      have h := hpieces.flatten
      rwa [flatten_readPairs] at h
    have hmark : Mode.mark (.dollar tag) ≠ c :: pieces.flatten := by
      intro h
      obtain ⟨hc, htag⟩ := List.cons.inj h
      exact hclose ⟨hc.symm, htag ▸ hahead⟩
    simp [Mode.Stops, Step.chars, List.suffix_cons_iff, hmark]

theorem proceeds {s : ScanState} (hs : s.mode.IsRegion) (c : Char) (rest : Text) :
    Proceeds s.mode (c :: rest) (rest.drop (stepAt s c rest).more.length) (stepAt s c rest) := by
  obtain ⟨mode, depth⟩ := s
  cases mode with
  | code => exact hs.elim
  | string => exact proceeds_quoted hs rfl (fun _ => Iff.rfl) rfl
  | name => exact proceeds_quoted hs rfl (fun _ => Iff.rfl) rfl
  | dollar tag => exact proceeds_dollar tag depth c rest
  | lineComment => exact proceeds_lineComment depth c rest
  | blockComment level => exact proceeds_blockComment hs depth c rest

theorem stepAt_region {s : ScanState} (hs : s.mode.IsRegion) (c : Char) (rest : Text) :
    (stepAt s c rest).cls = s.mode.cls ∧ (stepAt s c rest).after.depth = s.depth := by
  have hcls := stepAt_cls hs.ne_code c rest
  refine ⟨hcls, ?_⟩
  rw [(stepAt_shape s c rest).depth_eq, Step.nest_of_ne_code, stepAt_before]
  rw [hcls]
  exact hs.cls_ne_code

/-! ## Returning to code -/

/-- Whether the last of these steps leads to code. -/
def Returned (taken : List Step) : Prop :=
  ∃ last, taken.getLast? = some last ∧ last.after.mode = .code

/-- The first step that leads to code ends after `n` characters. -/
def ReturnsAfter (ahead : List Step) (n : Nat) : Prop :=
  StopsAfter Step.chars Returned ahead n

theorem not_returned_nil : ¬ Returned [] := by
  simp [Returned]

theorem returned_cons {step : Step} (h : step.after.mode ≠ .code) (taken : List Step) :
    Returned (step :: taken) ↔ Returned taken := by
  cases taken with
  | nil => simp [Returned, h]
  | cons next later => simp [Returned, List.getLast?_cons_cons]

theorem returnsAfter_cons {step : Step} (h : step.after.mode ≠ .code) (later : List Step)
    (n : Nat) :
    ReturnsAfter (step :: later) n ↔ ∃ m, ReturnsAfter later m ∧ n = step.chars.length + m :=
  stopsAfter_cons not_returned_nil (fun taken _ => returned_cons h taken) n

/-- A scan that stands in a region is back in code where the region comes to its end. -/
theorem returnsAfter_region {s : ScanState} (hs : s.mode.IsRegion) (text : Text) (n : Nat) :
    ReturnsAfter (scanFrom s 0 text) n ↔ s.mode.ClosesAfter text n := by
  induction hlen : text.length using Nat.strongRecOn generalizing s text n with
  | ind k ih =>
      cases text with
      | nil =>
          rw [scanFrom_nil]
          exact iff_of_false (not_stopsAfter_nil not_returned_nil n)
            (not_stopsAfter_nil hs.not_stops_nil n)
      | cons c rest =>
          have hlater : (rest.drop (stepAt s c rest).more.length).length < k := by
            simp only [List.length_drop, List.length_cons] at hlen ⊢
            omega
          rw [scanFrom_cons, Mode.ClosesAfter]
          cases proceeds hs c rest with
          | closes pieces hcode hflat hread hshort =>
              have hreturned : Shortest Returned [stepAt s c rest] [stepAt s c rest] :=
                shortest_singleton not_returned_nil ⟨_, rfl, hcode⟩
              rw [hread, stopsAfter_append hshort, List.flatMap_id, hflat]
              exact (stopsAfter_append hreturned _ n).trans (by simp)
          | remains hregion _ hread hstops =>
              rw [hread, returnsAfter_cons hregion.ne_code,
                stopsAfter_cons hs.not_stops_nil hstops]
              simp only [ih _ hlater hregion _ _ rfl, Mode.ClosesAfter, id_eq]

/-! ## Steps in code -/

/-- Number of parentheses in code that are open after these steps. -/
def openParentheses (steps : List Step) : Nat :=
  steps.foldl Step.nest 0

theorem Trace.depth_nest {s : ScanState} {steps : List Step} {rest : Text}
    (h : Trace s steps rest) : (lastState s steps).depth = steps.foldl Step.nest s.depth := by
  induction steps generalizing s with
  | nil => rfl
  | cons step later ih =>
      obtain ⟨hstep, hlater⟩ := h
      have hdepth := (stepAt_shape s step.first (step.more ++ (stepsText later ++ rest))).depth_eq
      rw [stepAt_before, hstep] at hdepth
      rw [lastState_cons, ih hlater, hdepth, List.foldl_cons]

/-- The step in code at which a region opens reads the mark of the region. -/
theorem stepAt_opens {region : Mode} {c : Char} {rest : Text} (h : region.Opens (c :: rest))
    (depth : Nat) :
    stepAt ⟨.code, depth⟩ c rest =
      ⟨c, region.mark.tail, region.cls, ⟨.code, depth⟩, ⟨region, depth⟩⟩ := by
  obtain ⟨hopened, hmark⟩ := h
  cases region with
  | code => exact hopened.elim
  | string =>
      obtain ⟨rfl, -⟩ := List.cons_prefix_cons.1 hmark
      rfl
  | name =>
      obtain ⟨rfl, -⟩ := List.cons_prefix_cons.1 hmark
      rfl
  | dollar tag =>
      obtain ⟨rfl, htag⟩ := List.cons_prefix_cons.1 hmark
      have hfound := (dollarTag?_eq_some_iff rest tag).2 ⟨htag, hopened⟩
      simp [stepAt, read, readCode, hfound, Mode.mark, Mode.cls]
  | lineComment =>
      obtain ⟨later, hlater⟩ := hmark
      obtain ⟨rfl, rfl⟩ := List.cons.inj hlater
      rfl
  | blockComment level =>
      obtain rfl : level = 1 := hopened
      obtain ⟨later, hlater⟩ := hmark
      obtain ⟨rfl, rfl⟩ := List.cons.inj hlater
      rfl

/-- A step that opens no region stays in code. -/
theorem stepAt_code_or_opens (depth : Nat) (c : Char) (rest : Text) :
    ((stepAt ⟨.code, depth⟩ c rest).cls = .code ∧
      (stepAt ⟨.code, depth⟩ c rest).after.mode = .code) ∨
    ∃ region : Mode, region.Opens (c :: rest) := by
  have hread : read ⟨.code, depth⟩ c rest = readCode depth c rest := rfl
  simp only [stepAt, hread, readCode]
  split
  case h_1 => exact .inr ⟨.string, trivial, by simp [Mode.mark]⟩
  case h_2 => exact .inr ⟨.name, trivial, by simp [Mode.mark]⟩
  case h_3 =>
    split
    · exact .inr ⟨.lineComment, trivial, by simp [Mode.mark]⟩
    · exact .inl ⟨rfl, rfl⟩
  case h_4 =>
    split
    · exact .inr ⟨.blockComment 1, rfl, by simp [Mode.mark]⟩
    · exact .inl ⟨rfl, rfl⟩
  case h_5 =>
    cases htag : dollarTag? rest with
    | none => exact .inl ⟨rfl, rfl⟩
    | some tag =>
        obtain ⟨hahead, hopened⟩ := (dollarTag?_eq_some_iff rest tag).1 htag
        exact .inr ⟨.dollar tag, hopened, List.cons_prefix_cons.2 ⟨rfl, hahead⟩⟩
  all_goals exact .inl ⟨rfl, rfl⟩

/-! ## Regions of a scan -/

/-- The region opens in code, between the steps `before` and `ahead` of the scan. -/
structure OpensAt (sql : Text) (region : Mode) (before ahead : List Step) : Prop where
  split : scan sql = before ++ ahead
  code : (lastState .start before).mode = .code
  opens : region.Opens (stepsText ahead)

/-- The region that opens at the start of `inside` does not end before `later`. -/
def StillOpen (region : Mode) (inside later : List Step) : Prop :=
  ∀ n, region.EndsAfter (stepsText (inside ++ later)) n → (stepsText inside).length < n

theorem Mode.IsOpened.mark_ne_nil {region : Mode} (h : region.IsOpened) : region.mark ≠ [] := by
  cases region <;> simp_all [Mode.IsOpened, Mode.mark]

/-- From the mark of a region on, a scan goes on as one that stands in the region. -/
theorem scanFrom_opens {region : Mode} {text : Text} (h : region.Opens text) (depth : Nat) :
    ∃ first, first.chars = region.mark ∧ first.cls = region.cls ∧
      first.before = ⟨.code, depth⟩ ∧ first.after = ⟨region, depth⟩ ∧
      scanFrom ⟨.code, depth⟩ 0 text =
        first :: scanFrom ⟨region, depth⟩ 0 (text.drop region.mark.length) := by
  have hmark := h.1.mark_ne_nil
  obtain ⟨c, more, hcons⟩ := List.exists_cons_of_ne_nil hmark
  obtain ⟨later, rfl⟩ := h.2
  rw [hcons, List.cons_append] at h
  have hstep := stepAt_opens h depth
  rw [hcons, List.tail_cons] at hstep
  refine ⟨⟨c, more, region.cls, ⟨.code, depth⟩, ⟨region, depth⟩⟩, hcons.symm, rfl, rfl, rfl, ?_⟩
  rw [hcons, List.cons_append, scanFrom_cons, hstep]
  simp

theorem returnsAfter_opens {region : Mode} {text : Text} (h : region.Opens text) (depth n : Nat) :
    ReturnsAfter (scanFrom ⟨.code, depth⟩ 0 text) n ↔ region.EndsAfter text n := by
  obtain ⟨first, hchars, -, -, hafter, hscan⟩ := scanFrom_opens h depth
  have hregion := h.1.isRegion
  have hmode : first.after.mode ≠ .code := by
    rw [hafter]
    exact hregion.ne_code
  rw [hscan, returnsAfter_cons hmode, hchars, Mode.EndsAfter]
  simp only [returnsAfter_region (s := ⟨region, depth⟩) hregion]

/-- A region is still open as long as no step leads back to code. -/
theorem stillOpen_iff {region : Mode} {inside later : List Step} {depth : Nat}
    (h : region.Opens (stepsText (inside ++ later)))
    (htrace : Trace ⟨.code, depth⟩ (inside ++ later) []) :
    StillOpen region inside later ↔ ∀ step ∈ inside, step.after.mode ≠ .code := by
  have hends := returnsAfter_opens h depth
  rw [htrace.scanFrom_stepsText (wellTagged_of_code rfl)] at hends
  constructor
  · intro hopen step hstep hcode
    obtain ⟨front, rest, rfl⟩ := List.append_of_mem hstep
    have hreturned : Returned (front ++ [step]) := ⟨step, List.getLast?_concat, hcode⟩
    have hbegins : front ++ [step] <+: front ++ step :: rest := ⟨rest, by simp⟩
    obtain ⟨taken, htaken, hshort⟩ :=
      exists_shortest (hbegins.trans (List.prefix_append _ later)) hreturned
    have hlt := hopen _ ((hends _).1 ⟨taken, hshort, rfl⟩)
    obtain ⟨more, hmore⟩ := htaken.trans hbegins
    rw [← hmore, stepsText_append, List.length_append] at hlt
    exact absurd hlt (by simp [stepsText])
  · intro hinside n hn
    obtain ⟨taken, hshort, rfl⟩ := (hends n).2 hn
    obtain ⟨last, hlast, hcode⟩ := hshort.stops
    have hmem : last ∈ taken := List.mem_of_getLast? hlast
    rcases List.prefix_or_prefix_of_prefix hshort.begins (List.prefix_append inside later) with
      htaken | ⟨more, rfl⟩
    · exact absurd hcode (hinside last (htaken.subset hmem))
    · cases more with
      | nil => exact absurd hcode (hinside last (by simpa using hmem))
      | cons step more => simp [stepsText, Step.chars]

/-- Steps that do not lead back to code stay in the region, at its depth. -/
theorem Trace.region {s : ScanState} {steps : List Step} {rest : Text} (h : Trace s steps rest)
    (hs : s.mode.IsRegion) (hsteps : ∀ step ∈ steps, step.after.mode ≠ .code) :
    (lastState s steps).mode.IsRegion ∧ (lastState s steps).mode.cls = s.mode.cls ∧
      (lastState s steps).depth = s.depth := by
  induction steps generalizing s with
  | nil => exact ⟨hs, rfl, rfl⟩
  | cons step later ih =>
      obtain ⟨hstep, hlater⟩ := h
      have hdepth := (stepAt_region hs step.first (step.more ++ (stepsText later ++ rest))).2
      have hproceeds := proceeds hs step.first (step.more ++ (stepsText later ++ rest))
      rw [hstep] at hdepth hproceeds
      cases hproceeds with
      | closes _ hcode => exact absurd hcode (hsteps step List.mem_cons_self)
      | remains hregion hcls =>
          obtain ⟨hmode, hclass, hlevel⟩ := ih hlater hregion fun x hx =>
            hsteps x (List.mem_cons_of_mem step hx)
          exact ⟨hmode, hclass.trans hcls, hlevel.trans hdepth⟩

theorem trace_of_split {sql : Text} {before ahead : List Step} (h : scan sql = before ++ ahead) :
    (lastState .start before).depth = openParentheses before ∧
      Trace (lastState .start before) ahead [] := by
  have htrace := trace_scan sql
  rw [h, trace_append] at htrace
  exact ⟨htrace.1.depth_nest, htrace.2⟩

theorem trace_of_code {sql : Text} {before ahead : List Step} (h : scan sql = before ++ ahead)
    (hcode : (lastState .start before).mode = .code) :
    Trace ⟨.code, openParentheses before⟩ ahead [] := by
  obtain ⟨hdepth, htrace⟩ := trace_of_split h
  rwa [← hdepth, ← hcode]

/-- A step of a region that is still open has the class of the region and the depth at its mark. -/
theorem OpensAt.step_inside {sql : Text} {region : Mode} {before inside later : List Step}
    {step : Step} (h : OpensAt sql region before (inside ++ step :: later))
    (hopen : StillOpen region inside (step :: later)) :
    step.cls = region.cls ∧ step.depth = openParentheses before := by
  have htrace := trace_of_code h.split h.code
  have hinside := (stillOpen_iff h.opens htrace).1 hopen
  obtain ⟨first, -, hcls, hbefore, hafter, hscan⟩ := scanFrom_opens h.opens (openParentheses before)
  rw [htrace.scanFrom_stepsText (wellTagged_of_code rfl)] at hscan
  cases inside with
  | nil =>
      obtain ⟨rfl, -⟩ := List.cons.inj hscan
      exact ⟨hcls, congrArg ScanState.depth hbefore⟩
  | cons x inside =>
      obtain ⟨rfl, -⟩ := List.cons.inj hscan
      have hahead : Trace x.after (inside ++ step :: later) [] := htrace.2
      rw [hafter, trace_append] at hahead
      obtain ⟨hmode, hclass, hdepth⟩ := hahead.1.region h.opens.1.isRegion fun y hy =>
        hinside y (List.mem_cons_of_mem x hy)
      have hstep := hahead.2.1
      have hstate : step.before = lastState ⟨region, openParentheses before⟩ inside := by
        rw [← hstep, stepAt_before]
      have hregion := (stepAt_region hmode step.first (step.more ++ (stepsText later ++ []))).1
      rw [hstep] at hregion
      exact ⟨hregion.trans hclass, (congrArg ScanState.depth hstate).trans hdepth⟩

/-- The steps since a scan that starts in code was there last. -/
theorem exists_last_code {s : ScanState} (hs : s.mode = .code) (front : List Step) :
    ∃ before inside, front = before ++ inside ∧ (lastState s before).mode = .code ∧
      ∀ step ∈ inside, step.after.mode ≠ .code := by
  induction front using List.reverseRecOn with
  | nil => exact ⟨[], [], rfl, hs, by simp⟩
  | append_singleton front step ih =>
      by_cases hcode : step.after.mode = .code
      · exact ⟨front ++ [step], [], by simp, by simpa using hcode, by simp⟩
      · obtain ⟨before, inside, rfl, hbefore, hinside⟩ := ih
        refine ⟨before, inside ++ [step], by simp, hbefore, ?_⟩
        simpa [or_imp, forall_and] using ⟨hinside, hcode⟩

theorem Trace.code_or_opens {depth : Nat} {step : Step} {later : List Step}
    (h : Trace ⟨.code, depth⟩ (step :: later) []) :
    (step.cls = .code ∧ step.after.mode = .code) ∨
      ∃ region : Mode, region.Opens (stepsText (step :: later)) := by
  have hread := stepAt_code_or_opens depth step.first (step.more ++ (stepsText later ++ []))
  rw [h.1] at hread
  simpa [Step.chars] using hread

/-- A step that is not code lies in a region that is still open. -/
theorem code_or_inside {sql : Text} {front later : List Step} {step : Step}
    (h : scan sql = front ++ step :: later) :
    step.cls = .code ∨ ∃ region before inside, front = before ++ inside ∧
      OpensAt sql region before (inside ++ step :: later) ∧
      StillOpen region inside (step :: later) := by
  obtain ⟨before, inside, rfl, hcode, hinside⟩ := exists_last_code (s := .start) rfl front
  rw [List.append_assoc] at h
  have htrace := trace_of_code h hcode
  by_cases hopens : ∃ region : Mode, region.Opens (stepsText (inside ++ step :: later))
  · obtain ⟨region, hregion⟩ := hopens
    exact .inr ⟨region, before, inside, rfl, ⟨h, hcode, hregion⟩,
      (stillOpen_iff hregion htrace).2 hinside⟩
  · cases inside with
    | nil => exact .inl (htrace.code_or_opens.resolve_right hopens).1
    | cons x inside =>
        exact absurd (htrace.code_or_opens.resolve_right hopens).2 (hinside x List.mem_cons_self)

/--
A scan follows the lexical grammar.

Where it stands in code and a region opens, it is back in code exactly at the end
of the region, or never if the region has none. A step in a region belongs to
that region and has the depth at its mark, any other step is code, and the depth
of a step is the number of parentheses in code that are open before it.
-/
theorem scan_follows_grammar (sql : Text) :
    (∀ region before ahead, OpensAt sql region before ahead →
      (∀ n, ReturnsAfter ahead n ↔ region.EndsAfter (stepsText ahead) n) ∧
      ∀ inside step later, ahead = inside ++ step :: later →
        StillOpen region inside (step :: later) →
          step.cls = region.cls ∧ step.depth = openParentheses before) ∧
    ∀ front step later, scan sql = front ++ step :: later →
      step.depth = openParentheses front ∧
      (step.cls = .code ∨ ∃ region before inside, front = before ++ inside ∧
        OpensAt sql region before (inside ++ step :: later) ∧
        StillOpen region inside (step :: later)) := by
  constructor
  · intro region before ahead h
    refine ⟨fun n => ?_, ?_⟩
    · have hends := returnsAfter_opens h.opens (openParentheses before) n
      rwa [(trace_of_code h.split h.code).scanFrom_stepsText (wellTagged_of_code rfl)] at hends
    · rintro inside step later rfl hopen
      exact h.step_inside hopen
  · intro front step later h
    obtain ⟨hdepth, htrace⟩ := trace_of_split h
    have hbefore : step.before = lastState .start front := by rw [← htrace.1, stepAt_before]
    exact ⟨(congrArg ScanState.depth hbefore).trans hdepth, code_or_inside h⟩

/-- The star of an opening mark closes nothing, and comments nest. -/
theorem scan_follows_grammar_nested : ReturnsAfter (scan "/*/ /**/'*/;".toList) 11 := by
  have hopens : OpensAt "/*/ /**/'*/;".toList (.blockComment 1) []
      (scan "/*/ /**/'*/;".toList) := ⟨rfl, rfl, rfl, by decide +kernel⟩
  refine (((scan_follows_grammar _).1 _ _ _ hopens).1 11).2 ⟨9, ?_, rfl⟩
  rw [stepsText_scan]
  exact ⟨["/", " ", "/*", "*/", "'", "*/"].map String.toList, by decide +kernel, rfl⟩

end AuroraMigration
