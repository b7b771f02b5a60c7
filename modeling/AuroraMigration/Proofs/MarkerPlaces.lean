import AuroraMigration.Sql.Statement
import Mathlib.Data.List.Basic

/-!
# Statements by the places of markers

The statements among fragments are found in one pass that remembers whether a
transaction is open and which comments wait for a statement. Here both are said
by the places of the markers alone: a transaction is open at a place if a begin
marker before it has no commit marker behind it, and the comments that wait are
those of the begin markers behind the last statement.
-/

namespace AuroraMigration

/-! ## Places -/

/-- The marker at a place, if one stands there. -/
def markerAt (found : List Fragment) (i : Nat) : Option Marker :=
  found[i]?.bind Fragment.marker?

/-- The comment above the fragment at a place. -/
def commentAt (found : List Fragment) (i : Nat) : List Text :=
  (found[i]?.map Fragment.comment).getD []

/-- The places of the fragments that are no markers, in order. -/
def statementPlaces (found : List Fragment) : List Nat :=
  (List.range found.length).filter fun i => (markerAt found i).isNone

/-- A begin marker stands before the place, and no commit marker between the two. -/
def OpenedBefore (found : List Fragment) (i : Nat) : Prop :=
  ∃ b < i, markerAt found b = some .begin ∧ ∀ k, b < k → k < i → markerAt found k ≠ some .commit

/-- A commit marker stands behind the place. -/
def CommitsBehind (found : List Fragment) (i : Nat) : Prop :=
  ∃ c, i < c ∧ markerAt found c = some .commit

/-- A begin marker stands at place `b`, and nothing but markers between it and place `i`. -/
def WaitsFor (found : List Fragment) (i b : Nat) : Prop :=
  markerAt found b = some .begin ∧ ∀ k < i, b < k → markerAt found k ≠ none

instance (found : List Fragment) (i b : Nat) : Decidable (WaitsFor found i b) :=
  inferInstanceAs (Decidable (_ ∧ _))

/-- The begin markers behind the last statement before a place, in order. -/
def waitingPlaces (found : List Fragment) (i : Nat) : List Nat :=
  (List.range i).filter (WaitsFor found i ·)

/-- What the statement made of the fragment at a place is. -/
structure StatementAt (found : List Fragment) (i : Nat) (statement : Statement) : Prop where
  body : found[i]?.map Fragment.body = some statement.body
  wrapped : statement.wrapped = true ↔ OpenedBefore found i ∧ CommitsBehind found i
  comment : statement.comment =
    (waitingPlaces found i).flatMap (commentAt found) ++ commentAt found i

/-! ## From one place to the next -/

theorem openedBefore_zero (found : List Fragment) : ¬OpenedBefore found 0 := by
  rintro ⟨b, hb, -⟩
  exact Nat.not_lt_zero b hb

theorem openedBefore_succ (found : List Fragment) (i : Nat) :
    OpenedBefore found (i + 1) ↔
      markerAt found i = some .begin ∨
        (markerAt found i ≠ some .commit ∧ OpenedBefore found i) := by
  constructor
  · rintro ⟨b, hb, hbegin, hnone⟩
    rcases Nat.lt_or_ge b i with hlt | hge
    · exact .inr ⟨hnone i hlt (Nat.lt_succ_self i), b, hlt, hbegin,
        fun k hbk hki => hnone k hbk (Nat.lt_succ_of_lt hki)⟩
    · obtain rfl : b = i := by omega
      exact .inl hbegin
  · rintro (hbegin | ⟨hcommit, b, hb, hbegin, hnone⟩)
    · exact ⟨i, Nat.lt_succ_self i, hbegin, fun k hk hk' => absurd hk (by omega)⟩
    · refine ⟨b, Nat.lt_succ_of_lt hb, hbegin, fun k hbk hki => ?_⟩
      rcases Nat.lt_or_ge k i with hlt | hge
      · exact hnone k hbk hlt
      · obtain rfl : k = i := by omega
        exact hcommit

theorem waitsFor_succ {found : List Fragment} {i b : Nat} (hb : b < i) :
    WaitsFor found (i + 1) b ↔ markerAt found i ≠ none ∧ WaitsFor found i b := by
  constructor
  · rintro ⟨hbegin, h⟩
    exact ⟨h i (by omega) hb, hbegin, fun k hk hbk => h k (by omega) hbk⟩
  · rintro ⟨hi, hbegin, h⟩
    refine ⟨hbegin, fun k hk hbk => ?_⟩
    rcases Nat.lt_or_ge k i with hlt | hge
    · exact h k hlt hbk
    · obtain rfl : k = i := by omega
      exact hi

theorem waitsFor_self {found : List Fragment} {i : Nat} :
    WaitsFor found (i + 1) i ↔ markerAt found i = some .begin :=
  ⟨fun h => h.1, fun h => ⟨h, fun k hk hik => absurd hik (by omega)⟩⟩

/-- Markers keep the begin markers that wait, a begin marker joins them, and a statement takes
them all. -/
theorem waitingPlaces_succ (found : List Fragment) (i : Nat) :
    waitingPlaces found (i + 1) =
      match markerAt found i with
      | some .begin => waitingPlaces found i ++ [i]
      | some .commit => waitingPlaces found i
      | none => [] := by
  have hbefore : (List.range i).filter (WaitsFor found (i + 1) ·) =
      if markerAt found i = none then [] else waitingPlaces found i := by
    split
    · rename_i hnone
      rw [List.filter_eq_nil_iff]
      intro b hb
      simp [waitsFor_succ (List.mem_range.1 hb), hnone]
    · rename_i hsome
      apply List.filter_congr
      intro b hb
      simp [waitsFor_succ (List.mem_range.1 hb), hsome]
  rw [waitingPlaces, List.range_succ, List.filter_append, hbefore]
  cases hmarker : markerAt found i with
  | none => simp [waitsFor_self, hmarker]
  | some marker => cases marker <;> simp [waitsFor_self, hmarker]

theorem commitsBehind_iff {found rest : List Fragment} {fragment : Fragment} {i : Nat}
    (h : found.drop i = fragment :: rest) :
    CommitsBehind found i ↔ rest.any (·.marker? == some .commit) = true := by
  have hrest : ∀ k, rest[k]? = found[i + 1 + k]? := by
    intro k
    have hdrop : found.drop (i + 1) = rest := by rw [← List.drop_drop, h]; rfl
    rw [← hdrop, List.getElem?_drop]
  rw [List.any_eq_true]
  constructor
  · rintro ⟨c, hc, hcommit⟩
    obtain ⟨commit, hat, hmarker⟩ := Option.bind_eq_some_iff.1 hcommit
    refine ⟨commit, ?_, beq_iff_eq.2 hmarker⟩
    apply List.mem_of_getElem? (i := c - (i + 1))
    rw [hrest, ← hat]
    congr 1
    omega
  · rintro ⟨commit, hmem, hmarker⟩
    obtain ⟨k, hk⟩ := List.mem_iff_getElem?.1 hmem
    refine ⟨i + 1 + k, by omega, ?_⟩
    rw [hrest] at hk
    rw [markerAt, hk]
    exact beq_iff_eq.1 hmarker

/-! ## All statements -/

/-- The pass over fragments knows at each place what the markers before the place say. -/
theorem statementsFrom_places {found rest : List Fragment} {i : Nat} (hrest : found.drop i = rest)
    {opened : Bool} (hopened : opened = true ↔ OpenedBefore found i) {carried : List Text}
    (hcarried : carried = (waitingPlaces found i).flatMap (commentAt found)) :
    List.Forall₂ (StatementAt found)
      ((List.range' i rest.length).filter fun k => (markerAt found k).isNone)
      (statementsFrom opened carried rest) := by
  induction rest generalizing i opened carried with
  | nil => exact .nil
  | cons fragment rest ih =>
      have hat : found[i]? = some fragment := by
        have hhead := List.head?_drop (l := found) (i := i)
        rw [hrest] at hhead
        exact hhead.symm
      have hnext : found.drop (i + 1) = rest := by rw [← List.drop_drop, hrest]; rfl
      have hmarkerAt : markerAt found i = fragment.marker? := by rw [markerAt, hat]; rfl
      have hcomment : commentAt found i = fragment.comment := by rw [commentAt, hat]; rfl
      have hopen := openedBefore_succ found i
      have hwait := waitingPlaces_succ found i
      rw [hmarkerAt] at hopen hwait
      rw [List.length_cons, List.range'_succ]
      cases hmarker : fragment.marker? with
      | none =>
          rw [List.filter_cons_of_pos (by simp [hmarkerAt, hmarker])]
          simp only [statementsFrom, hmarker]
          simp only [hmarker] at hopen hwait
          refine .cons ⟨by rw [hat]; rfl, ?_, by rw [hcomment, hcarried]⟩ (ih hnext ?_ ?_)
          · rw [Bool.and_eq_true, hopened, commitsBehind_iff hrest]
          · rw [hopened, hopen]
            simp
          · rw [hwait]
            rfl
      | some marker =>
          rw [List.filter_cons_of_neg (by simp [hmarkerAt, hmarker])]
          cases marker with
          | begin =>
              simp only [statementsFrom, hmarker]
              simp only [hmarker] at hopen hwait
              refine ih hnext (by simp [hopen]) ?_
              rw [hwait, List.flatMap_append, hcarried, List.flatMap_singleton, hcomment]
          | commit =>
              simp only [statementsFrom, hmarker]
              simp only [hmarker] at hopen hwait
              exact ih hnext (by simp [hopen]) (by rw [hwait, hcarried])

/--
Transaction markers are taken out as their places say.

Each fragment that is no marker becomes one statement, in order and with its
body. The statement is wrapped exactly when a transaction is open before it and
a commit marker follows, and it has the comments of the begin markers between
the statement before it and itself, followed by its own.
-/
theorem statements_by_marker_places (found : List Fragment) :
    List.Forall₂ (StatementAt found) (statementPlaces found) (statementsFrom false [] found) := by
  have hclosed : false = true ↔ OpenedBefore found 0 := by simpa using openedBefore_zero found
  rw [statementPlaces, List.range_eq_range']
  exact statementsFrom_places List.drop_zero hclosed rfl

end AuroraMigration
