import AuroraMigration.Schema.Pattern

/-!
# What a pattern matches

The match relation of patterns, by rules: which stretch of a line a pattern
matches between the text before it and the text after it. The search for places
where a match can end finds exactly the stretches of this relation, so a line is
found to match exactly if some stretch of it does.
-/

namespace AuroraMigration

namespace Pattern

/-- The pattern matches `mid` in the line `left ++ mid ++ right`. -/
def Matches : Pattern → (left mid right : Text) → Prop
  | .empty, _, mid, _ => mid = []
  | .char c, _, mid, _ => mid = [c]
  | .one set, _, mid, _ => ∃ c, mid = [c] ∧ set.mem c = true
  | .many set, _, mid, _ => ∀ c ∈ mid, set.mem c = true
  | .seq first second, left, mid, right =>
      ∃ mid₁ mid₂, mid = mid₁ ++ mid₂ ∧
        first.Matches left mid₁ (mid₂ ++ right) ∧ second.Matches (left ++ mid₁) mid₂ right
  | .either first second, left, mid, right =>
      first.Matches left mid right ∨ second.Matches left mid right
  | .lineStart, left, mid, _ => mid = [] ∧ left = []
  | .lineEnd, _, mid, right => mid = [] ∧ right = []
  | .wordEdge, left, mid, right =>
      mid = [] ∧ left.getLast?.any isWordChar ≠ right.head?.any isWordChar

/-- Some stretch of the line is matched. -/
def Found (pattern : Pattern) (line : Text) : Prop :=
  ∃ left mid right, line = left ++ (mid ++ right) ∧ pattern.Matches left mid right

/-- The place between two texts. -/
def placeBetween (left right : Text) : Place :=
  ⟨left.getLast?, right⟩

theorem mem_onward_iff (left text : Text) (place : Place) :
    place ∈ Place.onward left.getLast? text ↔
      ∃ mid right, text = mid ++ right ∧ place = placeBetween (left ++ mid) right := by
  induction text generalizing left with
  | nil =>
      rw [Place.onward, List.mem_singleton]
      constructor
      · rintro rfl
        exact ⟨[], [], rfl, by simp [placeBetween]⟩
      · rintro ⟨mid, right, hsplit, rfl⟩
        obtain ⟨rfl, rfl⟩ := List.append_eq_nil_iff.1 hsplit.symm
        simp [placeBetween]
  | cons c text ih =>
      have hnext : (left ++ [c]).getLast? = some c := List.getLast?_concat
      have ih := ih (left ++ [c])
      rw [hnext] at ih
      rw [Place.onward, List.mem_cons, ih]
      constructor
      · rintro (rfl | ⟨mid, right, rfl, rfl⟩)
        · exact ⟨[], c :: text, rfl, by simp [placeBetween]⟩
        · exact ⟨c :: mid, right, rfl, by simp⟩
      · rintro ⟨mid, right, hsplit, rfl⟩
        cases mid with
        | nil => exact .inl (by simp_all [placeBetween])
        | cons d mid =>
            obtain ⟨rfl, rfl⟩ := List.cons.inj hsplit
            exact .inr ⟨mid, right, rfl, by simp⟩

theorem mem_afterMany_iff (set : CharSet) (left text : Text) (place : Place) :
    place ∈ Place.afterMany set left.getLast? text ↔
      ∃ mid right, text = mid ++ right ∧ place = placeBetween (left ++ mid) right ∧
        ∀ c ∈ mid, set.mem c = true := by
  induction text generalizing left with
  | nil =>
      rw [Place.afterMany, List.mem_singleton]
      constructor
      · rintro rfl
        exact ⟨[], [], rfl, by simp [placeBetween], by simp⟩
      · rintro ⟨mid, right, hsplit, rfl, -⟩
        obtain ⟨rfl, rfl⟩ := List.append_eq_nil_iff.1 hsplit.symm
        simp [placeBetween]
  | cons c text ih =>
      have hnext : (left ++ [c]).getLast? = some c := List.getLast?_concat
      have ih := ih (left ++ [c])
      rw [hnext] at ih
      rw [Place.afterMany, List.mem_cons]
      constructor
      · rintro (rfl | hlater)
        · exact ⟨[], c :: text, rfl, by simp [placeBetween], by simp⟩
        · split at hlater
          · rename_i hc
            obtain ⟨mid, right, rfl, rfl, hmid⟩ := ih.1 hlater
            exact ⟨c :: mid, right, rfl, by simp, by simpa [hc] using hmid⟩
          · cases hlater
      · rintro ⟨mid, right, hsplit, rfl, hmid⟩
        cases mid with
        | nil => exact .inl (by simp_all [placeBetween])
        | cons d mid =>
            obtain ⟨rfl, rfl⟩ := List.cons.inj hsplit
            rw [if_pos (hmid c List.mem_cons_self)]
            refine .inr (ih.2 ⟨mid, right, rfl, by simp, ?_⟩)
            exact fun x hx => hmid x (List.mem_cons_of_mem c hx)

/-- A pattern that reads nothing ends where it starts, if its condition holds there. -/
theorem mem_here_iff (condition : Text → Prop) (left text : Text) [Decidable (condition text)]
    (place : Place) :
    place ∈ (if condition text then [placeBetween left text] else []) ↔
      ∃ mid right, text = mid ++ right ∧ place = placeBetween (left ++ mid) right ∧
        mid = [] ∧ condition right := by
  constructor
  · intro h
    split at h
    · rename_i hcondition
      exact ⟨[], text, rfl, by simpa using h, rfl, hcondition⟩
    · cases h
  · rintro ⟨_, right, rfl, rfl, rfl, hcondition⟩
    simp_all

/-- A pattern that reads one character ends behind it, if its condition holds of it. -/
theorem mem_behind_iff (condition : Char → Prop) [DecidablePred condition] (left text : Text)
    (place : Place) :
    place ∈ (match text with
      | [] => []
      | c :: rest => if condition c then [(⟨some c, rest⟩ : Place)] else []) ↔
      ∃ mid right, text = mid ++ right ∧ place = placeBetween (left ++ mid) right ∧
        ∃ c, mid = [c] ∧ condition c := by
  constructor
  · intro h
    split at h
    · cases h
    · rename_i c rest
      split at h
      · rename_i hcondition
        exact ⟨[c], rest, rfl, by simpa [placeBetween] using h, c, rfl, hcondition⟩
      · cases h
  · rintro ⟨_, right, rfl, rfl, c, rfl, hcondition⟩
    simp [placeBetween, hcondition]

/-- The places where a match can end are those behind what is matched. -/
theorem mem_ends_iff (pattern : Pattern) (left text : Text) (place : Place) :
    place ∈ pattern.ends (placeBetween left text) ↔
      ∃ mid right, text = mid ++ right ∧ place = placeBetween (left ++ mid) right ∧
        pattern.Matches left mid right := by
  induction pattern generalizing left text place with
  | empty =>
      simpa only [ends, Matches, if_true, and_true] using
        mem_here_iff (fun _ => True) left text place
  | char c =>
      refine (mem_behind_iff (· = c) left text place).trans ?_
      simp only [Matches, exists_eq_right]
  | one set => exact mem_behind_iff (set.mem · = true) left text place
  | many set => exact mem_afterMany_iff set left text place
  | seq first second ihFirst ihSecond =>
      simp only [ends, List.mem_flatMap, ihFirst]
      constructor
      · rintro ⟨_, ⟨mid₁, later, rfl, rfl, hfirst⟩, hplace⟩
        obtain ⟨mid₂, right, rfl, rfl, hsecond⟩ := (ihSecond _ _ _).1 hplace
        exact ⟨mid₁ ++ mid₂, right, by simp, by simp, mid₁, mid₂, rfl, hfirst, hsecond⟩
      · rintro ⟨_, right, rfl, rfl, mid₁, mid₂, rfl, hfirst, hsecond⟩
        refine ⟨_, ⟨mid₁, mid₂ ++ right, by simp, rfl, hfirst⟩, ?_⟩
        exact (ihSecond _ _ _).2 ⟨mid₂, right, rfl, by simp, hsecond⟩
  | either first second ihFirst ihSecond =>
      simp only [ends, List.mem_append, ihFirst, ihSecond, Matches, and_or_left, exists_or]
  | lineStart =>
      have hends : lineStart.ends (placeBetween left text) =
          if left = [] then [placeBetween left text] else [] := by
        simp [ends, placeBetween]
      rw [hends]
      exact mem_here_iff (fun _ => left = []) left text place
  | lineEnd =>
      have hends : lineEnd.ends (placeBetween left text) =
          if text = [] then [placeBetween left text] else [] := by
        simp [ends, placeBetween]
      rw [hends]
      exact mem_here_iff (· = []) left text place
  | wordEdge =>
      have hends : wordEdge.ends (placeBetween left text) =
          if left.getLast?.any isWordChar ≠ text.head?.any isWordChar then
            [placeBetween left text] else [] := by
        simp [ends, placeBetween, Place.isWordEdge]
      rw [hends]
      exact mem_here_iff
        (fun right => left.getLast?.any isWordChar ≠ right.head?.any isWordChar) left text place

/-- A match is searched for, and found if there is one. -/
theorem occursIn_iff (pattern : Pattern) (line : Text) :
    pattern.occursIn line = true ↔ pattern.Found line := by
  have hplaces := mem_onward_iff [] line
  simp only [List.getLast?_nil, List.nil_append] at hplaces
  simp only [occursIn, List.any_eq_true, hplaces, Bool.not_eq_true',
    List.isEmpty_eq_false_iff_exists_mem]
  constructor
  · rintro ⟨_, ⟨left, text, rfl, rfl⟩, place, hplace⟩
    obtain ⟨mid, right, rfl, -, hmatch⟩ := (mem_ends_iff pattern left text place).1 hplace
    exact ⟨left, mid, right, rfl, hmatch⟩
  · rintro ⟨left, mid, right, rfl, hmatch⟩
    refine ⟨_, ⟨left, mid ++ right, rfl, rfl⟩, placeBetween (left ++ mid) right, ?_⟩
    exact (mem_ends_iff pattern left _ _).2 ⟨mid, right, rfl, rfl, hmatch⟩

instance (pattern : Pattern) (line : Text) : Decidable (pattern.Found line) :=
  decidable_of_iff _ (occursIn_iff pattern line)

end Pattern

end AuroraMigration
