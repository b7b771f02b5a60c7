import AuroraMigration.Proofs.Thinning
import Mathlib.Data.List.DropRight

/-!
# Lines and the ends of texts

Gluing the lines of a text together again gives the text, except for carriage
returns at line ends and one line feed at the very end. Trimming takes blanks
from both ends and nothing else.
-/

namespace AuroraMigration

/-- What gives nothing may be left out. -/
theorem flatMap_filter {α β : Type} {p : α → Bool} {f : α → List β} {l : List α}
    (h : ∀ x ∈ l, p x = false → f x = []) : (l.filter p).flatMap f = l.flatMap f := by
  induction l with
  | nil => rfl
  | cons x l ih =>
      have ih := ih fun y hy => h y (List.mem_cons_of_mem x hy)
      cases hx : p x with
      | true => rw [List.filter_cons_of_pos hx, List.flatMap_cons, List.flatMap_cons, ih]
      | false =>
          have hnone := h x List.mem_cons_self hx
          rw [List.filter_cons_of_neg (by simp [hx]), List.flatMap_cons, hnone, ih, List.nil_append]

/-! ## Ends -/

theorem dropTrailing_eq_rdropWhile {α : Type} (p : α → Bool) (l : List α) :
    dropTrailing p l = l.rdropWhile p := rfl

/-- A list is what is left of it and a tail of the members that were removed. -/
theorem dropTrailing_split {α : Type} (p : α → Bool) (l : List α) :
    ∃ tail, l = dropTrailing p l ++ tail ∧ ∀ x ∈ tail, p x = true := by
  refine ⟨l.rtakeWhile p, ?_, fun x hx => List.mem_rtakeWhile_imp hx⟩
  rw [dropTrailing_eq_rdropWhile, List.rdropWhile_append_rtakeWhile]

theorem mem_of_mem_dropTrailing {α : Type} {p : α → Bool} {l : List α} {x : α}
    (h : x ∈ dropTrailing p l) : x ∈ l := by
  obtain ⟨tail, hsplit, -⟩ := dropTrailing_split p l
  rw [hsplit]
  exact List.mem_append_left tail h

theorem dropTrailing_last {α : Type} {p : α → Bool} {l : List α} {x : α}
    (h : (dropTrailing p l).getLast? = some x) : p x = false := by
  rw [dropTrailing_eq_rdropWhile] at h
  have hne : l.rdropWhile p ≠ [] := by
    intro hnil
    simp [hnil] at h
  have hlast := List.rdropWhile_last_not p l hne
  rw [List.getLast?_eq_some_getLast hne, Option.some.injEq] at h
  rw [h] at hlast
  simpa using hlast

theorem dropTrailing_eq_self {α : Type} {p : α → Bool} {l : List α}
    (h : ∀ x, l.getLast? = some x → p x = false) : dropTrailing p l = l := by
  rw [dropTrailing_eq_rdropWhile, List.rdropWhile_eq_self_iff]
  intro hne
  rw [h _ (List.getLast?_eq_some_getLast hne)]
  simp

theorem dropTrailing_append {α : Type} {p : α → Bool} {tail : List α} (l : List α)
    (h : ∀ x ∈ tail, p x = true) : dropTrailing p (l ++ tail) = dropTrailing p l := by
  simp only [dropTrailing, List.reverse_append]
  rw [List.dropWhile_append_of_pos]
  intro x hx
  exact h x (List.mem_reverse.1 hx)

namespace Text

/-- A text is what trimming leaves of it between two stretches of blanks. -/
theorem trim_split (text : Text) :
    ∃ front back, text = front ++ (trim text ++ back) ∧ (∀ c ∈ front, isBlank c = true) ∧
      ∀ c ∈ back, isBlank c = true := by
  obtain ⟨back, hback, hblank⟩ := dropTrailing_split isBlank (trimStart text)
  refine ⟨text.takeWhile isBlank, back, ?_, fun c hc => List.mem_takeWhile_imp hc, hblank⟩
  have htext : text.takeWhile isBlank ++ trimStart text = text :=
    List.takeWhile_append_dropWhile
  rw [trim, trimEnd, ← hback, htext]

theorem trimStart_append_of_blank {front : Text} (h : ∀ c ∈ front, isBlank c = true)
    (text : Text) : trimStart (front ++ text) = trimStart text :=
  List.dropWhile_append_of_pos h

theorem trimStart_eq_self {text : Text} (h : ∀ c, text.head? = some c → isBlank c = false) :
    trimStart text = text := by
  cases text with
  | nil => rfl
  | cons c rest => simp [trimStart, h c rfl]

theorem trimEnd_eq_self {text : Text} (h : ∀ c, text.getLast? = some c → isBlank c = false) :
    trimEnd text = text :=
  dropTrailing_eq_self h

theorem trimEnd_append_of_blank {back : Text} (text : Text)
    (h : ∀ c ∈ back, isBlank c = true) : trimEnd (text ++ back) = trimEnd text :=
  dropTrailing_append text h

theorem trimStart_head {text : Text} {c : Char} (h : (trimStart text).head? = some c) :
    isBlank c = false := by
  have hne : text.dropWhile isBlank ≠ [] := by
    intro hnil
    simp [trimStart, hnil] at h
  have hnot := List.head_dropWhile_not isBlank hne
  rw [trimStart, List.head?_eq_some_head hne, Option.some.injEq] at h
  rwa [h] at hnot

theorem trim_head {text : Text} {c : Char} (h : (trim text).head? = some c) :
    isBlank c = false := by
  obtain ⟨back, hback, -⟩ := dropTrailing_split isBlank (trimStart text)
  have hhead : (trimStart text).head? = some c := by
    rw [hback]
    change (trim text ++ back).head? = some c
    rw [List.head?_append, h]
    rfl
  exact trimStart_head hhead

theorem trimEnd_last {text : Text} {c : Char} (h : (trimEnd text).getLast? = some c) :
    isBlank c = false :=
  dropTrailing_last h

@[simp] theorem trimEnd_trimEnd (text : Text) : trimEnd (trimEnd text) = trimEnd text :=
  trimEnd_eq_self fun _ => trimEnd_last

theorem trim_last {text : Text} {c : Char} (h : (trim text).getLast? = some c) :
    isBlank c = false :=
  trimEnd_last h

theorem trim_eq_self {text : Text} (hhead : ∀ c, text.head? = some c → isBlank c = false)
    (hlast : ∀ c, text.getLast? = some c → isBlank c = false) : trim text = text := by
  rw [trim, trimStart_eq_self hhead, trimEnd_eq_self hlast]

theorem trim_append_of_blank {back : Text} (text : Text) (h : ∀ c ∈ back, isBlank c = true) :
    trim (text ++ back) = trim text := by
  by_cases htext : ∀ c ∈ text, isBlank c = true
  · have hstart : ∀ l : Text, (∀ c ∈ l, isBlank c = true) → trim l = [] := by
      intro l hl
      have hnil : trimStart l = [] := List.dropWhile_eq_nil_iff.2 hl
      rw [trim, hnil]
      rfl
    rw [hstart text htext, hstart (text ++ back)]
    intro c hc
    rcases List.mem_append.1 hc with hc | hc
    · exact htext c hc
    · exact h c hc
  · have hstart : trimStart (text ++ back) = trimStart text ++ back := by
      rw [trimStart, List.dropWhile_append]
      rw [if_neg]
      · rfl
      · intro hnil
        apply htext
        rw [List.isEmpty_iff, List.dropWhile_eq_nil_iff] at hnil
        exact hnil
    rw [trim, hstart, trimEnd_append_of_blank _ h]
    rfl

end Text

/-! ## Lines -/

namespace Text

/-- A text without one line feed at its end. -/
def chomp (text : Text) : Text :=
  if text.getLast? = some '\n' then text.dropLast else text

theorem chomp_cons {c : Char} {text : Text} (h : text ≠ [] ∨ c ≠ '\n') :
    chomp (c :: text) = c :: chomp text := by
  cases text with
  | nil => simpa [chomp] using h
  | cons d text =>
      unfold chomp
      rw [List.getLast?_cons_cons]
      split <;> rfl

@[simp] theorem lines_eq_nil_iff (text : Text) : lines text = [] ↔ text = [] := by
  constructor
  · intro h
    unfold lines at h
    split at h
    · rfl
    · cases h
    · cases h
    · split at h <;> cases h
  · rintro rfl
    rfl

theorem dropReturns_ne_nil {text : Text} (h : text ≠ []) : dropReturns text ≠ [] := by
  unfold dropReturns
  split <;> simp_all

theorem join_cons {separator part : Text} {others : List Text} (h : others ≠ []) :
    join separator (part :: others) = part ++ separator ++ join separator others := by
  cases others with
  | nil => exact absurd rfl h
  | cons next others => rfl

theorem not_mem_of_mem_splitOn {separator : Char} {text part : Text}
    (h : part ∈ text.splitOn separator) : separator ∉ part := by
  induction text generalizing part with
  | nil =>
      rw [List.splitOn_nil, List.mem_singleton] at h
      simp [h]
  | cons c rest ih =>
      rw [List.splitOn_cons_eq_if_modifyHead] at h
      obtain ⟨first, others, hrest⟩ :=
        List.exists_cons_of_ne_nil (List.splitOn_ne_nil separator rest)
      rw [hrest] at h ih
      split at h
      · rcases List.mem_cons.1 h with rfl | h
        · simp
        · exact ih h
      · rename_i hc
        rcases List.mem_cons.1 h with rfl | h
        · have hfirst := ih List.mem_cons_self
          rw [beq_iff_eq] at hc
          simp [hfirst, Ne.symm hc]
        · exact ih (List.mem_cons_of_mem first h)

theorem join_splitOn (separator : Char) (text : Text) :
    join [separator] (text.splitOn separator) = text := by
  have hjoin : ∀ parts : List Text, join [separator] parts = [separator].intercalate parts := by
    intro parts
    induction parts with
    | nil => rfl
    | cons part others ih =>
        cases others with
        | nil => simp [join]
        | cons next others => rw [join_cons (by simp), ih, List.intercalate_cons_cons]
  rw [hjoin, List.intercalate_splitOn]

theorem mem_join_of_mem {separator : Text} {parts : List Text} {part : Text} (h : part ∈ parts)
    {c : Char} (hc : c ∈ part) : c ∈ join separator parts := by
  induction parts with
  | nil => cases h
  | cons first others ih =>
      by_cases hnil : others = []
      · subst hnil
        rw [List.mem_singleton] at h
        exact h ▸ hc
      · rw [join_cons hnil, List.mem_append, List.mem_append]
        rcases List.mem_cons.1 h with rfl | h
        · exact .inl (.inl hc)
        · exact .inr (ih h)

theorem mem_join {separator : Text} {parts : List Text} {c : Char} (h : c ∈ join separator parts) :
    c ∈ separator ∨ ∃ part ∈ parts, c ∈ part := by
  induction parts with
  | nil => cases h
  | cons part others ih =>
      by_cases hnil : others = []
      · subst hnil
        exact .inr ⟨part, List.mem_cons_self, h⟩
      · rw [join_cons hnil] at h
        rcases List.mem_append.1 h with h | h
        · rcases List.mem_append.1 h with h | h
          · exact .inr ⟨part, List.mem_cons_self, h⟩
          · exact .inl h
        · rcases ih h with h | ⟨other, hother, h⟩
          · exact .inl h
          · exact .inr ⟨other, List.mem_cons_of_mem part hother, h⟩

/-- Glued together, the lines of a text are the text up to how its lines end. -/
theorem join_lines (text : Text) : join ['\n'] (lines text) = chomp (dropReturns text) := by
  fun_induction lines text with
  | case1 => rfl
  | case2 rest ih =>
      rw [dropReturns_cons (by simp)]
      by_cases hrest : rest = []
      · subst hrest
        rfl
      · rw [join_cons (by simpa using hrest), chomp_cons (.inl (dropReturns_ne_nil hrest)), ih]
        rfl
  | case3 rest ih =>
      rw [dropReturns]
      by_cases hrest : rest = []
      · subst hrest
        rfl
      · rw [join_cons (by simpa using hrest), chomp_cons (.inl (dropReturns_ne_nil hrest)), ih]
        rfl
  | case4 c rest hfeed hreturn hlines ih =>
      obtain rfl := (lines_eq_nil_iff rest).1 hlines
      rw [dropReturns_cons (by simp)]
      rw [chomp_cons (.inr hfeed)]
      rfl
  | case5 c rest hfeed hreturn line others hlines ih =>
      have hkeep : ¬ (c = '\r' ∧ rest.head? = some '\n') := by
        rintro ⟨rfl, hhead⟩
        obtain ⟨rest', rfl⟩ := List.head?_eq_some_iff.1 hhead
        exact hreturn rest' rfl rfl
      rw [dropReturns_cons hkeep, chomp_cons (.inr hfeed), ← ih, hlines]
      cases others <;> rfl

/-- A line without the carriage return that belongs to its end. -/
def dropReturn (line : Text) : Text :=
  if line.getLast? = some '\r' then line.dropLast else line

theorem lines_cons {c : Char} {rest : Text} (hfeed : c ≠ '\n')
    (hreturn : ¬ (c = '\r' ∧ rest.head? = some '\n')) :
    lines (c :: rest) =
      match lines rest with
      | [] => [[c]]
      | line :: others => (c :: line) :: others := by
  have hpair : ∀ rest', c = '\r' → rest = '\n' :: rest' → False := by
    rintro rest' rfl rfl
    exact hreturn ⟨rfl, rfl⟩
  exact lines.eq_4 c rest hfeed hpair

theorem lines_of_not_mem {line : Text} (h : '\n' ∉ line) (hne : line ≠ []) :
    lines line = [line] := by
  induction line with
  | nil => exact absurd rfl hne
  | cons c line ih =>
      have hc : c ≠ '\n' := fun hc => h (hc ▸ List.mem_cons_self)
      have hline : '\n' ∉ line := fun hmem => h (List.mem_cons_of_mem c hmem)
      have hhead : line.head? ≠ some '\n' := fun hhead => hline (List.mem_of_head? hhead)
      rw [lines_cons hc fun hh => hhead hh.2]
      by_cases hnil : line = []
      · subst hnil
        rfl
      · rw [ih hline hnil]

/-- The first line of a text goes up to its first line feed. -/
theorem lines_append_feed {line : Text} (h : '\n' ∉ line) (rest : Text) :
    lines (line ++ '\n' :: rest) = dropReturn line :: lines rest := by
  induction line with
  | nil => rfl
  | cons c line ih =>
      have hc : c ≠ '\n' := fun hc => h (hc ▸ List.mem_cons_self)
      have hline : '\n' ∉ line := fun hmem => h (List.mem_cons_of_mem c hmem)
      by_cases hreturn : c = '\r' ∧ line = []
      · obtain ⟨rfl, rfl⟩ := hreturn
        rfl
      · have hhead : ¬ (c = '\r' ∧ (line ++ '\n' :: rest).head? = some '\n') := by
          rintro ⟨rfl, hhead⟩
          cases line with
          | nil => exact hreturn ⟨rfl, rfl⟩
          | cons d line => simp_all
        rw [List.cons_append, lines_cons hc hhead, ih hline]
        dsimp only
        congr 1
        cases line with
        | nil => simpa [dropReturn] using hreturn
        | cons d line =>
            unfold dropReturn
            rw [List.getLast?_cons_cons]
            split <;> rfl

theorem trim_dropReturn (line : Text) : trim (dropReturn line) = trim line := by
  unfold dropReturn
  split
  · rename_i hlast
    obtain ⟨front, rfl⟩ := List.getLast?_eq_some_iff.1 hlast
    rw [List.dropLast_concat, trim_append_of_blank front]
    intro c hc
    rw [List.mem_singleton.1 hc]
    decide
  · rfl

end Text

end AuroraMigration
