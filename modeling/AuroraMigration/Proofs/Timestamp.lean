import AuroraMigration.Proofs.Calendar
import AuroraMigration.Proofs.Script

/-!
# The time in a header

A timestamp is a date and a time of day, and a reader gives it back from its
text without looking at how the text was made. The main statement says that the
time a header shows is a time of the calendar and of the clock, and that counting
its seconds from the start of 1970 gives the instant it was made for.
-/

namespace AuroraMigration

/-! ## Timestamps and their texts -/

/-- A date and a time of day. -/
structure Timestamp where
  date : Date
  hour : Nat
  minute : Nat
  second : Nat
  deriving DecidableEq, Repr

/-- Whether calendar and clock show this time; second 60 is a leap second. -/
structure Timestamp.Valid (time : Timestamp) : Prop where
  date : time.date.Valid
  hour : time.hour < 24
  minute : time.minute < 60
  second : time.second ≤ 60

theorem Timestamp.valid_mk {date : Date} {hour minute second : Nat} (hdate : date.Valid)
    (htime : hour < 24 ∧ minute < 60 ∧ second ≤ 60) :
    Timestamp.Valid ⟨date, hour, minute, second⟩ :=
  ⟨hdate, htime.1, htime.2.1, htime.2.2⟩

/-- Seconds since the start of 1970; a leap second counts as the second before it. -/
def Timestamp.unixSeconds (time : Timestamp) : Int :=
  86400 * time.date.dayNumber + 3600 * time.hour + 60 * time.minute + min time.second 59

/-- The number that a text of decimal digits stands for. -/
def readNumber? (text : Text) : Option Nat :=
  if text.all Char.isDigit then some (Nat.ofDigitChars 10 text 0) else none

/-- A year: four digits, or, only for years outside 0 to 9999, a sign and at least four digits. -/
def readYear? : Text → Option Int
  | '+' :: digits =>
      if 4 ≤ digits.length then
        (readNumber? digits).bind fun n => if 9999 < n then some (n : Int) else none
      else none
  | '-' :: digits =>
      if 4 ≤ digits.length then
        (readNumber? digits).bind fun n => if 0 < n then some (-n : Int) else none
      else none
  | digits => if digits.length = 4 then (readNumber? digits).map (↑) else none

/-- A timestamp as `YYYY-MM-DDTHH:MM:SSZ`, where the year may be longer. -/
def Timestamp.read? (text : Text) : Option Timestamp :=
  match text.drop (text.length - 16) with
  | ['-', m, m', '-', d, d', 'T', h, h', ':', n, n', ':', s, s', 'Z'] => do
      let year ← readYear? (text.take (text.length - 16))
      let month ← readNumber? [m, m']
      let day ← readNumber? [d, d']
      let hour ← readNumber? [h, h']
      let minute ← readNumber? [n, n']
      let second ← readNumber? [s, s']
      some { date := { year, month, day }, hour, minute, second }
  | _ => none

/-! ## Numbers -/

theorem isDigit_of_mem_padded {width n : Nat} {c : Char} (h : c ∈ padded width n) :
    c.isDigit = true := by
  rcases List.mem_append.1 h with h | h
  · rw [List.eq_of_mem_replicate h]
    decide
  · exact Nat.isDigit_of_mem_toDigits (by decide) (by decide) h

theorem readNumber?_padded (width n : Nat) : readNumber? (padded width n) = some n := by
  have hdigits : (padded width n).all Char.isDigit = true :=
    List.all_eq_true.2 fun c hc => isDigit_of_mem_padded hc
  rw [readNumber?, if_pos hdigits, padded, Nat.ofDigitChars_append,
    Nat.ofDigitChars_replicate_zero, Nat.mul_zero]
  exact congrArg some Nat.ofDigitChars_ten_toDigits

theorem le_length_padded (width n : Nat) : width ≤ (padded width n).length := by
  simp only [padded, List.length_append, List.length_replicate]
  omega

theorem length_padded {width n : Nat} (hwidth : 0 < width) (h : n < 10 ^ width) :
    (padded width n).length = width := by
  have hdigits : (Text.ofNat n).length ≤ width :=
    (Nat.length_toDigits_le_iff (by decide) hwidth).2 h
  simp only [padded, List.length_append, List.length_replicate]
  omega

/-- A number below 100 is written with two digits. -/
theorem padded_two {n : Nat} (h : n < 100) :
    ∃ a b, padded 2 n = [a, b] ∧ readNumber? [a, b] = some n := by
  obtain ⟨a, b, hpadded⟩ := List.length_eq_two.1 (length_padded (by decide) h)
  exact ⟨a, b, hpadded, hpadded ▸ readNumber?_padded 2 n⟩

/-- Four digits without a sign are a year. -/
theorem readYear?_digits {text : Text} (hlength : text.length = 4)
    (hdigits : ∀ c ∈ text, c.isDigit = true) : readYear? text = (readNumber? text).map (↑) := by
  unfold readYear?
  split
  · exact absurd (hdigits '+' List.mem_cons_self) (by decide)
  · exact absurd (hdigits '-' List.mem_cons_self) (by decide)
  · rw [if_pos hlength]

theorem readYear?_yearText (year : Int) : readYear? (yearText year) = some year := by
  unfold yearText
  split
  · rename_i hplain
    have hlength : (padded 4 year.toNat).length = 4 := length_padded (by decide) (by omega)
    rw [readYear?_digits hlength fun c => isDigit_of_mem_padded, readNumber?_padded,
      Option.map_some, Option.some.injEq]
    omega
  · rename_i hsigned
    have hlength := le_length_padded 4 year.natAbs
    by_cases hnegative : year < 0
    · have habs : 0 < year.natAbs := by omega
      simp only [hnegative, if_true, readYear?, hlength, readNumber?_padded, Option.bind_some, habs,
        Option.some.injEq]
      omega
    · have habs : 9999 < year.natAbs := by omega
      simp only [hnegative, if_false, readYear?, hlength, if_true, readNumber?_padded,
        Option.bind_some, habs, Option.some.injEq]
      omega

/-! ## The text of an instant -/

/-- The time that an instant has in UTC. -/
def Instant.timestamp (instant : Instant) : Timestamp :=
  let second := (instant.seconds % 86400).toNat
  { date := Date.ofDays (instant.seconds / 86400)
    hour := second / 3600
    minute := second / 60 % 60
    second := second % 60 + instant.nanos / 1000000000 }

theorem read?_render (instant : Instant) (hnanos : instant.nanos < 2000000000) :
    Timestamp.read? instant.render = some instant.timestamp := by
  have hdate := (ofDays_spec (instant.seconds / 86400)).1
  have hmonthLength := monthLength_le (Date.ofDays (instant.seconds / 86400)).year
    (Date.ofDays (instant.seconds / 86400)).month
  have hmonth_le := hdate.month_le
  have hday_le := hdate.day_le
  obtain ⟨m, m', hmonth, hmonthRead⟩ :=
    padded_two (show (Date.ofDays (instant.seconds / 86400)).month < 100 by omega)
  obtain ⟨d, d', hday, hdayRead⟩ :=
    padded_two (show (Date.ofDays (instant.seconds / 86400)).day < 100 by omega)
  obtain ⟨h, h', hhour, hhourRead⟩ :=
    padded_two (show (instant.seconds % 86400).toNat / 3600 < 100 by omega)
  obtain ⟨n, n', hminute, hminuteRead⟩ :=
    padded_two (show (instant.seconds % 86400).toNat / 60 % 60 < 100 by omega)
  obtain ⟨s, s', hsecond, hsecondRead⟩ :=
    padded_two (show (instant.seconds % 86400).toNat % 60 + instant.nanos / 1000000000 < 100 by
      omega)
  have htext : instant.render = yearText (Date.ofDays (instant.seconds / 86400)).year ++
      ['-', m, m', '-', d, d', 'T', h, h', ':', n, n', ':', s, s', 'Z'] := by
    simp [Instant.render, hmonth, hday, hhour, hminute, hsecond]
  have hlength : (yearText (Date.ofDays (instant.seconds / 86400)).year).length =
      instant.render.length - 16 := by
    rw [htext, List.length_append]
    rfl
  unfold Timestamp.read?
  rw [← hlength, htext, List.drop_left, List.take_left]
  simp [readYear?_yearText, hmonthRead, hdayRead, hhourRead, hminuteRead, hsecondRead,
    Instant.timestamp]

/-- An instant that can be written has its two fields, and a leap second follows second 59. -/
theorem ofUnix?_spec {seconds : Int} {nanos : Nat} {instant : Instant}
    (h : Instant.ofUnix? seconds nanos = some instant) :
    instant = ⟨seconds, nanos⟩ ∧ nanos < 2000000000 ∧
      (1000000000 ≤ nanos → seconds % 60 = 59) := by
  unfold Instant.ofUnix? at h
  split at h
  · cases h
  · split at h
    · rename_i hnanos
      cases h
      exact ⟨rfl, by omega, by omega⟩
    · cases h

/-- The time of an instant is shown by calendar and clock and counts its seconds. -/
theorem timestamp_spec {seconds : Int} {nanos : Nat} (hnanos : nanos < 2000000000)
    (hleap : 1000000000 ≤ nanos → seconds % 60 = 59) :
    (Instant.timestamp ⟨seconds, nanos⟩).Valid ∧
      (Instant.timestamp ⟨seconds, nanos⟩).unixSeconds = seconds ∧
      ((Instant.timestamp ⟨seconds, nanos⟩).second = 60 ↔ 1000000000 ≤ nanos) := by
  obtain ⟨hdate, hnumber⟩ := ofDays_spec (seconds / 86400)
  simp only [Instant.timestamp, Timestamp.unixSeconds, hnumber]
  exact ⟨Timestamp.valid_mk hdate ⟨by omega, by omega, by omega⟩, by omega, by omega⟩

/-! ## The header -/

/-- A header with a time starts with its title and the time, each on a line. -/
theorem headerText_some (instant : Instant) :
    ∃ title rest, CommentLine title ∧ headerText (some instant) =
      title ++ '\n' :: ("-- Generated at: ".toList ++ instant.render ++ '\n' :: rest) := by
  have hjoin : ∀ a b c : Text, Text.join ['\n'] [a, b, c] = a ++ '\n' :: (b ++ '\n' :: c) := by
    intro a b c
    simp [Text.join]
  exact ⟨_, _, commentLine_header (some instant) _ List.mem_cons_self, hjoin _ _ _⟩

/-- The second line of a text that starts with a header is the time. -/
theorem lines_of_header (instant : Instant) (rest : Text) :
    (Text.lines (headerText (some instant) ++ rest))[1]? =
        some ("-- Generated at: ".toList ++ instant.render) := by
  obtain ⟨title, others, htitle, htext⟩ := headerText_some instant
  have htime := commentLine_header (some instant) ("-- Generated at: ".toList ++ instant.render)
    (List.mem_cons_of_mem _ List.mem_cons_self)
  generalize "-- Generated at: ".toList ++ instant.render = time at htext htime ⊢
  rw [htext, List.append_assoc, List.cons_append, List.append_assoc, htitle.lines, List.cons_append,
    htime.lines]
  rfl

/-- A script with a header starts with the lines of the header. -/
theorem compose_header {blocks : List Block} {options : ScriptOptions} (hne : blocks ≠ [])
    (hheader : options.header = true) :
    ∃ rest, compose blocks options = headerText options.generatedAt ++ '\n' :: rest := by
  have hlines : headerLines options.generatedAt ≠ [] := by simp [headerLines]
  refine ⟨'\n' :: (Text.join "\n\n".toList (blocks.map Block.render) ++ ['\n']), ?_⟩
  rw [compose_eq hne, scriptLead, if_pos hheader, headerText_eq, ← join_feed hlines]
  simp

/-- Headers with the same text show the same time. -/
theorem render_of_headerText {a b : Instant} (h : headerText (some a) = headerText (some b)) :
    a.render = b.render := by
  have ha := lines_of_header a []
  rw [h, lines_of_header b []] at ha
  exact (List.append_cancel_left (Option.some.inj ha)).symm

/--
The time that a header shows is one of the calendar and the clock. Its seconds,
counted from the start of 1970, are those of the instant, a leap second being
the second before it. So headers with different seconds are different.
-/
theorem header_shows_instant {seconds : Int} {nanos : Nat} {instant : Instant}
    (h : Instant.ofUnix? seconds nanos = some instant) :
    (∃ stamp time,
      (Text.lines (headerText (some instant)))[1]? = some ("-- Generated at: ".toList ++ stamp) ∧
      (∀ blocks options, blocks ≠ [] → options.header = true → options.generatedAt = some instant →
        (Text.lines (compose blocks options))[1]? = some ("-- Generated at: ".toList ++ stamp)) ∧
      Timestamp.read? stamp = some time ∧ time.Valid ∧ time.unixSeconds = seconds ∧
      (time.second = 60 ↔ 1000000000 ≤ nanos)) ∧
    ∀ seconds' nanos' instant', Instant.ofUnix? seconds' nanos' = some instant' →
      headerText (some instant') = headerText (some instant) → seconds' = seconds := by
  obtain ⟨rfl, hnanos, hleap⟩ := ofUnix?_spec h
  obtain ⟨hvalid, hseconds, hsecond⟩ := timestamp_spec hnanos hleap
  have hread := read?_render ⟨seconds, nanos⟩ hnanos
  refine ⟨⟨_, _, ?_, ?_, hread, hvalid, hseconds, hsecond⟩, ?_⟩
  · have hline := lines_of_header ⟨seconds, nanos⟩ []
    rwa [List.append_nil] at hline
  · intro blocks options hne hheader hgenerated
    obtain ⟨rest, htext⟩ := compose_header hne hheader
    rw [htext, hgenerated]
    exact lines_of_header _ _
  · intro seconds' nanos' instant' h' hsame
    obtain ⟨rfl, hnanos', hleap'⟩ := ofUnix?_spec h'
    have hread' := read?_render ⟨seconds', nanos'⟩ hnanos'
    rw [render_of_headerText hsame, hread, Option.some.injEq] at hread'
    rw [← (timestamp_spec hnanos' hleap').2.1, ← hread', hseconds]

/-- A leap second at the end of the year before year zero. -/
theorem header_shows_instant_before_zero :
    let instant : Instant := ⟨-62167219201, 1500000000⟩
    let stamp := "-0001-12-31T23:59:60Z".toList
    Instant.ofUnix? (-62167219201) 1500000000 = some instant ∧
      (Text.lines (headerText (some instant)))[1]? = some ("-- Generated at: ".toList ++ stamp) ∧
      ∃ time, Timestamp.read? stamp = some time ∧ time.Valid ∧
        time.unixSeconds = -62167219201 ∧ time.second = 60 := by
  intro instant stamp
  have hinstant : Instant.ofUnix? (-62167219201) 1500000000 = some instant := by decide
  obtain ⟨⟨shown, time, hline, -, hread, hvalid, hseconds, hsecond⟩, -⟩ :=
    header_shows_instant hinstant
  have htext : (Text.lines (headerText (some instant)))[1]? =
      some ("-- Generated at: ".toList ++ stamp) := by decide +kernel
  have hshown : shown = stamp := by
    rw [htext, Option.some.injEq] at hline
    exact (List.append_cancel_left hline).symm
  exact ⟨hinstant, htext, time, hshown ▸ hread, hvalid, hseconds, hsecond.2 (by decide)⟩

end AuroraMigration
