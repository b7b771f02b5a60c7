import AuroraMigration.Text

/-!
# Instants and their calendar dates

An instant is a number of seconds since the start of 1970 in UTC. Its date is
that of the Gregorian calendar, extended to all years. Years are taken to start
in March, so that a leap day is the last day of its year, and are found in
cycles of 400, 100, 4 and 1 years.
-/

namespace AuroraMigration

/-- An instant; `nanos` from 1000000000 on stand for a leap second. -/
structure Instant where
  seconds : Int
  nanos : Nat
  deriving DecidableEq, Repr

def Instant.minSeconds : Int := -8334601228800

def Instant.maxSeconds : Int := 8210266876799

/-- The instant at a number of seconds and nanoseconds; a leap second follows a second 59 only. -/
def Instant.ofUnix? (seconds : Int) (nanos : Nat) : Option Instant :=
  if seconds < minSeconds ∨ maxSeconds < seconds then none
  else if nanos < 1000000000 ∨ (nanos < 2000000000 ∧ seconds % 60 = 59) then
    some { seconds, nanos }
  else none

structure Date where
  year : Int
  month : Nat
  day : Nat
  deriving DecidableEq, Repr

/-- Lengths of the months from March on; February comes last, with its leap day. -/
def monthLengths : List Nat :=
  [31, 30, 31, 30, 31, 31, 30, 31, 30, 31, 31, 29]

/-- The span that holds `offset` when spans of these lengths follow each other, and where in it. -/
def locate : List Nat → Nat → Nat × Nat
  | [], offset => (0, offset)
  | length :: rest, offset =>
      if offset < length then (0, offset)
      else
        let (index, place) := locate rest (offset - length)
        (index + 1, place)

/-- Year within a cycle of 400 years, and day within that year, both from zero and from March on. -/
def yearInCycle (day : Nat) : Nat × Nat :=
  let century := min 3 (day / 36524)
  let inCentury := day - 36524 * century
  let group := inCentury / 1461
  let inGroup := inCentury - 1461 * group
  let year := min 3 (inGroup / 365)
  (100 * century + 4 * group + year, inGroup - 365 * year)

def Date.ofDays (days : Int) : Date :=
  let shifted := days + 719468
  let cycle := shifted / 146097
  let (year, dayOfYear) := yearInCycle (shifted % 146097).toNat
  let (month, day) := locate monthLengths dayOfYear
  { year := 400 * cycle + year + (if month < 10 then 0 else 1)
    month := if month < 10 then month + 3 else month - 9
    day := day + 1 }

def padded (width n : Nat) : Text :=
  let digits := Text.ofNat n
  List.replicate (width - digits.length) '0' ++ digits

/-- A year in four digits; years outside 0 to 9999 have a sign and as many digits as they need. -/
def yearText (year : Int) : Text :=
  if 0 ≤ year ∧ year ≤ 9999 then padded 4 year.toNat
  else (if year < 0 then '-' else '+') :: padded 4 year.natAbs

/-- The instant as `YYYY-MM-DDTHH:MM:SSZ`; a leap second is second 60. -/
def Instant.render (instant : Instant) : Text :=
  let date := Date.ofDays (instant.seconds / 86400)
  let second := (instant.seconds % 86400).toNat
  yearText date.year ++ ['-'] ++ padded 2 date.month ++ ['-'] ++ padded 2 date.day ++ ['T'] ++
    padded 2 (second / 3600) ++ [':'] ++ padded 2 (second / 60 % 60) ++ [':'] ++
    padded 2 (second % 60 + instant.nanos / 1000000000) ++ ['Z']

end AuroraMigration
