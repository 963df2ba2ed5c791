import DiscGraphics.Trace

/-! Moments of time, in the two forms they are written in. -/
namespace DiscGraphics

/-- A moment as a local clock tells it. -/
structure Moment where
  /-- The seconds since the first day of 1970 began, by universal time. -/
  seconds : Nat
  nanoseconds : Fin 1000000000 := 0
  /-- How many seconds the local clock is ahead. -/
  offset : Int := 0
  deriving DecidableEq, Repr

namespace Moment

/-- When the first day of 1970 began. -/
def epoch : Moment where
  seconds := 0

/-- Year, month and day of a day counted from the first of 1970. Years are counted from March, so
that a leap day ends one, in eras of 400 years. -/
def dateOfDay (days : Nat) : Nat × Nat × Nat :=
  let z := days + 719468
  let era := z / 146097
  let day := z % 146097
  let year := (day - day / 1460 + day / 36524 - day / 146096) / 365
  let ofYear := day - (365 * year + year / 4 - year / 100)
  let month := (5 * ofYear + 2) / 153
  let ofMonth := ofYear - (153 * month + 2) / 5 + 1
  let month := if month < 10 then month + 3 else month - 9
  (year + era * 400 + (if month ≤ 2 then 1 else 0), month, ofMonth)

/-- The seconds since the local clock showed the first of 1970. -/
def localSeconds (t : Moment) : Nat := (t.seconds + t.offset).toNat

def date (t : Moment) : Nat × Nat × Nat := dateOfDay (t.localSeconds / 86400)

/-- Hours, minutes and seconds of the local day. -/
def time (t : Moment) : Nat × Nat × Nat :=
  let s := t.localSeconds % 86400
  (s / 3600, s / 60 % 60, s % 60)

/-- Date and time in digits, for a file's name. -/
def stamp (t : Moment) : String :=
  let (year, month, day) := t.date
  let (hour, minute, second) := t.time
  padNumber 4 year ++ padNumber 2 month ++ padNumber 2 day ++ "_" ++ padNumber 2 hour
    ++ padNumber 2 minute ++ padNumber 2 second

/-- The part of a second, if there is one, in three, six or nine digits. -/
def fraction (t : Moment) : String :=
  let n := t.nanoseconds.val
  if n = 0 then ""
  else if n % 1000000 = 0 then "." ++ padNumber 3 (n / 1000000)
  else if n % 1000 = 0 then "." ++ padNumber 6 (n / 1000)
  else "." ++ padNumber 9 n

/-- How far the local clock is ahead, to the nearest minute. -/
def zone (t : Moment) : String :=
  let minutes := (t.offset.natAbs + 30) / 60
  (if t.offset < 0 then "-" else "+") ++ padNumber 2 (minutes / 60) ++ ":"
    ++ padNumber 2 (minutes % 60)

/-- Date and time as protocols write them. -/
def timestamp (t : Moment) : String :=
  let (year, month, day) := t.date
  let (hour, minute, second) := t.time
  s!"{padNumber 4 year}-{padNumber 2 month}-{padNumber 2 day}T{padNumber 2 hour}:"
    ++ s!"{padNumber 2 minute}:{padNumber 2 second}{t.fraction}{t.zone}"

end Moment

/-- A source of the present moment. -/
class Clock (m : Type → Type) where
  now : m Moment

end DiscGraphics
