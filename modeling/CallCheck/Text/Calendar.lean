/-!
# Calendar

Instants as dates of the Gregorian calendar and times of day, and spans of time in the largest unit
of which there is a whole one. Days are counted from the first of
January 1970; inside the count, years begin in March, so that the leap day ends its year, and four
hundred of them are one era of 146097 days.
-/

namespace CallCheck.Text

/-- A day of the calendar. -/
structure Date where
  /-- The year. -/
  year : Int
  /-- The month, from 1. -/
  month : Nat
  /-- The day of the month, from 1. -/
  day : Nat
  deriving DecidableEq, Repr

namespace Date

/-- The days of an era. -/
def eraDays : Int := 146097

/-- The days from the start of the first era to the first of January 1970. -/
def epochDay : Int := 719468

/-- The year of its era that a day of the era is in. -/
def yearOfEra (day : Nat) : Nat := (day - day / 1460 + day / 36524 - day / 146096) / 365

/-- The days of an era before a year of it. -/
def daysBefore (year : Nat) : Nat := 365 * year + year / 4 - year / 100

/-- The date of a day. -/
def ofDays (days : Int) : Date :=
  let count := days + epochDay
  let era := count.fdiv eraDays
  let dayOfEra := (count.fmod eraDays).toNat
  let year := yearOfEra dayOfEra
  let dayOfYear := dayOfEra - daysBefore year
  let month := (5 * dayOfYear + 2) / 153
  let day := dayOfYear - (153 * month + 2) / 5 + 1
  let late := 10 ≤ month
  ⟨era * 400 + year + (if late then 1 else 0), if late then month - 9 else month + 3, day⟩

end Date

/-- A number with at least as many digits as a width. -/
def padded (width n : Nat) : String :=
  let digits := Nat.toDigits 10 n
  String.ofList (List.replicate (width - digits.length) '0' ++ digits)

/-- A year, with a sign if it is before the year 0 or has more than four digits. -/
def yearText (year : Int) : String :=
  if year < 0 then "-" ++ padded 4 year.natAbs
  else if 9999 < year then "+" ++ padded 4 year.natAbs
  else padded 4 year.natAbs

/-- The seconds of a day. -/
def daySeconds : Int := 86400

/-- An instant, in seconds since the start of 1970, as a date and a time of day. -/
def instant (seconds : Int) : String :=
  let d := Date.ofDays (seconds.fdiv daySeconds)
  let s := (seconds.fmod daySeconds).toNat
  s!"{yearText d.year}-{padded 2 d.month}-{padded 2 d.day}" ++
    s!"T{padded 2 (s / 3600)}:{padded 2 (s / 60 % 60)}:{padded 2 (s % 60)}Z"

/-- A span of milliseconds: whole and fractional seconds without trailing zeros, or milliseconds
below one second. -/
def duration (millis : Nat) : String :=
  if millis = 0 then "0ns"
  else if millis < 1000 then toString millis ++ "ms"
  else
    let digits := (Nat.toDigits 10 (1000 + millis % 1000)).drop 1
    let fraction := (digits.reverse.dropWhile (· == '0')).reverse
    toString (millis / 1000) ++
      (if fraction.isEmpty then "" else "." ++ String.ofList fraction) ++ "s"

end CallCheck.Text
