import TestCatalog.Text.Basic

/-!
# Timestamps

A timestamp counts milliseconds of Universal Time and is written as a date and time of the
Gregorian calendar.
-/

namespace TestCatalog

/-- Milliseconds since the start of 1970, Universal Time. -/
structure Timestamp where
  milliseconds : Int

namespace Timestamp

def padded (width n : Nat) : Text :=
  let digits := Text.ofNat n
  List.replicate (width - digits.length) '0' ++ digits

structure Date where
  year : Int
  month : Nat
  day : Nat

/-- The date of a day counted from the start of 1970. Years are taken to begin in March, so that
the leap day is their last. -/
def dateOfDay (day : Int) : Date :=
  let shifted := day + 719468
  let era := shifted.fdiv 146097
  let dayOfEra := (shifted.fmod 146097).toNat
  let yearOfEra := (dayOfEra - dayOfEra / 1460 + dayOfEra / 36524 - dayOfEra / 146096) / 365
  let dayOfYear := dayOfEra - (365 * yearOfEra + yearOfEra / 4 - yearOfEra / 100)
  let monthFromMarch := (5 * dayOfYear + 2) / 153
  let month := if monthFromMarch < 10 then monthFromMarch + 3 else monthFromMarch - 9
  { year := yearOfEra + era * 400 + (if month ≤ 2 then 1 else 0)
    month := month
    day := dayOfYear - (153 * monthFromMarch + 2) / 5 + 1 }

/-- Four digits, or a sign and at least four digits outside the years 0 to 9999. -/
def yearText : Int → Text
  | .ofNat year => (if year ≤ 9999 then "" else "+") ++ padded 4 year
  | .negSucc year => "-" ++ padded 4 (year + 1)

/-- Date and time to the second, with the milliseconds where they are not zero. -/
def render (time : Timestamp) : Text :=
  let date := dateOfDay (time.milliseconds.fdiv 86400000)
  let ofDay := (time.milliseconds.fmod 86400000).toNat
  let second := ofDay / 1000
  let fraction : Text := if ofDay % 1000 = 0 then [] else "." ++ padded 3 (ofDay % 1000)
  yearText date.year ++ "-" ++ padded 2 date.month ++ "-" ++ padded 2 date.day ++ "T" ++
    padded 2 (second / 3600) ++ ":" ++ padded 2 (second / 60 % 60) ++ ":" ++
    padded 2 (second % 60) ++ fraction ++ "+00:00"

end Timestamp

end TestCatalog
