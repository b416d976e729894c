import Rollout.Value

/-!
# Calendar texts

The texts of days and moments, and the checks and shifts that reading them needs.

**Operations.**
* `Date.text`: `2024-02-29`;
* `Timestamp.text`: day and time of day with a chosen sign between them, the fraction only if there
  is one;
* `Date.valid`: whether the calendar has the day;
* `Timestamp.shift`: the moment some seconds later or earlier.
-/

namespace Rollout

/-- A natural in decimal digits, filled up with zeros on the left. -/
def paddedNat (width n : Nat) : String :=
  let digits := Nat.toDigits 10 n
  String.ofList (List.replicate (width - digits.length) '0' ++ digits)

namespace Date

def text (d : Date) : String :=
  paddedNat 4 d.year ++ "-" ++ paddedNat 2 d.month ++ "-" ++ paddedNat 2 d.day

/-- Whether a year has a 29th of February. -/
def leapYear (year : Nat) : Bool :=
  year % 4 == 0 && (year % 100 != 0 || year % 400 == 0)

def daysIn (year month : Nat) : Nat :=
  match month with
  | 2 => if leapYear year then 29 else 28
  | 4 | 6 | 9 | 11 => 30
  | _ => 31

/-- Whether the calendar has the day; years run from 1 to 9999. -/
def valid (d : Date) : Bool :=
  1 ≤ d.year && d.year ≤ 9999 && 1 ≤ d.month && d.month ≤ 12 &&
    1 ≤ d.day && d.day ≤ daysIn d.year d.month

/-- Days since the first day of the year 0 of the proleptic calendar, counted from March so that
a leap day is the last of its year. -/
def dayNumber (d : Date) : Nat :=
  let y := if d.month ≤ 2 then d.year - 1 else d.year
  let m := (d.month + 9) % 12
  365 * y + y / 4 - y / 100 + y / 400 + (153 * m + 2) / 5 + (d.day - 1)

/-- The day with a given number, the inverse of `dayNumber`. -/
def ofDayNumber (n : Nat) : Date :=
  let era := n / 146097
  let dayOfEra := n % 146097
  let yearOfEra :=
    (dayOfEra - dayOfEra / 1460 + dayOfEra / 36524 - dayOfEra / 146096) / 365
  let dayOfYear := dayOfEra - (365 * yearOfEra + yearOfEra / 4 - yearOfEra / 100)
  let m := (5 * dayOfYear + 2) / 153
  let day := dayOfYear - (153 * m + 2) / 5 + 1
  let month := if m < 10 then m + 3 else m - 9
  let year := yearOfEra + 400 * era + (if month ≤ 2 then 1 else 0)
  ⟨year, month, day⟩

end Date

namespace Timestamp

/-- The day, the sign `between`, and the time of day. -/
def text (between : String) (t : Timestamp) : String :=
  t.date.text ++ between ++ paddedNat 2 t.hour ++ ":" ++ paddedNat 2 t.minute ++ ":" ++
    paddedNat 2 t.second ++
    (if t.microsecond = 0 then "" else "." ++ paddedNat 6 t.microsecond)

/-- Whether the calendar and the clock have the moment. -/
def valid (t : Timestamp) : Bool :=
  t.date.valid && t.hour < 24 && t.minute < 60 && t.second < 60 && t.microsecond < 1000000

/-- The moment `seconds` later, if it lies within the calendar. -/
def shift (seconds : Int) (t : Timestamp) : Option Timestamp :=
  let start : Int := ((t.date.dayNumber * 24 + t.hour) * 60 + t.minute) * 60 + t.second
  let total := start + seconds
  if total < 0 then none
  else
    let s := total.toNat
    let moved : Timestamp :=
      ⟨Date.ofDayNumber (s / 86400), s / 3600 % 24, s / 60 % 60, s % 60, t.microsecond⟩
    if moved.valid then some moved else none

end Timestamp

end Rollout
