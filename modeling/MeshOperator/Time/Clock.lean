import MeshOperator.Time.Calendar

/-!
# Clocks

A clock counts seconds since 1970. What it shows is a day and a time of day in universal time, of any
year before or after: a year has as many digits as it needs.

* `ClockTime.ofSeconds`: what a clock shows after whole seconds.
* `ClockTime.ofDouble`, `ClockTime.ofInteger`: what it shows when it stands at a number, for a log line.
* `stampOf`: the time of a condition, which needs a year of the calendar.
-/

namespace MeshOperator

/-- What a clock shows. -/
structure ClockTime where
  year : Int
  month : Nat
  day : Nat
  hour : Nat
  minute : Nat
  second : Nat
deriving DecidableEq, Repr

/-- the day number of the first of January 1970 -/
def clockEpoch : Int := 719162

namespace ClockTime

/-- What a clock shows after `seconds`. The day is found by the cycle of four hundred years, with the
years beginning in March, so that a leap day is the last of one. -/
def ofSeconds (seconds : Int) : ClockTime :=
  let z := clockEpoch + seconds / 86400 + 306
  let rest := (seconds % 86400).toNat
  let era := z / 146097
  let doe := z % 146097
  let yoe := (doe - doe / 1460 + doe / 36524 - doe / 146096) / 365
  let doy := doe - (365 * yoe + yoe / 4 - yoe / 100)
  let mp := (5 * doy + 2) / 153
  let day := doy - (153 * mp + 2) / 5 + 1
  let month := if mp < 10 then mp + 3 else mp - 9
  let year := yoe + era * 400 + (if month ≤ 2 then 1 else 0)
  ⟨year, month.toNat, day.toNat, rest / 3600, rest / 60 % 60, rest % 60⟩

/-- the largest number of seconds that can be counted -/
def mostSeconds : Int := Nat.pow 2 63 - 1

/-- the largest number of years from 1900 that can be counted -/
def mostYears : Int := Nat.pow 2 31 - 1

/-- what a clock shows after `seconds`, if the year can be counted -/
def ofSeconds? (seconds : Int) : Except CalendarFault ClockTime :=
  let t := ofSeconds seconds
  if -mostYears - 1 ≤ t.year - 1900 ∧ t.year - 1900 ≤ mostYears then .ok t else .error .pastYears

/-- what a clock shows that stands at an integer -/
def ofInteger (n : Int) : Except CalendarFault ClockTime :=
  if -mostSeconds - 1 ≤ n ∧ n ≤ mostSeconds then ofSeconds? n else .error .pastSeconds

/-- Seconds, if they can be counted. The bound is rounded as a number is, one up. -/
def countable (n : Int) : Except CalendarFault Int :=
  if -mostSeconds - 1 ≤ n ∧ n ≤ mostSeconds + 1 then .ok n else .error .pastSeconds

/-- the whole seconds of a number, a fraction not counted -/
def wholeSeconds (d : Double) : Except CalendarFault Int :=
  match d, d.floor? with
  | .nan, _ => .error .noNumber
  | _, none => .error .pastSeconds
  | _, some n => countable n

/-- what a clock shows that stands at a number -/
def ofDouble (d : Double) : Except CalendarFault ClockTime := do ofSeconds? (← wholeSeconds d)

/-- `2001-02-03`, `sep` and `04:05:06` -/
def text (sep : Char) (t : ClockTime) : List Char :=
  integerText t.year ++ '-' :: paddedText 2 t.month ++ '-' :: paddedText 2 t.day ++ sep ::
    paddedText 2 t.hour ++ ':' :: paddedText 2 t.minute ++ ':' :: paddedText 2 t.second

/-- `2001-02-03 04:05:06`, the form of a log line; the year must not be too long -/
def logText (t : ClockTime) : Except CalendarFault String :=
  if mostYears < t.year then .error .longYear else .ok (String.ofList (t.text ' '))

end ClockTime

/-- The whole seconds of a clock that is read to the nearest microsecond, a half to the even one. The
microseconds are first rounded as a number. -/
def Double.readSeconds (d : Double) : Except CalendarFault Int :=
  match d with
  | .nan => .error .noNumber
  | .infinite _ => .error .pastSeconds
  | .finite negative mantissa exponent =>
    let (n, q) := Double.shiftRatio mantissa 1 exponent
    let micro :=
      match (Double.ofRatio false (n % q) q).mul (.ofInt 1000000) with
      | .finite _ m e =>
        let (a, b) := Double.shiftRatio m 1 e
        roundDiv a b
      | _ => 0
    let micros : Int := (n / q * 1000000 + micro : Nat)
    ClockTime.countable ((if negative then -micros else micros) / 1000000)

/-- the time of a condition that changes when a clock stands at a number: `2001-02-03T04:05:06Z` -/
def stampOf (clock : Double) : Except CalendarFault String := do
  let t ← ClockTime.ofSeconds? (← clock.readSeconds)
  if t.year < 1 ∨ 9999 < t.year then throw (.year (Int.bmod t.year (Nat.pow 2 32)))
  else return String.ofList (t.text 'T' ++ ['Z'])

example : ClockTime.ofSeconds 0 = ⟨1970, 1, 1, 0, 0, 0⟩ := by decide

example : String.ofList ((ClockTime.ofSeconds 1700000000).text ' ') = "2023-11-14 22:13:20" := by decide

end MeshOperator
