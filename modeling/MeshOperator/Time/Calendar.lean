import MeshOperator.Number.Double
import MeshOperator.Text.Digit

/-!
# Dates and moments

Dates of the proleptic Gregorian calendar, and moments with microseconds and an optional offset from
universal time.

* `Date.make`, `Moment.make`: refuse what the calendar does not have.
* `Date.iso`, `Moment.iso`: the international written form.
-/

namespace MeshOperator

/-- Why numbers are no date or moment. -/
inductive CalendarFault where
  | year (n : Int)
  | month
  | day
  | hour
  | minute
  | second
  | offset (minutes : Int)
  /-- a clock shows no number -/
  | noNumber
  /-- a clock is past the seconds that can be counted -/
  | pastSeconds
  /-- a clock is past the years that can be counted -/
  | pastYears
  /-- a year is past what can be written -/
  | longYear
deriving DecidableEq, Repr

/-- A day of the calendar. -/
structure Date where
  year : Nat
  month : Nat
  day : Nat
deriving DecidableEq, Repr, Inhabited

/-- A time of a day. The offset, in minutes, is what local time is ahead of universal time; without
one the moment is local to nowhere. -/
structure Moment where
  date : Date
  hour : Nat
  minute : Nat
  second : Nat
  micro : Nat
  offset : Option Int
deriving DecidableEq, Repr, Inhabited

/-- a duration of whole minutes, as days and seconds -/
def durationText (minutes : Int) : String :=
  let days := minutes / 1440
  let seconds := minutes % 1440 * 60
  let parts := (if days = 0 then [] else ["days=" ++ String.ofList (integerText days)])
    ++ (if seconds = 0 then [] else ["seconds=" ++ String.ofList (integerText seconds)])
  "datetime.timedelta(" ++ (if parts.isEmpty then "0" else String.intercalate ", " parts) ++ ")"

/-- the sentence for a date that is none -/
def CalendarFault.message : CalendarFault → String
  | .year n => "year " ++ String.ofList (integerText n) ++ " is out of range"
  | .month => "month must be in 1..12"
  | .day => "day is out of range for month"
  | .hour => "hour must be in 0..23"
  | .minute => "minute must be in 0..59"
  | .second => "second must be in 0..59"
  | .offset minutes =>
    "offset must be a timedelta strictly between -timedelta(hours=24) and timedelta(hours=24), not "
      ++ durationText minutes ++ "."
  | .noNumber => "Invalid value NaN (not a number)"
  | .pastSeconds => "timestamp out of range for platform time_t"
  | .pastYears => "[Errno 75] Value too large for defined data type"
  | .longYear => "signed integer is greater than maximum"

/-- whether a year has a twenty-ninth of February -/
def isLeap (year : Nat) : Bool := year % 4 = 0 && (year % 100 ≠ 0 || year % 400 = 0)

/-- the days of a month -/
def daysIn (year month : Nat) : Nat :=
  if month = 2 then if isLeap year then 29 else 28
  else if month = 4 || month = 6 || month = 9 || month = 11 then 30
  else 31

namespace Date

/-- the date of three numbers -/
def make (year month day : Nat) : Except CalendarFault Date :=
  if year < 1 ∨ 9999 < year then .error (.year year)
  else if month < 1 ∨ 12 < month then .error .month
  else if day < 1 ∨ daysIn year month < day then .error .day
  else .ok ⟨year, month, day⟩

/-- `2001-02-03` -/
def iso (d : Date) : List Char :=
  paddedText 4 d.year ++ '-' :: paddedText 2 d.month ++ '-' :: paddedText 2 d.day

/-- the days since the first day of year one; months count from March, so that a leap day is last -/
def dayNumber (d : Date) : Int :=
  let y : Int := if d.month ≤ 2 then d.year - 1 else d.year
  let m : Int := if d.month ≤ 2 then d.month + 9 else d.month - 3
  365 * y + y / 4 - y / 100 + y / 400 + (153 * m + 2) / 5 + d.day - 307

/-- whether a date comes before another -/
def lt (a b : Date) : Bool := a.dayNumber < b.dayNumber

end Date

namespace Moment

/-- the moment of a date, a time of day and an offset in minutes -/
def make (date : Date) (hour minute second micro : Nat) (offset : Option Int) :
    Except CalendarFault Moment :=
  if 23 < hour then .error .hour
  else if 59 < minute then .error .minute
  else if 59 < second then .error .second
  else .ok ⟨date, hour, minute, second, micro, offset⟩

/-- an offset, which is less than a day either way -/
def checkOffset (minutes : Int) : Except CalendarFault Int :=
  if -1440 < minutes ∧ minutes < 1440 then .ok minutes else .error (.offset minutes)

/-- `+05:30` -/
def offsetText (minutes : Int) : List Char :=
  (if minutes < 0 then '-' else '+') :: paddedText 2 (minutes.natAbs / 60)
    ++ ':' :: paddedText 2 (minutes.natAbs % 60)

/-- `04:05:06` -/
def clockText (m : Moment) : List Char :=
  paddedText 2 m.hour ++ ':' :: paddedText 2 m.minute ++ ':' :: paddedText 2 m.second

/-- the international form, with `sep` between date and time; microseconds only when there are any -/
def iso (sep : Char) (m : Moment) : List Char :=
  m.date.iso ++ sep :: m.clockText
    ++ (if m.micro = 0 then [] else '.' :: paddedText 6 m.micro)
    ++ (m.offset.map offsetText).getD []

/-- the microseconds since the first day of year one, in universal time if there is an offset -/
def instant (m : Moment) : Int :=
  let minutes : Int := m.date.dayNumber * 1440 + m.hour * 60 + m.minute - m.offset.getD 0
  (minutes * 60 + m.second) * 1000000 + m.micro

end Moment

example : (Date.mk 2000 2 29).dayNumber = 730178 := by decide

end MeshOperator
