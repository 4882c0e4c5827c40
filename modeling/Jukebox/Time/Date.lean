import Jukebox.Text.Numeral

/-!
Dates of the Gregorian calendar, extended to all years.
-/

namespace Jukebox.Time

/-- Whether a year has a 29th of February. -/
def isLeapYear (year : Int) : Bool := year % 4 == 0 && (year % 100 != 0 || year % 400 == 0)

/-- The number of days of a month. -/
def daysIn (year : Int) (month : Nat) : Nat :=
  if month = 2 then (if isLeapYear year then 29 else 28)
  else if month = 4 ∨ month = 6 ∨ month = 9 ∨ month = 11 then 30
  else 31

structure Date where
  year : Int
  month : Nat
  day : Nat
deriving DecidableEq, Repr

namespace Date

/-- The least and the greatest year that a date may have. -/
def years : Int × Int := (-262143, 262142)

/-- Whether the calendar has the date. -/
def isValid (date : Date) : Bool :=
  years.1 ≤ date.year && date.year ≤ years.2 && 1 ≤ date.month && date.month ≤ 12 &&
    1 ≤ date.day && date.day ≤ daysIn date.year date.month

def next (date : Date) : Date :=
  if date.day < daysIn date.year date.month then { date with day := date.day + 1 }
  else if date.month < 12 then { date with month := date.month + 1, day := 1 }
  else ⟨date.year + 1, 1, 1⟩

def previous (date : Date) : Date :=
  if 1 < date.day then { date with day := date.day - 1 }
  else if 1 < date.month then
    { date with month := date.month - 1, day := daysIn date.year (date.month - 1) }
  else ⟨date.year - 1, 12, 31⟩

/-- A year with at least four digits, and with a sign if it is not in the years 0 to 9999. -/
def yearText (year : Int) : String :=
  (if year < 0 then "-" else if 9999 < year then "+" else "") ++ Text.decimal 4 year.natAbs

/-- The date with hyphens between year, month and day. -/
def text (date : Date) : String :=
  yearText date.year ++ "-" ++ Text.decimal 2 date.month ++ "-" ++ Text.decimal 2 date.day

end Date

end Jukebox.Time
