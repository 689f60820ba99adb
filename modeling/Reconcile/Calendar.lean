import Reconcile.CoreInstances

/-!
# Calendar days

The Gregorian calendar carried on in both directions.  Days are numbered from 1970-01-01, and
every day number is the number of one date.
-/

namespace Reconcile

structure Date where
  year : Int
  month : Nat
  day : Nat
deriving DecidableEq, Repr

namespace Date

def isLeapYear (year : Int) : Bool :=
  year % 4 == 0 && (year % 100 != 0 || year % 400 == 0)

/-- The lengths of the months of a year, in order. -/
def monthLengths (year : Int) : List Nat :=
  [31, if isLeapYear year then 29 else 28, 31, 30, 31, 30, 31, 31, 30, 31, 30, 31]

/-- Days from the start of year 0 to the start of a year. -/
def daysBeforeYear (year : Int) : Int :=
  365 * year + (year + 3) / 4 - (year + 99) / 100 + (year + 399) / 400

/-- Days from the start of year 0 to 1970-01-01. -/
def daysBeforeEpoch : Int := 719528

/-- Whether the month and the day exist. -/
def isValid (date : Date) : Bool :=
  match (monthLengths date.year)[date.month - 1]? with
  | some length => decide (1 ≤ date.month ∧ 1 ≤ date.day ∧ date.day ≤ length)
  | none => false

/-- Days from the start of a year to the start of a month. -/
def daysBeforeMonth (year : Int) (month : Nat) : Nat :=
  ((monthLengths year).take (month - 1)).foldr (· + ·) 0

/-- Days from 1970-01-01 to a date. -/
def dayNumber (date : Date) : Int :=
  daysBeforeYear date.year + daysBeforeMonth date.year date.month + date.day - 1
    - daysBeforeEpoch

/-- The year that holds a day counted from the start of year 0.  The mean year is
`146097 / 400` days long, so the first guess is off by at most one. -/
def yearOfDay (day : Int) : Int :=
  let guess := day * 400 / 146097
  if daysBeforeYear (guess + 1) ≤ day then guess + 1
  else if day < daysBeforeYear guess then guess - 1
  else guess

/-- The month and day of month of a day of the year, counted from 0, given the lengths of the
months left and the number of the first of them. -/
def monthAndDay : List Nat → Nat → Nat → Nat × Nat
  | [], month, day => (month, day + 1)
  | length :: rest, month, day =>
      if day < length then (month, day + 1) else monthAndDay rest (month + 1) (day - length)

/-- The date with a day number. -/
def ofDayNumber (number : Int) : Date :=
  let day := number + daysBeforeEpoch
  let year := yearOfDay day
  let (month, dayOfMonth) := monthAndDay (monthLengths year) 1 (day - daysBeforeYear year).toNat
  ⟨year, month, dayOfMonth⟩

example : dayNumber ⟨1970, 1, 1⟩ = 0 ∧ dayNumber ⟨2000, 3, 1⟩ = 11017 := by decide

example : ofDayNumber 11016 = ⟨2000, 2, 29⟩ ∧ ofDayNumber (-1) = ⟨1969, 12, 31⟩ := by decide

end Date

end Reconcile
