import Reconcile.Calendar
import Reconcile.Text.Digits

/-!
# Timestamps

A point in universal time: whole seconds from 1970-01-01 and a fraction in nanoseconds.  A
fraction of one second or more behind the last second of a minute is a leap second.  It may stand
behind any other second too, and is shown there as the next one.
-/

namespace Reconcile

namespace Timestamp

/-- The years that a timestamp can lie in. -/
def firstYear : Int := -262143

def lastYear : Int := 262142

def secondsPerDay : Int := 86400

def nanosPerSecond : Nat := 1000000000

/-- Midnight of the first day. -/
def firstSecond : Int := -8334601228800

/-- The last second of the last day. -/
def lastSecond : Int := 8210266876799

end Timestamp

open Timestamp in
structure Timestamp where
  seconds : Int
  nanos : Nat
  seconds_range : firstSecond ≤ seconds ∧ seconds ≤ lastSecond
  nanos_range : nanos < 2 * nanosPerSecond
deriving DecidableEq

namespace Timestamp

def ofParts? (seconds : Int) (nanos : Nat) : Option Timestamp :=
  if valid : (firstSecond ≤ seconds ∧ seconds ≤ lastSecond) ∧ nanos < 2 * nanosPerSecond then
    some ⟨seconds, nanos, valid.1, valid.2⟩
  else none

/-- Earlier seconds come first, then smaller fractions. -/
instance : Ord Timestamp where
  compare a b := (compare a.seconds b.seconds).then (compare a.nanos b.nanos)

theorem ext {a b : Timestamp} (seconds : a.seconds = b.seconds) (nanos : a.nanos = b.nanos) :
    a = b := by
  obtain ⟨_, _, _, _⟩ := a
  obtain ⟨_, _, _, _⟩ := b
  cases seconds
  cases nanos
  rfl

theorem compare_eq_iff {a b : Timestamp} : compare a b = .eq ↔ a = b := by
  constructor
  · intro equal
    obtain ⟨seconds, nanos⟩ := Ordering.then_eq_eq.1 equal
    exact ext (Std.LawfulEqOrd.eq_of_compare seconds) (Std.LawfulEqOrd.eq_of_compare nanos)
  · rintro rfl
    exact Ordering.then_eq_eq.2 ⟨Std.ReflOrd.compare_self, Std.ReflOrd.compare_self⟩

theorem ofParts?_self (t : Timestamp) : ofParts? t.seconds t.nanos = some t := by
  simp [ofParts?, t.seconds_range, t.nanos_range]

def date (t : Timestamp) : Date := Date.ofDayNumber (t.seconds / secondsPerDay)

/-- Seconds since midnight. -/
def secondOfDay (t : Timestamp) : Nat := (t.seconds % secondsPerDay).toNat

example : (Date.mk firstYear 1 1).dayNumber * secondsPerDay = firstSecond := by decide

example : ((Date.mk lastYear 12 31).dayNumber + 1) * secondsPerDay - 1 = lastSecond := by decide

/-! ## Text -/

/-- Years 0 to 9999 have four digits; the others have a sign and at least four. -/
def yearText (year : Int) : List Char :=
  if 0 ≤ year ∧ year ≤ 9999 then Text.padded 4 year.toNat
  else (if year < 0 then '-' else '+') :: Text.padded 4 year.natAbs

/-- No digits for whole seconds, else three, six or nine, as few as are exact. -/
def fractionText (nanos : Nat) : List Char :=
  if nanos = 0 then []
  else if nanos % 1000000 = 0 then '.' :: Text.padded 3 (nanos / 1000000)
  else if nanos % 1000 = 0 then '.' :: Text.padded 6 (nanos / 1000)
  else '.' :: Text.padded 9 nanos

/-- Date and time of day.  A fraction of one second or more counts as one second, so that a leap
second is second 60. -/
def localText (t : Timestamp) : List Char :=
  let date := t.date
  let second := t.secondOfDay
  let leap := t.nanos / nanosPerSecond
  yearText date.year ++ '-' :: Text.padded 2 date.month ++ '-' :: Text.padded 2 date.day ++
    'T' :: Text.padded 2 (second / 3600) ++ ':' :: Text.padded 2 (second / 60 % 60) ++
    ':' :: Text.padded 2 (second % 60 + leap) ++ fractionText (t.nanos % nanosPerSecond)

/-- The displayed form, with a numeric offset. -/
def display (t : Timestamp) : String := String.ofList (t.localText ++ ['+', '0', '0', ':', '0', '0'])

/-- The form with the zone letter. -/
def zoneLetterText (t : Timestamp) : List Char := t.localText ++ ['Z']

end Timestamp

end Reconcile
