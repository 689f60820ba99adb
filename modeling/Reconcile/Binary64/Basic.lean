import Reconcile.CoreInstances

/-!
# Doubles

A double is the pattern of its 64 bits, so two doubles are equal exactly when their bits are.
A finite magnitude is a whole number of units, the unit being the least positive double, and
magnitudes order as the numbers that they stand for.
-/

namespace Reconcile

/-- A double-precision number, by its bits: sign, eleven of exponent, fifty-two of fraction. -/
structure Binary64 where
  bits : UInt64
deriving DecidableEq, Repr

namespace Binary64

/-- The magnitude of infinity: finite magnitudes lie below it, those of NaNs above. -/
def infiniteMagnitude : Nat := 2047 * 2 ^ 52

/-- All bits but the sign, as a number. -/
def magnitude (x : Binary64) : Nat := x.bits.toNat % 2 ^ 63

/-- Whether the sign bit is set. -/
def isNegative (x : Binary64) : Bool := decide (2 ^ 63 ≤ x.bits.toNat)

/-- The double of a sign and a magnitude. -/
def ofMagnitude (negative : Bool) (magnitude : Nat) : Binary64 :=
  ⟨UInt64.ofNat (magnitude + if negative then 2 ^ 63 else 0)⟩

def isNaN (x : Binary64) : Bool := decide (infiniteMagnitude < x.magnitude)

def isInfinite (x : Binary64) : Bool := decide (x.magnitude = infiniteMagnitude)

def isFinite (x : Binary64) : Bool := decide (x.magnitude < infiniteMagnitude)

def zero : Binary64 := ⟨0⟩

def one : Binary64 := ⟨0x3ff0000000000000⟩

def nan : Binary64 := ⟨0x7ff8000000000000⟩

/-- The infinity of a sign. -/
def infinity (negative : Bool) : Binary64 := ofMagnitude negative infiniteMagnitude

instance : Inhabited Binary64 := ⟨zero⟩

def neg (x : Binary64) : Binary64 := ofMagnitude (!x.isNegative) x.magnitude

def abs (x : Binary64) : Binary64 := ofMagnitude false x.magnitude

/-- How many units a finite magnitude counts. -/
def unitsOf (magnitude : Nat) : Nat :=
  if magnitude < 2 ^ 52 then magnitude
  else (2 ^ 52 + magnitude % 2 ^ 52) * 2 ^ (magnitude / 2 ^ 52 - 1)

/-- Units in the number one. -/
def unitsPerOne : Nat := 2 ^ 1074

def units (x : Binary64) : Nat := unitsOf x.magnitude

/-- The value of a finite double, in units. -/
def signedUnits (x : Binary64) : Int := if x.isNegative then -(x.units : Int) else x.units

/-- The magnitude with its sign: the numeric order of all doubles but NaNs, both zeros in one. -/
def signedMagnitude (x : Binary64) : Int :=
  if x.isNegative then -(x.magnitude : Int) else x.magnitude

/-! ## Numeric comparison, in which a NaN is related to nothing -/

def le (x y : Binary64) : Bool :=
  !x.isNaN && !y.isNaN && decide (x.signedMagnitude ≤ y.signedMagnitude)

def lt (x y : Binary64) : Bool :=
  !x.isNaN && !y.isNaN && decide (x.signedMagnitude < y.signedMagnitude)

/-- Equality as numbers: the zeros agree, and a NaN differs from itself. -/
def sameNumber (x y : Binary64) : Bool :=
  !x.isNaN && !y.isNaN && decide (x.signedMagnitude = y.signedMagnitude)

/-! ## Total order -/

/-- The place of a double in the total order: negative NaNs, negative numbers from large to small
magnitude, negative zero, zero, positive numbers, positive NaNs. -/
def rank (x : Binary64) : Int :=
  if x.isNegative then -(x.magnitude : Int) - 1 else x.magnitude

instance : Ord Binary64 where
  compare x y := compare x.rank y.rank

theorem magnitude_lt (x : Binary64) : x.magnitude < 2 ^ 63 :=
  Nat.mod_lt _ (by decide)

theorem rank_injective {x y : Binary64} (same : x.rank = y.rank) : x = y := by
  obtain ⟨⟨⟨x⟩⟩⟩ := x
  obtain ⟨⟨⟨y⟩⟩⟩ := y
  have xlt := x.isLt
  have ylt := y.isLt
  suffices x = y by rw [this]
  apply Fin.ext
  simp only [rank, isNegative, magnitude, UInt64.toNat, BitVec.toNat, decide_eq_true_eq] at same
  split at same <;> split at same <;> omega

theorem compare_eq_iff {x y : Binary64} : compare x y = .eq ↔ x = y := by
  constructor
  · intro equal
    exact rank_injective (Std.LawfulEqOrd.eq_of_compare equal)
  · rintro rfl
    exact Std.ReflOrd.compare_self (α := Int)

end Binary64

end Reconcile
