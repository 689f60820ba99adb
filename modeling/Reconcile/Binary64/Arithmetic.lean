import Reconcile.Binary64.Basic

/-!
# Rounded arithmetic on doubles

Every operation takes the exact result as a ratio of whole numbers of units and rounds it once,
to the nearest double, a tie going to the even magnitude.  Results too large become infinite.
-/

namespace Reconcile

namespace Binary64

/-- The whole number nearest to a ratio; a half goes to the even neighbour. -/
def roundHalfEven (numerator denominator : Nat) : Nat :=
  let quotient := numerator / denominator
  let twice := 2 * (numerator % denominator)
  if twice < denominator then quotient
  else if denominator < twice then quotient + 1
  else quotient + quotient % 2

/-- The magnitude nearest to a ratio of units.  A binade of spacing `2 ^ shift` starts at the
magnitude `(shift + 1) * 2 ^ 52`, and rounding up past its end lands on the start of the next. -/
def magnitudeOfRatio (numerator denominator : Nat) : Nat :=
  let shift := Nat.log2 (numerator / denominator) - 52
  min infiniteMagnitude (shift * 2 ^ 52 + roundHalfEven numerator (denominator * 2 ^ shift))

/-- The double nearest to a signed ratio of units. -/
def ofRatio (negative : Bool) (numerator denominator : Nat) : Binary64 :=
  ofMagnitude negative (magnitudeOfRatio numerator denominator)

def ofInt (n : Int) : Binary64 := ofRatio (decide (n < 0)) (n.natAbs * unitsPerOne) 1

def ofNat (n : Nat) : Binary64 := ofRatio false (n * unitsPerOne) 1

/-- A sum that is exactly zero is negative only when both terms are. -/
def add (x y : Binary64) : Binary64 :=
  if x.isNaN || y.isNaN then nan
  else if x.isInfinite then
    if y.isInfinite && x.isNegative != y.isNegative then nan else x
  else if y.isInfinite then y
  else
    let sum := x.signedUnits + y.signedUnits
    if sum = 0 then ofMagnitude (x.isNegative && y.isNegative) 0
    else ofRatio (decide (sum < 0)) sum.natAbs 1

def sub (x y : Binary64) : Binary64 := x.add y.neg

def mul (x y : Binary64) : Binary64 :=
  let negative := x.isNegative != y.isNegative
  if x.isNaN || y.isNaN then nan
  else if x.isInfinite || y.isInfinite then
    if x.magnitude = 0 || y.magnitude = 0 then nan else infinity negative
  else ofRatio negative (x.units * y.units) unitsPerOne

def div (x y : Binary64) : Binary64 :=
  let negative := x.isNegative != y.isNegative
  if x.isNaN || y.isNaN then nan
  else if x.isInfinite then if y.isInfinite then nan else infinity negative
  else if y.isInfinite then ofMagnitude negative 0
  else if y.magnitude = 0 then if x.magnitude = 0 then nan else infinity negative
  else ofRatio negative (x.units * unitsPerOne) y.units

instance : Add Binary64 := ⟨add⟩

instance : Sub Binary64 := ⟨sub⟩

instance : Mul Binary64 := ⟨mul⟩

instance : Div Binary64 := ⟨div⟩

/-- The next double toward zero. -/
def towardZero (x : Binary64) : Binary64 := ofMagnitude x.isNegative (x.magnitude - 1)

example : (ofInt 1).bits = 0x3ff0000000000000 ∧ (ofInt (-3)).bits = 0xc008000000000000 := by
  decide +kernel

example : ofInt (2 ^ 53 + 1) = ofInt (2 ^ 53) ∧ ofInt (2 ^ 53 + 3) = ofInt (2 ^ 53 + 4) := by
  decide +kernel

end Binary64

end Reconcile
