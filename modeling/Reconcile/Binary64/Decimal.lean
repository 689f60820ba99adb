import Reconcile.Binary64.Arithmetic

/-!
# Decimals of doubles

A decimal is read as the double nearest to it.  A finite double is written with the fewest digits
that read back to it, and of those with the digits nearest to its exact value.  How the digits are
laid out is a separate choice, made by the format that writes them.
-/

namespace Reconcile

/-- The number `digits * 10 ^ exponent`. -/
structure Decimal where
  digits : Nat
  exponent : Int
deriving DecidableEq, Repr

namespace Decimal

/-- The magnitude nearest to a decimal. -/
def magnitude (d : Decimal) : Nat :=
  Binary64.magnitudeOfRatio (d.digits * 10 ^ d.exponent.toNat * Binary64.unitsPerOne)
    (10 ^ (-d.exponent).toNat)

/-- The magnitude nearest to a decimal, found without large powers where the exponent alone
decides: every decimal from `10 ^ 400` up is infinite, every one below `10 ^ (-400)` zero. -/
def nearestMagnitude (d : Decimal) : Nat :=
  if d.digits = 0 then 0
  else if 400 < d.exponent then Binary64.infiniteMagnitude
  else if d.exponent + Nat.log2 d.digits < -401 then 0
  else d.magnitude

/-- The same number with no trailing zero among the digits; `fuel` bounds how many are dropped. -/
def dropZeros : Nat → Decimal → Decimal
  | 0, d => d
  | fuel + 1, d =>
      if d.digits ≠ 0 ∧ d.digits % 10 = 0 then dropZeros fuel ⟨d.digits / 10, d.exponent + 1⟩
      else d

end Decimal

namespace Binary64

def ofDecimal (negative : Bool) (d : Decimal) : Binary64 :=
  ofMagnitude negative d.nearestMagnitude

/-- Which of two equally near digit sequences is taken. -/
inductive Tie where
  | even
  | up
deriving DecidableEq, Repr

/-- Whether digits at a decimal place have a magnitude. -/
def readsBack (magnitude : Nat) (exponent : Int) (digits : Nat) : Bool :=
  (Decimal.mk digits exponent).magnitude == magnitude

/-- The whole number nearest to a ratio among those of its two neighbours that are accepted. -/
def nearestNeighbour? (tie : Tie) (numerator denominator : Nat) (accepted : Nat → Bool) :
    Option Nat :=
  let below := numerator / denominator
  match accepted below, accepted (below + 1) with
  | false, false => none
  | true, false => some below
  | false, true => some (below + 1)
  | true, true =>
      let twice := 2 * (numerator % denominator)
      if twice < denominator then some below
      else if denominator < twice then some (below + 1)
      else match tie with
        | .even => some (below + below % 2)
        | .up => some (below + 1)

/-- The digits nearest to a magnitude among those of one decimal place that read back to it.
Only the two neighbours of the exact value on the grid of that place can do so. -/
def digitsAt? (tie : Tie) (magnitude : Nat) (exponent : Int) : Option Nat :=
  nearestNeighbour? tie (unitsOf magnitude * 10 ^ (-exponent).toNat)
    (unitsPerOne * 10 ^ exponent.toNat) (readsBack magnitude exponent)

/-- The first decimal place, going down from `exponent`, at which some digits read back. -/
def searchDigits (tie : Tie) (magnitude : Nat) : Nat → Int → Option Decimal
  | 0, _ => none
  | places + 1, exponent =>
      ((digitsAt? tie magnitude exponent).map fun digits => ⟨digits, exponent⟩).orElse fun _ =>
        searchDigits tie magnitude places (exponent - 1)

/-- A place at or above the leading digit of a magnitude: `1233 / 4096` lies just below the
decimal logarithm of two. -/
def leadingPlace (magnitude : Nat) : Int :=
  ((Nat.log2 (unitsOf magnitude) : Int) - 1074) * 1233 / 4096 + 2

/-- The fewest digits that read back to a finite magnitude, without trailing zeros.  Seventeen
digits always suffice; should the search end empty, all digits of the exact value are given. -/
def shortest (tie : Tie) (magnitude : Nat) : Decimal :=
  if magnitude = 0 then ⟨0, 0⟩
  else
    match searchDigits tie magnitude 22 (leadingPlace magnitude) with
    | some d => d.dropZeros 20
    | none => (Decimal.mk (unitsOf magnitude * 5 ^ 1074) (-1074)).dropZeros 1074

/-! ## Layout -/

/-- How the digits of a finite double are laid out and what stands for the other doubles. -/
structure Layout where
  /-- which digits are taken when two candidates are equally near -/
  tie : Tie
  /-- leading digits at these powers of ten are written positionally, all others with an exponent;
  `none` writes every number positionally -/
  positional : Option (Int × Int)
  /-- a whole number written positionally ends in `.0` -/
  wholeHasPoint : Bool
  /-- a positive exponent has a plus sign -/
  plusExponent : Bool
  nan : String
  infinity : String
  negativeInfinity : String

/-- Decimal digits of a natural number, at least one. -/
def natDigits (n : Nat) : List Char := Nat.toDigits 10 n

/-- Digits with the point where the decimal's exponent puts it. -/
def positionalText (wholeHasPoint : Bool) (d : Decimal) : List Char :=
  let digits := natDigits d.digits
  if 0 ≤ d.exponent then
    digits ++ List.replicate d.exponent.toNat '0' ++ if wholeHasPoint then ['.', '0'] else []
  else
    let places := (-d.exponent).toNat
    if places < digits.length then
      digits.take (digits.length - places) ++ '.' :: digits.drop (digits.length - places)
    else '0' :: '.' :: (List.replicate (places - digits.length) '0' ++ digits)

/-- One digit before the point, the rest behind it, then the power of ten. -/
def exponentText (plusExponent : Bool) (d : Decimal) : List Char :=
  let digits := natDigits d.digits
  let power := d.exponent + (digits.length - 1 : Nat)
  let fraction := digits.drop 1
  digits.take 1 ++ (if fraction.isEmpty then [] else '.' :: fraction) ++ 'e' ::
    ((if power < 0 then ['-'] else if plusExponent then ['+'] else []) ++ natDigits power.natAbs)

def Layout.decimalText (layout : Layout) (d : Decimal) : List Char :=
  let power := d.exponent + ((natDigits d.digits).length - 1 : Nat)
  match layout.positional with
  | none => positionalText layout.wholeHasPoint d
  | some (least, bound) =>
      if least ≤ power ∧ power < bound then positionalText layout.wholeHasPoint d
      else exponentText layout.plusExponent d

def Layout.text (layout : Layout) (x : Binary64) : String :=
  if x.isNaN then layout.nan
  else if x.isInfinite then
    if x.isNegative then layout.negativeInfinity else layout.infinity
  else
    String.ofList ((if x.isNegative then ['-'] else []) ++
      layout.decimalText (shortest layout.tie x.magnitude))

/-- The layout of displayed values: always positional, whole numbers bare. -/
def display : Layout where
  tie := .up
  positional := none
  wholeHasPoint := false
  plusExponent := false
  nan := "NaN"
  infinity := "inf"
  negativeInfinity := "-inf"

example : display.text ⟨0x3fb999999999999a⟩ = "0.1" := by decide +kernel

example : display.text ⟨0x8000000000000000⟩ = "-0" := by decide +kernel

example : display.text ⟨0x44b52d02c7e14af6⟩ = "100000000000000000000000" := by decide +kernel

end Binary64

end Reconcile
