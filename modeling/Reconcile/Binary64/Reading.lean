import Reconcile.Binary64.Decimal
import Reconcile.Text.Digits

/-!
# Reading doubles

The free spelling of doubles in options and plain scalars: an optional sign, then digits with an
optional point and power of ten, or the name of infinity or of NaN in any case.
-/

namespace Reconcile

/-- The decimal of the digits before and behind a point and a power of ten. -/
def Decimal.ofDigits (whole fraction : List Char) (power : Int) : Decimal :=
  ⟨(Text.natOfDigits? 10 0 (whole ++ fraction)).getD 0, power - fraction.length⟩

namespace Binary64

/-- A signed number of one or more digits. -/
def powerOfText? (text : List Char) : Option Int :=
  match text with
  | '-' :: digits => (Text.natOfText? 10 digits).map fun n => -(n : Int)
  | '+' :: digits => (Text.natOfText? 10 digits).map Int.ofNat
  | digits => (Text.natOfText? 10 digits).map Int.ofNat

/-- Digits around an optional point, at least one, and an optional power of ten. -/
def decimalOfText? (text : List Char) : Option Decimal :=
  let whole := text.takeWhile Text.isDigit
  let rest := text.dropWhile Text.isDigit
  let (fraction, rest) :=
    match rest with
    | '.' :: rest => (rest.takeWhile Text.isDigit, rest.dropWhile Text.isDigit)
    | rest => ([], rest)
  if whole.isEmpty && fraction.isEmpty then none
  else
    match rest with
    | [] => some (Decimal.ofDigits whole fraction 0)
    | mark :: power =>
        if mark = 'e' ∨ mark = 'E' then
          (powerOfText? power).map (Decimal.ofDigits whole fraction)
        else none

/-- A double without its sign. -/
def ofUnsignedText? (negative : Bool) (text : List Char) : Option Binary64 :=
  let name := String.ofList (text.map Char.toLower)
  if name = "inf" ∨ name = "infinity" then some (infinity negative)
  else if name = "nan" then some (if negative then nan.neg else nan)
  else (decimalOfText? text).map (ofDecimal negative)

def ofText? : List Char → Option Binary64
  | '-' :: rest => ofUnsignedText? true rest
  | '+' :: rest => ofUnsignedText? false rest
  | text => ofUnsignedText? false text

example : ofText? "0.1".toList = some ⟨0x3fb999999999999a⟩ := by decide +kernel

example : ofText? "1e400".toList = some (infinity false) := by decide +kernel

end Binary64

end Reconcile
