import Reconcile.Binary64.Reading
import Reconcile.Json.Quoted

/-!
# JSON numbers

Integers that fit 64 bits are kept exactly; all other numbers are doubles.  A minus sign before
zero makes a double, and a number that rounds to infinity is no number.
-/

namespace Reconcile

namespace Json

/-- The layout of doubles: a point or an exponent marks them off from integers. -/
def doubleLayout : Binary64.Layout where
  tie := .even
  positional := some (-5, 16)
  wholeHasPoint := true
  plusExponent := true
  nan := "null"
  infinity := "null"
  negativeInfinity := "null"

/-- The parts of a number as spelled. -/
structure NumberToken where
  negative : Bool
  whole : List Char
  fraction : List Char
  /-- the power of ten, if one is spelled -/
  power : Option Int

inductive Number where
  | integer (n : Int)
  | double (x : Binary64)
deriving DecidableEq

/-- One or more digits. -/
def readDigits : Reader (List Char)
  | [] => .error .truncated
  | text =>
      let digits := text.takeWhile Text.isDigit
      if digits.isEmpty then .error .malformed
      else .ok (digits, text.dropWhile Text.isDigit)

/-- The digits before the point; a leading zero stands alone. -/
def readWhole (text : List Char) : Except Fault (List Char × List Char) := do
  let (digits, rest) ← readDigits text
  if digits.head? = some '0' ∧ 1 < digits.length then .error .malformed else .ok (digits, rest)

def readFraction : Reader (List Char)
  | '.' :: rest => readDigits rest
  | rest => .ok ([], rest)

def readPower : Reader (Option Int)
  | mark :: rest =>
      if mark = 'e' ∨ mark = 'E' then do
        let (negative, rest) := match rest with
          | '-' :: rest => (true, rest)
          | '+' :: rest => (false, rest)
          | rest => (false, rest)
        let (digits, rest) ← readDigits rest
        let power : Int := (Text.natOfDigits? 10 0 digits).getD 0
        .ok (some (if negative then -power else power), rest)
      else .ok (none, mark :: rest)
  | [] => .ok (none, [])

/-- Whether a minus sign stands in front, and what is behind it. -/
def readSign : List Char → Bool × List Char
  | '-' :: rest => (true, rest)
  | rest => (false, rest)

def readNumber (text : List Char) : Except Fault (NumberToken × List Char) := do
  let (negative, rest) := readSign text
  let (whole, rest) ← readWhole rest
  let (fraction, rest) ← readFraction rest
  let (power, rest) ← readPower rest
  .ok (⟨negative, whole, fraction, power⟩, rest)

/-- Whether a number is spelled with digits alone. -/
def NumberToken.isWhole (token : NumberToken) : Bool :=
  token.fraction.isEmpty && token.power.isNone

/-- The double nearest to the spelled number, unless that is infinite. -/
def NumberToken.double? (token : NumberToken) : Option Binary64 :=
  let x := Binary64.ofDecimal token.negative
    (Decimal.ofDigits token.whole token.fraction (token.power.getD 0))
  if x.isInfinite then none else some x

/-- The spelled integer, if it is one that is kept exactly. -/
def NumberToken.integer? (token : NumberToken) : Option Int :=
  let n := (Text.natOfDigits? 10 0 token.whole).getD 0
  if !token.isWhole then none
  else if token.negative then if 0 < n ∧ n ≤ 2 ^ 63 then some (-(n : Int)) else none
  else if n < 2 ^ 64 then some n else none

def NumberToken.number? (token : NumberToken) : Option Number :=
  match token.integer? with
  | some n => some (.integer n)
  | none => token.double?.map .double

/-- The double that a number stands for. -/
def Number.toDouble : Number → Binary64
  | integer n => Binary64.ofInt n
  | double x => x

example : doubleLayout.text ⟨0x4341c37937e08000⟩ = "1e+16" := by decide +kernel

example : doubleLayout.text ⟨0x3ee9e0fcaf9380fc⟩ = "0.00001234" := by decide +kernel

end Json

end Reconcile
