import Reconcile.Binary64.Arithmetic
import Reconcile.Random.KeyStream
import Reconcile.Uuid

/-!
# Draws

Random numbers of given ranges, taken off a key stream.  A word that would make some numbers
likelier than others is passed over and the next one is taken.
-/

namespace Reconcile

abbrev Draw := StateM KeyStream

namespace Draw

def word : Draw UInt32 := fun k => k.next

/-- Two words, the low one first. -/
def long : Draw UInt64 := do
  let low ← word
  let high ← word
  return low.toUInt64 ||| (high.toUInt64 <<< 32)

/-- How many words may be passed over.  Each is with a chance below one half. -/
def attempts : Nat := 128

/-- A number below `range` from numbers below `modulus`: the number is scaled to the range, and
taken only if what the scaling cuts off is at most `zone`. -/
def scaled (modulus range zone : Nat) (draw : Draw Nat) : Nat → Draw Nat
  | 0 => return 0
  | attempts + 1 => do
      let product := (← draw) * range
      if product % modulus ≤ zone then return product / modulus
      else scaled modulus range zone draw attempts

/-- A number below `range`, which is at most `2 ^ 64`. -/
def below (range : Nat) : Draw Nat :=
  if range = 2 ^ 64 then return (← long).toNat
  else scaled (2 ^ 64) range (range * 2 ^ (63 - Nat.log2 range) - 1)
    (do return (← long).toNat) attempts

/-- A number below a small `range`. -/
def belowSmall (range : Nat) : Draw Nat :=
  scaled (2 ^ 32) range (2 ^ 32 - 1 - (2 ^ 32 - range) % range) (do return (← word).toNat) attempts

/-- An integer between bounds, both included. -/
def integer (least greatest : Int) : Draw Int := do
  return least + (← below (greatest - least + 1).toNat)

/-- The largest double below one that is a multiple of `2 ^ (-52)`. -/
def greatestFraction : Binary64 := Binary64.ofRatio false ((2 ^ 52 - 1) * 2 ^ 1022) 1

/-- The width that fractions are scaled by: wide enough to reach the upper bound, narrowed until
none passes it. -/
def fittedScale (least greatest : Binary64) : Nat → Binary64 → Binary64
  | 0, scale => scale
  | fuel + 1, scale =>
      if greatest.lt (scale * greatestFraction + least) then
        fittedScale least greatest fuel scale.towardZero
      else scale

/-- A double between bounds, both included; none if they are no numbers or too far apart. -/
def double (least greatest : Binary64) : Option (Draw Binary64) :=
  let scale := (greatest - least) / greatestFraction
  if least.isFinite && greatest.isFinite && scale.isFinite then
    let scale := fittedScale least greatest 1000 scale
    some do
      let fraction := Binary64.ofRatio false (((← long).toNat / 2 ^ 12) * 2 ^ 1022) 1
      return fraction * scale + least
  else none

/-- True with a probability between zero and one; certainty needs no draw. -/
def chance (probability : Binary64) : Draw Bool := do
  if probability = .one then return true
  else return decide ((← long).toNat < probability.units * 2 ^ 64 / Binary64.unitsPerOne)

/-- The octets of a word, the low one first. -/
def octetsOf (word : UInt32) : List UInt8 :=
  [word.toUInt8, (word >>> 8).toUInt8, (word >>> 16).toUInt8, (word >>> 24).toUInt8]

def uuid : Draw Uuid := do
  let words := [← word, ← word, ← word, ← word]
  return .ofRandomOctets (words.flatMap octetsOf)

/-- A digit between `least` and nine. -/
def digit (least : Nat) : Draw Char := do
  return Nat.digitChar (least + (← belowSmall (10 - least)))

/-- Digits of which the first is not zero. -/
def number : Nat → Draw (List Char)
  | 0 => return []
  | n + 1 => do
      let first ← digit 1
      return first :: (← (List.replicate n ()).mapM fun _ => digit 0)

/-- How many digits a text has room for. -/
def room : Nat := 2 ^ 63 - 1

/-- A text of a number of digits, of which the first is not zero.  None is drawn where no text has
room for so many. -/
def digits (count : Nat) : OptionT Draw (List Char) :=
  if count ≤ room then OptionT.lift (number count) else failure

end Draw

end Reconcile
