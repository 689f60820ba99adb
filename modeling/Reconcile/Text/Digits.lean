import Reconcile.CoreInstances

/-!
# Digits

Decimal and hexadecimal digits of numbers and bytes.  A digit here is one of the ASCII digits.
-/

namespace Reconcile

namespace Text

/-- The value of a decimal digit. -/
def digitValue? (c : Char) : Option Nat :=
  if '0' ≤ c ∧ c ≤ '9' then some (c.toNat - '0'.toNat) else none

/-- The value of a hexadecimal digit of either case. -/
def hexValue? (c : Char) : Option Nat :=
  if '0' ≤ c ∧ c ≤ '9' then some (c.toNat - '0'.toNat)
  else if 'a' ≤ c ∧ c ≤ 'f' then some (c.toNat - 'a'.toNat + 10)
  else if 'A' ≤ c ∧ c ≤ 'F' then some (c.toNat - 'A'.toNat + 10)
  else none

def isDigit (c : Char) : Bool := (digitValue? c).isSome

/-- Digits of a base read from the left, continuing from `start`; none if a digit is foreign or
not below the base. -/
def natOfDigits? (base : Nat) (start : Nat) : List Char → Option Nat
  | [] => some start
  | c :: rest =>
      match hexValue? c with
      | some value => if value < base then natOfDigits? base (start * base + value) rest else none
      | none => none

/-- A number from one or more digits of a base, with nothing else around them. -/
def natOfText? (base : Nat) (text : List Char) : Option Nat :=
  if text.isEmpty then none else natOfDigits? base 0 text

/-- A number written in decimal, at least one digit. -/
def decimal (n : Nat) : List Char := Nat.toDigits 10 n

/-- A number written in decimal, with zeros in front up to a width. -/
def padded (width n : Nat) : List Char :=
  List.replicate (width - (decimal n).length) '0' ++ decimal n

/-- An integer written in decimal. -/
def integer (n : Int) : List Char :=
  if n < 0 then '-' :: decimal n.natAbs else decimal n.natAbs

/-- A byte as two lower-case hexadecimal digits. -/
def hexByte (byte : UInt8) : List Char :=
  [Nat.digitChar (byte.toNat / 16), Nat.digitChar (byte.toNat % 16)]

/-- Bytes as lower-case hexadecimal digits. -/
def hex (bytes : List UInt8) : List Char := bytes.flatMap hexByte

/-- Reads pairs of hexadecimal digits. -/
def bytesOfHex? : List Char → Option (List UInt8)
  | [] => some []
  | [_] => none
  | high :: low :: rest => do
      let high ← hexValue? high
      let low ← hexValue? low
      let bytes ← bytesOfHex? rest
      pure (UInt8.ofNat (high * 16 + low) :: bytes)

end Text

end Reconcile
