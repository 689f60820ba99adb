import Reconcile.Text.Digits

/-!
# Universally unique identifiers

An identifier is 128 bits, written as thirty-two hexadecimal digits in five groups.
-/

namespace Reconcile

structure Uuid where
  bits : BitVec 128
deriving DecidableEq, Repr

namespace Uuid

/-- Earlier octets weigh more, so identifiers order as numbers. -/
instance : Ord Uuid where
  compare a b := compare a.bits b.bits

theorem compare_eq_iff {a b : Uuid} : compare a b = .eq ↔ a = b := by
  constructor
  · intro equal
    obtain ⟨a⟩ := a
    obtain ⟨b⟩ := b
    exact congrArg Uuid.mk (Std.LawfulEqOrd.eq_of_compare equal)
  · rintro rfl
    exact Std.ReflOrd.compare_self (α := BitVec 128)

/-- The thirty-two digits from the most significant down. -/
def digits (u : Uuid) : List Char :=
  (List.range 32).reverse.map fun place => Nat.digitChar (u.bits.toNat / 16 ^ place % 16)

/-- Digits in groups of eight, four, four, four and twelve. -/
def text (u : Uuid) : List Char :=
  let digits := u.digits
  digits.take 8 ++ '-' :: (digits.drop 8).take 4 ++ '-' :: (digits.drop 12).take 4 ++
    '-' :: (digits.drop 16).take 4 ++ '-' :: digits.drop 20

def display (u : Uuid) : String := String.ofList u.text

/-- The identifier of thirty-two digits. -/
def ofDigits? (digits : List Char) : Option Uuid :=
  if digits.length = 32 then (Text.natOfDigits? 16 0 digits).map fun n => ⟨BitVec.ofNat 128 n⟩
  else none

/-- Reads the five groups. -/
def ofGroups? (text : List Char) : Option Uuid :=
  if text.length = 36 ∧ text[8]? = some '-' ∧ text[13]? = some '-' ∧ text[18]? = some '-' ∧
      text[23]? = some '-' then
    ofDigits? (text.take 8 ++ (text.drop 9).take 4 ++ (text.drop 14).take 4 ++
      (text.drop 19).take 4 ++ text.drop 24)
  else none

/-- Reads digits of either case, bare or in groups; groups may stand in braces or after
`urn:uuid:`. -/
def ofText? (text : List Char) : Option Uuid :=
  if text.length = 32 then ofDigits? text
  else if text.length = 36 then ofGroups? text
  else if text.length = 38 ∧ text.head? = some '{' ∧ text.getLast? = some '}' then
    ofGroups? (text.drop 1).dropLast
  else if text.length = 45 ∧ text.take 9 = "urn:uuid:".toList then ofGroups? (text.drop 9)
  else none

/-- The identifier of sixteen octets, with the marks of a random identifier put in: version 4 in
the seventh octet and the standard variant in the ninth. -/
def ofRandomOctets (octets : List UInt8) : Uuid :=
  let mark (place : Nat) (octet : UInt8) : UInt8 :=
    if place = 6 then octet &&& 0x0f ||| 0x40
    else if place = 8 then octet &&& 0x3f ||| 0x80
    else octet
  ⟨BitVec.ofNat 128 ((octets.zipIdx.map fun (octet, place) => mark place octet).foldl
    (fun n octet => n * 256 + octet.toNat) 0)⟩

end Uuid

end Reconcile
