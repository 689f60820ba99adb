import Reconcile.Binary64.Reading
import Reconcile.Text.Digits

/-!
# Meaning of plain scalars

Unquoted text means null, a truth value, an integer, a double or itself.
-/

namespace Reconcile

namespace Yaml

inductive Scalar where
  | null
  | bool (b : Bool)
  | integer (n : Int)
  | double (x : Binary64)
  | string (s : String)
deriving DecidableEq

namespace Scalar

def isNullName (text : List Char) : Bool :=
  ["null", "Null", "NULL", "~"].contains (String.ofList text)

def bool? (text : List Char) : Option Bool :=
  let name := String.ofList text
  if ["true", "True", "TRUE"].contains name then some true
  else if ["false", "False", "FALSE"].contains name then some false
  else none

/-- Digits with a leading zero, with or without a sign: no number but text. -/
def isDigitText (text : List Char) : Bool :=
  let digits :=
    match text with
    | '-' :: digits => digits
    | '+' :: digits => digits
    | digits => digits
  match digits with
  | '0' :: second :: rest => (second :: rest).all Text.isDigit
  | _ => false

/-- A number behind the mark of its base. -/
def basedNat? : List Char → Option Nat
  | '0' :: 'x' :: digits => Text.natOfText? 16 digits
  | '0' :: 'o' :: digits => Text.natOfText? 8 digits
  | '0' :: 'b' :: digits => Text.natOfText? 2 digits
  | _ => none

/-- An integer of any size, in decimal or behind the mark of its base. -/
def integerText? (text : List Char) : Option Int :=
  let unsigned? (digits : List Char) : Option Nat :=
    match basedNat? digits with
    | some n => some n
    | none => if isDigitText text then none else Text.natOfText? 10 digits
  match text with
  | '-' :: digits => (unsigned? digits).map fun n => -(n : Int)
  | '+' :: digits => (unsigned? digits).map Int.ofNat
  | digits => (unsigned? digits).map Int.ofNat

/-- Whether an integer is kept: it fits 64 bits, signed or not. -/
def isKept (n : Int) : Bool := -2 ^ 63 ≤ n && n < 2 ^ 64

/-- Whether an integer is still read as one: it fits 128 bits, signed or not. -/
def isInteger (n : Int) : Bool := -2 ^ 127 ≤ n && n < 2 ^ 128

/-- An integer that is read as one. -/
def integer? (text : List Char) : Option Int := (integerText? text).filter isInteger

def double? (text : List Char) : Option Binary64 :=
  let name := String.ofList text
  if [".inf", ".Inf", ".INF", "+.inf", "+.Inf", "+.INF"].contains name then
    some (Binary64.infinity false)
  else if ["-.inf", "-.Inf", "-.INF"].contains name then some (Binary64.infinity true)
  else if [".nan", ".NaN", ".NAN"].contains name then some Binary64.nan
  else (Binary64.ofText? text).filter Binary64.isFinite

/-- The meaning of plain text; none if it is an integer too large to be kept. -/
def ofPlain? (text : List Char) : Option Scalar :=
  if text.isEmpty || isNullName text then some null
  else
    match bool? text, integer? text with
    | some b, _ => some (bool b)
    | none, some n => if isKept n then some (integer n) else none
    | none, none =>
        match if isDigitText text then none else double? text with
        | some x => some (double x)
        | none => some (string (String.ofList text))

/-- Whether plain text would mean itself. -/
def isText (text : List Char) : Bool :=
  !text.isEmpty && !isNullName text && (bool? text).isNone && (integer? text).isNone &&
    !isDigitText text && (double? text).isNone

end Scalar

end Yaml

end Reconcile
