import Reconcile.Binary64.Decimal
import Reconcile.FieldType
import Reconcile.Timestamp.Basic
import Reconcile.Uuid

/-!
# Values

What one field of a record holds.  Values of one kind order as that kind does, values of different
kinds by kind, and two values compare equal only if they are the same.
-/

namespace Reconcile

inductive Value where
  | null
  | bool (b : Bool)
  | int (n : Int32)
  | bigInt (n : Int64)
  | double (x : Binary64)
  | text (s : String)
  | bytes (b : List UInt8)
  | uuid (u : Uuid)
  | dateTime (t : Timestamp)
deriving DecidableEq

namespace Value

instance : Inhabited Value := ⟨null⟩

def isNull : Value → Bool
  | null => true
  | _ => false

/-- The type that a value is of; null is of none. -/
def fieldType? : Value → Option FieldType
  | null => none
  | bool _ => some .bool
  | int _ => some .int
  | bigInt _ => some .bigInt
  | double _ => some .double
  | text _ => some .text
  | bytes _ => some .bytes
  | uuid _ => some .uuid
  | dateTime _ => some .dateTime

/-- The number in an integer of either width. -/
def integer? : Value → Option Int
  | int n => some n.toInt
  | bigInt n => some n.toInt
  | _ => none

def double? : Value → Option Binary64
  | double x => some x
  | _ => none

def text? : Value → Option String
  | text s => some s
  | _ => none

/-- The place of a value's kind among the kinds. -/
def kindRank : Value → Nat
  | null => 0
  | bool _ => 1
  | int _ => 2
  | bigInt _ => 3
  | double _ => 4
  | text _ => 5
  | bytes _ => 6
  | uuid _ => 7
  | dateTime _ => 8

instance : Ord Value where
  compare
    | bool a, bool b => compare a b
    | int a, int b => compare a b
    | bigInt a, bigInt b => compare a b
    | double a, double b => compare a b
    | text a, text b => compare a b
    | bytes a, bytes b => compare a b
    | uuid a, uuid b => compare a b
    | dateTime a, dateTime b => compare a b
    | a, b => compare a.kindRank b.kindRank

/-- The text of a value in messages and previews. -/
def display : Value → String
  | null => "null"
  | bool true => "true"
  | bool false => "false"
  | int n => String.ofList (Text.integer n.toInt)
  | bigInt n => String.ofList (Text.integer n.toInt)
  | double x => Binary64.display.text x
  | text s => s
  | bytes b => String.ofList ('0' :: 'x' :: Text.hex b)
  | uuid u => u.display
  | dateTime t => t.display

end Value

end Reconcile
