import Reconcile.Schema.Basic
import Reconcile.Timestamp.Reading

/-!
# Coercion

A generated value becomes a value of its field's type, where that is possible.  Null stays null.
-/

namespace Reconcile

namespace Value

/-- The truth value that a text is, in lower case with nothing around it. -/
def boolOfText? : String → Option Bool
  | "true" => some true
  | "false" => some false
  | _ => none

/-- The value as one of another type. -/
def coerce? (value : Value) (type : FieldType) : Option Value :=
  match type, value with
  | .int, .bigInt n =>
      if -2 ^ 31 ≤ n.toInt ∧ n.toInt < 2 ^ 31 then some (.int (Int32.ofInt n.toInt)) else none
  | .bigInt, .int n => some (.bigInt (Int64.ofInt n.toInt))
  | .double, value => value.integer?.map fun n => .double (Binary64.ofInt n)
  | .text, value => some (.text value.display)
  | .bytes, .text s => some (.bytes s.toUTF8.toList)
  | .uuid, .text s => (Uuid.ofText? s.toList).map .uuid
  | .dateTime, .text s => (Timestamp.ofBoundText? s).map .dateTime
  | .dateTime, .bigInt n => (Timestamp.ofParts? n.toInt 0).map .dateTime
  | .bool, .text s => (boolOfText? s).map .bool
  | _, _ => none

/-- The value in a field of a type. -/
def toType? (value : Value) (type : FieldType) : Option Value :=
  if value.isNull || value.fieldType? = some type then some value else value.coerce? type

end Value

end Reconcile
