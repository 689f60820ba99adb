/-!
# Field types

The types that a field of a record can be declared with.
-/

namespace Reconcile

inductive FieldType where
  | bool
  | int
  | bigInt
  | double
  | text
  | bytes
  | uuid
  | dateTime
deriving DecidableEq, Repr

namespace FieldType

/-- The name in schemas and messages. -/
def name : FieldType → String
  | bool => "bool"
  | int => "int"
  | bigInt => "big_int"
  | double => "double"
  | text => "text"
  | bytes => "bytes"
  | uuid => "uuid"
  | dateTime => "date_time"

/-- Types by name; some have further names. -/
def ofName? : String → Option FieldType
  | "bool" => some bool
  | "int" | "int32" => some int
  | "big_int" | "int64" | "bigint" => some bigInt
  | "double" | "float64" | "float" => some double
  | "text" | "string" => some text
  | "bytes" => some bytes
  | "uuid" => some uuid
  | "date_time" | "datetime" | "timestamp" => some dateTime
  | _ => none

theorem ofName?_name (type : FieldType) : ofName? type.name = some type := by
  cases type <;> rfl

/-- Whether fields of the type belong to the key unless told otherwise: all but raw bytes. -/
def isKeyType : FieldType → Bool
  | bytes => false
  | _ => true

def isInteger : FieldType → Bool
  | int | bigInt => true
  | _ => false

def isNumeric : FieldType → Bool
  | int | bigInt | double => true
  | _ => false

end FieldType

end Reconcile
