import Reconcile.Json.Number
import Reconcile.Record

/-!
# Writing fixtures

A record is one line, an array of its values; a value is an object that names its kind before its
content.  Doubles that are not finite have no number and are written as null.
-/

namespace Reconcile

namespace Fixture

/-- The names of the kinds of values. -/
def kindName : Value → String
  | .null => "null"
  | .bool _ => FieldType.bool.name
  | .int _ => FieldType.int.name
  | .bigInt _ => FieldType.bigInt.name
  | .double _ => FieldType.double.name
  | .text _ => FieldType.text.name
  | .bytes _ => FieldType.bytes.name
  | .uuid _ => FieldType.uuid.name
  | .dateTime _ => FieldType.dateTime.name

/-- Texts between brackets, with commas between them. -/
def bracketed (items : List (List Char)) : List Char :=
  '[' :: [','].intercalate items ++ [']']

/-- The content of a value; null has none. -/
def contentText? : Value → Option (List Char)
  | .null => none
  | .bool b => some (if b then "true".toList else "false".toList)
  | .int n => some (Text.integer n.toInt)
  | .bigInt n => some (Text.integer n.toInt)
  | .double x => some (Json.doubleLayout.text x).toList
  | .text s => some (Json.quote s.toList)
  | .bytes b => some (bracketed (b.map fun byte => Text.decimal byte.toNat))
  | .uuid u => some (Json.quote u.text)
  | .dateTime t => some (Json.quote t.zoneLetterText)

def valueText (value : Value) : List Char :=
  '{' :: Json.quote "type".toList ++ ':' :: Json.quote (kindName value).toList ++
    (match contentText? value with
    | some content => ',' :: Json.quote "value".toList ++ ':' :: content
    | none => []) ++ ['}']

def recordText (record : Record) : List Char := bracketed (record.fields.map valueText)

/-- The line of a record, with its line feed. -/
def line (record : Record) : String := String.ofList (recordText record ++ ['\n'])

/-- The size of a record's line in octets. -/
def lineSize (record : Record) : Nat := (line record).utf8ByteSize

/-- The lines of records, as octets. -/
def write (records : List Record) : List UInt8 :=
  records.flatMap fun record => (line record).toUTF8.toList

example : line ⟨[.int 1, .null]⟩ =
    "[\x7b\"type\":\"int\",\"value\":1\x7d,\x7b\"type\":\"null\"\x7d]\n" := by
  decide +kernel

end Fixture

end Reconcile
