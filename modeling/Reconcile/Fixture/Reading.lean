import Reconcile.Fixture.Writing
import Reconcile.Json.Document
import Reconcile.Timestamp.Reading

/-!
# Reading fixtures

A value is an object with the members `type` and `value` in either order, or an array of the two.
Members of other names are passed over, repeated ones are refused.  Content that follows its type
is read as that type at once; content that precedes it is kept as a tree.
-/

namespace Reconcile

namespace Fixture

open Json (Reader Fault)

/-- The kind of a value: null, or a field type. -/
inductive Kind where
  | null
  | typed (type : FieldType)
deriving DecidableEq

/-- Kinds by name; unlike in schemas a kind has one name. -/
def Kind.ofName? (name : String) : Option Kind :=
  if name = "null" then some .null
  else
    match FieldType.ofName? name with
    | some type => if type.name = name then some (.typed type) else none
    | none => none

/-! ## Content of a known kind -/

/-- An integer between two bounds. -/
def readInteger (least most : Int) (text : List Char) : Except Fault (Int × List Char) :=
  let text := Json.skipBlanks text
  if text.head?.any Json.startsNumber then do
    let (token, rest) ← Json.readNumber text
    match token.integer? with
    | some n => if least ≤ n ∧ n ≤ most then .ok (n, rest) else .error .malformed
    | none => .error .malformed
  else .error (Json.mismatch text)

def readDouble (text : List Char) : Except Fault (Binary64 × List Char) :=
  let text := Json.skipBlanks text
  if text.head?.any Json.startsNumber then do
    let (token, rest) ← Json.readNumber text
    match token.number? with
    | some n => .ok (n.toDouble, rest)
    | none => .error .malformed
  else .error (Json.mismatch text)

def readText (text : List Char) : Except Fault (List Char × List Char) :=
  match Json.skipBlanks text with
  | '"' :: rest => Json.readString rest
  | text => .error (Json.mismatch text)

def readBool (text : List Char) : Except Fault (Bool × List Char) :=
  match Json.skipBlanks text with
  | 't' :: rest => do .ok (true, ← Json.expect ['r', 'u', 'e'] rest)
  | 'f' :: rest => do .ok (false, ← Json.expect ['a', 'l', 's', 'e'] rest)
  | text => .error (Json.mismatch text)

def readNull (text : List Char) : Except Fault (List Char) :=
  match Json.skipBlanks text with
  | 'n' :: rest => Json.expect ['u', 'l', 'l'] rest
  | text => .error (Json.mismatch text)

/-- Items up to the closing bracket. -/
def readItems {α : Type} (item : Reader α) : Nat → Bool → Reader (List α)
  | 0, _, _ => .error .malformed
  | fuel + 1, first, text => do
      match ← Json.nextItem first text with
      | none => .ok ([], ← Json.closing ']' text)
      | some rest =>
          let (first, rest) ← item rest
          let (others, rest) ← readItems item fuel false rest
          .ok (first :: others, rest)

def readOctet (text : List Char) : Except Fault (UInt8 × List Char) := do
  let (octet, rest) ← readInteger 0 255 text
  .ok (UInt8.ofNat octet.toNat, rest)

def readBytes (text : List Char) : Except Fault (List UInt8 × List Char) :=
  match Json.skipBlanks text with
  | '[' :: rest => readItems readOctet (rest.length + 1) true rest
  | text => .error (Json.mismatch text)

/-- The bounds of integers of the two widths. -/
def intBounds : Int × Int := (-2 ^ 31, 2 ^ 31 - 1)

def bigIntBounds : Int × Int := (-2 ^ 63, 2 ^ 63 - 1)

/-- A value of a text's meaning, if it has one. -/
def known {α : Type} (meaning : Option α) : Except Fault α :=
  match meaning with
  | some meaning => .ok meaning
  | none => .error .malformed

/-- The content of a value whose kind is known. -/
def readContent (kind : Kind) (text : List Char) : Except Fault (Value × List Char) :=
  match kind with
  | .null => do .ok (.null, ← readNull text)
  | .typed .bool => do
      let (b, rest) ← readBool text
      .ok (.bool b, rest)
  | .typed .int => do
      let (n, rest) ← readInteger intBounds.1 intBounds.2 text
      .ok (.int (Int32.ofInt n), rest)
  | .typed .bigInt => do
      let (n, rest) ← readInteger bigIntBounds.1 bigIntBounds.2 text
      .ok (.bigInt (Int64.ofInt n), rest)
  | .typed .double => do
      let (x, rest) ← readDouble text
      .ok (.double x, rest)
  | .typed .text => do
      let (s, rest) ← readText text
      .ok (.text (String.ofList s), rest)
  | .typed .bytes => do
      let (b, rest) ← readBytes text
      .ok (.bytes b, rest)
  | .typed .uuid => do
      let (s, rest) ← readText text
      .ok (.uuid (← known (Uuid.ofText? s)), rest)
  | .typed .dateTime => do
      let (s, rest) ← readText text
      .ok (.dateTime (← known (Timestamp.ofLenientText? s)), rest)

/-- The octet that a tree stands for. -/
def octetOfTree? : Json → Option UInt8
  | .number (.integer n) => if 0 ≤ n ∧ n ≤ 255 then some (UInt8.ofNat n.toNat) else none
  | _ => none

/-- The value of a kind whose content was kept as a tree. -/
def contentOfTree? : Kind → Json → Option Value
  | .null, .null => some .null
  | .typed .bool, .bool b => some (.bool b)
  | .typed .int, .number (.integer n) =>
      if intBounds.1 ≤ n ∧ n ≤ intBounds.2 then some (.int (Int32.ofInt n)) else none
  | .typed .bigInt, .number (.integer n) =>
      if bigIntBounds.1 ≤ n ∧ n ≤ bigIntBounds.2 then some (.bigInt (Int64.ofInt n)) else none
  | .typed .double, .number n => some (.double n.toDouble)
  | .typed .text, .string s => some (.text s)
  | .typed .bytes, .array items => (items.mapM octetOfTree?).map .bytes
  | .typed .uuid, .string s => (Uuid.ofText? s.toList).map .uuid
  | .typed .dateTime, .string s => (Timestamp.ofLenientText? s.toList).map .dateTime
  | _, _ => none

/-! ## Values -/

def kindOfText (text : List Char) : Except Fault Kind := known (Kind.ofName? (String.ofList text))

/-- The kind as the member `type` gives it: a name, or an object whose one member has the name and
is null. -/
def readKind (text : List Char) : Except Fault (Kind × List Char) :=
  match Json.skipBlanks text with
  | [] => .error .truncated
  | '"' :: rest => do
      let (name, rest) ← Json.readString rest
      .ok (← kindOfText name, rest)
  | '{' :: rest => do
      let (name, rest) ← readText rest
      let kind ← kindOfText name
      let rest ← readNull (← Json.afterColon rest)
      .ok (kind, ← Json.closing '}' rest)
  | _ => .error .malformed

/-- The members that matter. -/
inductive Member where
  | kind
  | content
deriving DecidableEq

def Member.ofName? (name : List Char) : Option Member :=
  if name = "type".toList then some .kind
  else if name = "value".toList then some .content
  else none

/-- The rest behind the name of the next member that matters, past all others; the closing brace
is left in place. -/
def nextMember : Nat → Bool → List Char → Except Fault (Option Member × List Char)
  | 0, _, _ => .error .malformed
  | fuel + 1, first, text => do
      match ← Json.nextMember first text with
      | none => .ok (none, text)
      | some rest =>
          let (name, rest) ← Json.readString rest
          match Member.ofName? name with
          | some member => .ok (some member, rest)
          | none =>
              let rest ← Json.skipValue (rest.length + 1) (← Json.afterColon rest)
              nextMember fuel false rest

/-- The rest behind the closing brace, with no further member that matters before it. -/
def lastMember (text : List Char) : Except Fault (List Char) := do
  let (member, rest) ← nextMember (text.length + 1) false text
  match member with
  | some _ => .error .malformed
  | none => Json.closing '}' rest

/-- How deep content may nest when it is kept as a tree. -/
def treeDepth : Nat := 125

/-- A value after its opening brace. -/
def readObject (text : List Char) : Except Fault (Value × List Char) := do
  let (first, rest) ← nextMember (text.length + 1) true text
  match first with
  | none => .error .malformed
  | some .kind =>
      let (kind, rest) ← readKind (← Json.afterColon rest)
      let (second, rest) ← nextMember (rest.length + 1) false rest
      match second with
      | some .kind => .error .malformed
      | some .content =>
          let (value, rest) ← readContent kind (← Json.afterColon rest)
          .ok (value, ← lastMember rest)
      | none => if kind = .null then .ok (.null, ← Json.closing '}' rest) else .error .malformed
  | some .content =>
      let rest ← Json.afterColon rest
      let (tree, rest) ← Json.readTree (rest.length + 1) treeDepth rest
      let (second, rest) ← nextMember (rest.length + 1) false rest
      match second with
      | some .kind =>
          let (kind, rest) ← readKind (← Json.afterColon rest)
          let value ← known (contentOfTree? kind tree)
          .ok (value, ← lastMember rest)
      | _ => .error .malformed

/-- A value after the opening bracket of a pair. -/
def readPair (text : List Char) : Except Fault (Value × List Char) := do
  match ← Json.nextItem true text with
  | none => .error .malformed
  | some rest =>
      let (name, rest) ← readText rest
      let kind ← kindOfText name
      match ← Json.nextItem false rest with
      | none => .error .malformed
      | some rest =>
          let (value, rest) ← readContent kind rest
          .ok (value, ← Json.closing ']' rest)

def readValue (text : List Char) : Except Fault (Value × List Char) :=
  match Json.skipBlanks text with
  | '{' :: rest => readObject rest
  | '[' :: rest => readPair rest
  | text => .error (Json.mismatch text)

/-! ## Records -/

/-- The record that a text without its line end is. -/
def recordOfText (text : List Char) : Except Fault Record :=
  match Json.skipBlanks text with
  | '[' :: rest => do
      let (values, rest) ← readItems readValue (rest.length + 1) true rest
      if (Json.skipBlanks rest).isEmpty then .ok ⟨values⟩ else .error .malformed
  | text => .error (Json.mismatch text)

end Fixture

end Reconcile
