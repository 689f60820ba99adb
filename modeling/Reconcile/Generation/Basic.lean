import Reconcile.Generation.Coercion
import Reconcile.Generation.Pattern

/-!
# Generation

Records that a schema's generators make up from a seed.  The same schema, seed and start give the
same records.
-/

namespace Reconcile

namespace Generation

/-- Why no value or no record could be made. -/
inductive Error where
  | missingGenerator (schema field : String)
  | coercion (field value : String) (target : FieldType)
  | invalidTimestamp (text : String)
  /-- a range of doubles that has no finite width -/
  | unboundedRange
  /-- a probability that is not a number -/
  | undefinedWeight
  /-- more digits than a text has room for -/
  | excessDigits
deriving DecidableEq

def Error.message : Error → String
  | missingGenerator schema field =>
      "Field '" ++ field ++ "' in schema '" ++ schema ++ "' has no generator"
  | coercion field value target =>
      "Cannot coerce generated value '" ++ value ++ "' to " ++ target.name ++ " for field '" ++
        field ++ "'"
  | invalidTimestamp text =>
      "Invalid timestamp '" ++ text ++ "' (expected RFC 3339 or YYYY-MM-DD)"
  | unboundedRange => "unbounded range"
  | undefinedWeight => "undefined weight"
  | excessDigits => "excess digits"

/-! ## Values -/

/-- An instant between two bounds, in whole seconds.  Unless the first bound lies in an earlier
second than the last, it is the first bound itself. -/
def instant (first last : Timestamp) : Draw Timestamp :=
  if last.seconds ≤ first.seconds then return first
  else do
    let seconds ← Draw.integer first.seconds last.seconds
    return (Timestamp.ofParts? seconds 0).getD first

/-- The probability nearest to a weight. -/
def probability (weight : Binary64) : Binary64 :=
  if weight.lt .zero then .zero else if Binary64.one.lt weight then .one else weight

/-- The value that a generator makes for the record of an index. -/
def value (generator : Generator) (index : UInt64) : ExceptT Error Draw Value :=
  match generator with
  | .uuid => return .uuid (← Draw.uuid)
  | .sequential start => return .bigInt (start + index.toInt64)
  | .pattern text => do
      match ← (Pattern.fill text index).run with
      | some text => return .text text
      | none => throw .excessDigits
  | .integerRange a b => do
      let least := min a.toInt b.toInt
      let greatest := max a.toInt b.toInt
      return .bigInt (Int64.ofInt (← Draw.integer least greatest))
  | .doubleRange least greatest =>
      if greatest.le least then return .double least
      else
        match Draw.double least greatest with
        | some draw => do return .double (← draw)
        | none => throw .unboundedRange
  | .timestampRange first last =>
      match Timestamp.ofBoundText? first, Timestamp.ofBoundText? last with
      | none, _ => throw (.invalidTimestamp first)
      | some _, none => throw (.invalidTimestamp last)
      | some first, some last => do return .dateTime (← instant first last)
  | .weightedBool weight =>
      if weight.isNaN then throw .undefinedWeight
      else do return .bool (← Draw.chance (probability weight))
  | .oneOf values =>
      if values.isEmpty then return .null
      else do return values.getD (← Draw.below values.length) .null
  | .constant value => return value
  | .null => return .null

/-- A value as one of a field's type. -/
def coerced (field : Field) (value : Value) : Except Error Value :=
  match value.toType? field.type with
  | some value => .ok value
  | none => .error (.coercion field.name value.display field.type)

/-- The value of a field.  A field without a generator is null, if it may be. -/
def fieldValue (schema : String) (field : Field) (index : UInt64) : ExceptT Error Draw Value :=
  match field.generator with
  | some generator => do
      let value ← value generator index
      ExceptT.mk (return coerced field value)
  | none =>
      if field.nullable then return .null
      else throw (.missingGenerator schema field.name)

end Generation

/-! ## Records -/

/-- A source of made-up records. -/
structure Generation where
  schema : Schema
  seed : UInt64
  stream : KeyStream
  /-- the index of the next record -/
  index : UInt64

namespace Generation

/-- From the first record on. -/
def start (schema : Schema) (seed : UInt64) : Generation := ⟨schema, seed, .ofSeed seed, 0⟩

/-- The seed of the stream that starts at an index. -/
def seedAt (seed index : UInt64) : UInt64 := seed + index * 0x9e3779b97f4a7c15

/-- From the record of an index on, with a stream of its own. -/
def startAt (g : Generation) (index : UInt64) : Generation :=
  { g with stream := .ofSeed (seedAt g.seed index), index := index }

/-- The next record, field after field.  After a failure the same index is tried again. -/
def next (g : Generation) : Except Error Record × Generation :=
  let (result, stream) :=
    ((g.schema.fields.mapM fun field => fieldValue g.schema.name field g.index).run).run g.stream
  match result with
  | .ok values => (.ok ⟨values⟩, { g with stream := stream, index := g.index + 1 })
  | .error e => (.error e, { g with stream := stream })

/-- The next records, up to a number, with the failures among them. -/
def take (g : Generation) : Nat → List (Except Error Record) × Generation
  | 0 => ([], g)
  | n + 1 =>
      let (result, g) := g.next
      let (results, g) := g.take n
      (result :: results, g)

/-- The next records, up to a number or to the first failure, and that failure. -/
def untilFailure (g : Generation) : Nat → List Record × Option Error
  | 0 => ([], none)
  | n + 1 =>
      match g.next with
      | (.error e, _) => ([], some e)
      | (.ok r, g) =>
          let (records, failure) := g.untilFailure n
          (r :: records, failure)

end Generation

end Reconcile
