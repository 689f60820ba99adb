import Reconcile.Value

/-!
# Generators

The ways in which a schema can have the values of a field made up.
-/

namespace Reconcile

inductive Generator where
  /-- random identifiers -/
  | uuid
  /-- consecutive integers -/
  | sequential (start : Int64)
  /-- a text with placeholders -/
  | pattern (text : String)
  /-- random integers, both bounds included -/
  | integerRange (least greatest : Int64)
  /-- random doubles, both bounds included -/
  | doubleRange (least greatest : Binary64)
  /-- random instants between two dates or timestamps -/
  | timestampRange (first last : String)
  /-- truth values, true with a probability -/
  | weightedBool (weight : Binary64)
  /-- a random choice -/
  | oneOf (values : List Value)
  /-- always the same value -/
  | constant (value : Value)
  | null
deriving DecidableEq

end Reconcile
