import Reconcile.Key
import Reconcile.Matching
import Reconcile.Serializer

/-!
# Comparisons

How records of one schema are compared: the key that groups and sorts them, when two of them are
equal, how a group is matched, how records are shown and how they are kept in files.
-/

namespace Reconcile

structure Comparison where
  schema : Schema
  key : Key
  equal : Record → Record → Bool
  matcher : Matcher
  render : Record → String
  serializer : Serializer
  /-- the tolerances that the matcher was made from, if it was -/
  tolerances : Option Tolerances

namespace Comparison

/-- The exact comparison of a schema, in all its fields and by its key. -/
def ofSchema (s : Schema) : Comparison where
  schema := s
  key := .ofSchema s
  equal := Record.agree s.length
  matcher := .exact (Record.agree s.length)
  render := Record.display
  serializer := .jsonLines
  tolerances := none

/-- Orders two records by their keys. -/
def compare (c : Comparison) (a b : Record) : Ordering := c.key.compare a b

/-- What is left over of one group. -/
def residue (c : Comparison) (expected actual : List Record) : Residue :=
  c.matcher.residue c.schema expected actual

def withKey (c : Comparison) (key : Key) : Comparison := { c with key := key }

/-- Replaces equality, and the matcher with it unless that was made from tolerances. -/
def withEquality (c : Comparison) (equal : Record → Record → Bool) : Comparison :=
  { c with
    equal := equal
    matcher := if c.tolerances.isSome then c.matcher else .exact equal }

/-- Replaces the matcher; earlier tolerances are forgotten. -/
def withMatcher (c : Comparison) (matcher : Matcher) : Comparison :=
  { c with matcher := matcher, tolerances := none }

def withRender (c : Comparison) (render : Record → String) : Comparison :=
  { c with render := render }

def withSerializer (c : Comparison) (serializer : Serializer) : Comparison :=
  { c with serializer := serializer }

/-- The places of the fields that a tolerance is meant for. -/
def applicablePlaces (s : Schema) (tolerance : Tolerance) : List Nat :=
  s.fields.zipIdx.filterMap fun (field, index) =>
    if tolerance.isApplicable field.type then some index else none

/-- Adds a tolerance for all fields that it is meant for.  These leave the key, and the matcher
becomes a tolerant one. -/
def withTolerance (c : Comparison) (tolerance : Tolerance) : Comparison :=
  let places := applicablePlaces c.schema tolerance
  let tolerances := places.foldl (fun t index => t.addAt index tolerance)
    (c.tolerances.getD Tolerances.empty)
  { c with
    key := places.foldl Key.remove c.key
    matcher := .tolerant tolerances
    tolerances := some tolerances }

def withDoubleDelta (c : Comparison) (delta : Binary64) : Comparison :=
  c.withTolerance (.ofDouble delta)

def withIntegerDelta (c : Comparison) (delta : UInt64) : Comparison :=
  c.withTolerance (.integer delta)

end Comparison

end Reconcile
