import Reconcile.Binary64.Arithmetic
import Reconcile.Schema.Basic

/-!
# Tolerances

How far the values of a field may lie apart and still match.  A match has a distance, which is
never negative; values that do not match have none.
-/

namespace Reconcile

/-- A tolerance for numbers of one kind. -/
inductive Tolerance where
  | double (delta : Binary64)
  | integer (delta : UInt64)
deriving DecidableEq

namespace Tolerance

/-- The tolerance for doubles of a difference, whose sign does not count. -/
def ofDouble (delta : Binary64) : Tolerance := double delta.abs

/-- Whether the tolerance is meant for fields of a type. -/
def isApplicable : Tolerance → FieldType → Bool
  | double _, type => type == .double
  | integer _, type => type.isInteger

/-- The distance of values that have to be the same. -/
def exactDistance? (expected actual : Value) : Option Binary64 :=
  if expected = actual then some .zero else none

/-- The distance of two doubles.  Equal numbers match whatever the tolerance, and NaN matches
nothing but NaN. -/
def doubleDistance? (delta expected actual : Binary64) : Option Binary64 :=
  if expected.isNaN || actual.isNaN then
    if expected.isNaN && actual.isNaN then some .zero else none
  else if expected.sameNumber actual then some .zero
  else
    let difference := (expected - actual).abs
    if difference.le delta then some difference else none

/-- The distance of two values, none if they do not match.  Values that are not both numbers of
the tolerance's kind have to be the same; integers of both widths are of one kind. -/
def distance? (t : Tolerance) (expected actual : Value) : Option Binary64 :=
  match t with
  | double delta =>
      match expected, actual with
      | .double e, .double a => doubleDistance? delta e a
      | _, _ => exactDistance? expected actual
  | integer delta =>
      match expected.integer?, actual.integer? with
      | some e, some a =>
          let difference := (e - a).natAbs
          if difference ≤ delta.toNat then some (.ofNat difference) else none
      | _, _ => exactDistance? expected actual

/-- How a distance is reported: minus one where there is none. -/
def reported (distance : Option Binary64) : Binary64 := distance.getD Binary64.one.neg

end Tolerance

/-- Tolerances for the fields of a record: for the field at some place, or for all fields of the
types that they are meant for. -/
structure Tolerances where
  atPlace : List (Nat × Tolerance)
  general : List Tolerance
deriving DecidableEq

namespace Tolerances

def empty : Tolerances := ⟨[], []⟩

def addAt (t : Tolerances) (index : Nat) (tolerance : Tolerance) : Tolerances :=
  { t with atPlace := t.atPlace ++ [(index, tolerance)] }

def add (t : Tolerances) (tolerance : Tolerance) : Tolerances :=
  { t with general := t.general ++ [tolerance] }

/-- Whether there is a tolerance for the field at a place alone. -/
def coversPlace (t : Tolerances) (index : Nat) : Bool := t.atPlace.any fun (i, _) => i == index

/-- The tolerances for a field: those of its place, then those for its type. -/
def forField (t : Tolerances) (index : Nat) (type : FieldType) : List Tolerance :=
  (t.atPlace.filter fun (i, _) => i == index).map Prod.snd ++
    t.general.filter fun tolerance => tolerance.isApplicable type

/-- The distances under each of some tolerances, if the values match under all. -/
def distances? (tolerances : List Tolerance) (expected actual : Value) : Option (List Binary64) :=
  tolerances.mapM fun tolerance => tolerance.distance? expected actual

def sum (distances : List Binary64) : Binary64 := distances.foldl (· + ·) .zero

/-- The mean of the distances under all tolerances for a field; without any, the values have to
be the same. -/
def fieldDistance? (t : Tolerances) (index : Nat) (type : FieldType) (expected actual : Value) :
    Option Binary64 :=
  match t.forField index type with
  | [] => Tolerance.exactDistance? expected actual
  | tolerances =>
      (distances? tolerances expected actual).map fun distances =>
        sum distances / .ofNat distances.length

/-- The distance of two records: the sum over the fields of a schema, if all match. -/
def distance? (t : Tolerances) (s : Schema) (expected actual : Record) : Option Binary64 :=
  (s.fields.zipIdx.mapM fun ((field : Field), index) =>
    t.fieldDistance? index field.type (expected.valueAt index) (actual.valueAt index)).map sum

/-- Whether two records match: their reported distance is not negative. -/
def isNear (t : Tolerances) (s : Schema) (expected actual : Record) : Bool :=
  Binary64.zero.le (Tolerance.reported (t.distance? s expected actual))

end Tolerances

end Reconcile
