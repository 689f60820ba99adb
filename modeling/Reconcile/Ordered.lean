import Reconcile.Comparison
import Reconcile.Failure
import Reconcile.Preview

/-!
# Ordered comparison

Two feeds are compared record by record, in the order in which they come.
-/

namespace Reconcile

namespace Ordered

/-- The text of the records that are too many, the first of them already read. -/
def surplus (c : Comparison) (first : Record) (rest : Feed) : Except Failure String := do
  let others ← rest.upTo Preview.limit
  return Preview.message c.render (first :: others)

/-- Compares two feeds from a position on, and counts the records.  Of two failures at one
position the expected side's counts. -/
def check (c : Comparison) (position : Nat) : Feed → Feed → Except Failure Nat
  | .error e :: _, _ => .error e
  | _, .error e :: _ => .error e
  | [], [] => .ok position
  | .ok e :: expected, .ok a :: actual =>
      if c.equal e a then check c (position + 1) expected actual
      else .error (.valueMismatch position (c.render e) (c.render a))
  | .ok e :: expected, [] => do
      .error (.moreElementsExpected none (← surplus c e expected))
  | [], .ok a :: actual => do
      .error (.lessElementsExpected none (← surplus c a actual))

end Ordered

/-- Compares two feeds in order; gives the number of records. -/
def Comparison.checkOrdered (c : Comparison) (expected actual : Feed) : Except Failure Nat :=
  Ordered.check c 0 expected actual

end Reconcile
