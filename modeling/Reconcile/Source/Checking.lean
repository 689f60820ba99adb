import Reconcile.Grouped
import Reconcile.Source.Viewing

/-!
# Checking sources

An actual source is checked against an expected one: both are viewed in the order of the expected
source's key and compared group by group.  Afterwards both are closed, however the comparison
ended.
-/

namespace Reconcile

namespace Source

/-- How a check ends, and what it leaves behind. -/
structure Checked where
  result : Except Failure Report
  actual : Source
  expected : Source
  workspace : Workspace

/-- A view for a check.  A source of which nothing is known has no records. -/
def checkedView (s : Source) (c : Comparison) (w : Workspace) : Outcome Feed :=
  if s.isInitialized ∧ ¬ s.isMarkedEmpty then s.sortedViewWith c w else ⟨.ok [], s, w⟩

/-- Compares two sources, without closing them. -/
def compareWith (actual expected : Source) (w : Workspace) : Checked :=
  if expected.isInitialized then
    match expected.required with
    | .error e => ⟨.error e, actual, expected, w⟩
    | .ok c =>
        let wanted := expected.checkedView c w
        match wanted.result with
        | .error e => ⟨.error e, actual, wanted.source, wanted.workspace⟩
        | .ok wantedFeed =>
            let given := actual.checkedView c wanted.workspace
            ⟨given.result.bind (c.checkGrouped wantedFeed), given.source, wanted.source,
              given.workspace⟩
  else
    ⟨.error (.configuration "expected records are not initialized"), actual, expected, w⟩

/-- The first failure of three, else the result of the first. -/
def firstFailure {α : Type} (result : Except Failure α) (closed closed' : Except Failure Unit) :
    Except Failure α := do
  let a ← result
  closed
  closed'
  return a

/-- Checks an actual source against an expected one.  A problem in closing is told only if the
comparison itself succeeded. -/
def check (actual expected : Source) (w : Workspace) : Checked :=
  let c := compareWith actual expected w
  let (actualClosed, actual, w) := c.actual.close c.workspace
  let (expectedClosed, expected, w) := c.expected.close w
  ⟨firstFailure c.result actualClosed expectedClosed, actual, expected, w⟩

/-- Whether a check succeeds. -/
def equals (actual expected : Source) (w : Workspace) : Bool :=
  (check actual expected w).result.toBool

end Source

end Reconcile
