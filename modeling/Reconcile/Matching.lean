import Reconcile.Tolerance

/-!
# Matching

Records of one group are matched with each other, and what cannot be matched is left over.  An
exact matcher pairs equal records one to one; a tolerant one lets records match in any number.
Other rules can be given.
-/

namespace Reconcile

/-- Whether two records have the same values in the first fields, absent being the same as
null. -/
def Record.agree (count : Nat) (a b : Record) : Bool :=
  (List.range count).all fun index => a.present? index = b.present? index

/-- What is left over on both sides. -/
structure Residue where
  expected : List Record
  actual : List Record
deriving DecidableEq

def Residue.isEmpty (r : Residue) : Bool := r.expected.isEmpty && r.actual.isEmpty

inductive Matcher where
  | exact (equal : Record → Record → Bool)
  | tolerant (tolerances : Tolerances)
  /-- a rule of one's own for the groups of a schema -/
  | custom (rule : Schema → List Record → List Record → Residue)

namespace Matcher

/-- Pairs each actual record with the first expected one left that is equal to it. -/
def pairOff (equal : Record → Record → Bool) : List Record → List Record → Residue
  | expected, [] => ⟨expected, []⟩
  | expected, a :: actual =>
      if expected.any (equal a) then pairOff equal (expected.eraseP (equal a)) actual
      else
        let residue := pairOff equal expected actual
        { residue with actual := a :: residue.actual }

/-- Leaves the records on each side that are near none on the other. -/
def leaveFar (near : Record → Record → Bool) (expected actual : List Record) : Residue where
  expected := expected.filter fun e => !actual.any fun a => near e a
  actual := actual.filter fun a => !expected.any fun e => near e a

/-- What a matcher leaves over of one group. -/
def residue (m : Matcher) (s : Schema) (expected actual : List Record) : Residue :=
  match m with
  | exact equal => pairOff equal expected actual
  | tolerant tolerances => leaveFar (tolerances.isNear s) expected actual
  | custom rule => rule s expected actual

end Matcher

end Reconcile
