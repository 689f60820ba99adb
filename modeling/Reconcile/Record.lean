import Reconcile.Value

/-!
# Records

A record is a row of values.  A field past the end of a record is absent, and for comparisons an
absent field is the same as a null one.
-/

namespace Reconcile

structure Record where
  fields : List Value
deriving DecidableEq

namespace Record

instance : Inhabited Record := ⟨⟨[]⟩⟩

def length (r : Record) : Nat := r.fields.length

def isEmpty (r : Record) : Bool := r.fields.isEmpty

def field? (r : Record) (index : Nat) : Option Value := r.fields[index]?

/-- The value of a field that is there and not null. -/
def present? (r : Record) (index : Nat) : Option Value :=
  (r.field? index).filter fun value => !value.isNull

/-- The value of a field, null if absent. -/
def valueAt (r : Record) (index : Nat) : Value := (r.field? index).getD .null

/-- Replaces a field, after filling up with nulls to reach it. -/
def set (r : Record) (index : Nat) (value : Value) : Record :=
  ⟨(r.fields ++ List.replicate (index + 1 - r.fields.length) Value.null).set index value⟩

def push (r : Record) (value : Value) : Record := ⟨r.fields ++ [value]⟩

/-- Records order as their values do, the first difference deciding; a proper beginning of a
record comes before it. -/
instance : Ord Record where
  compare a b := compare a.fields b.fields

def display (r : Record) : String :=
  "(" ++ ", ".intercalate (r.fields.map Value.display) ++ ")"

theorem present?_eq_valueAt (r : Record) (index : Nat) :
    (r.present? index).getD .null = r.valueAt index := by
  unfold present? valueAt
  cases r.field? index with
  | none => rfl
  | some value => cases value <;> rfl

end Record

end Reconcile
