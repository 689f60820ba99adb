import Reconcile.Yaml.Document

/-!
# Reading values

A text as a value.  In a value the keys of a mapping differ; two keys are the same if they mean
the same, however they are spelled.
-/

namespace Reconcile

namespace Yaml

/-- Whether two scalars are the same; doubles compare as numbers, and NaN is the same as NaN. -/
def Scalar.same : Scalar → Scalar → Bool
  | double x, double y => (x.isNaN && y.isNaN) || x.sameNumber y
  | a, b => a = b

mutual

/-- Whether two values are the same.  The order of a mapping's members does not count. -/
def same : Yaml → Yaml → Bool
  | scalar a, scalar b => a.same b
  | sequence as, sequence bs => sameItems as bs
  | mapping as, mapping bs => as.length == bs.length && hasMembers as bs
  | tagged s a, tagged t b => s == t && same a b
  | _, _ => false

def sameItems : List Yaml → List Yaml → Bool
  | [], [] => true
  | a :: as, b :: bs => same a b && sameItems as bs
  | _, _ => false

/-- Whether each member is among the others. -/
def hasMembers : List (Yaml × Yaml) → List (Yaml × Yaml) → Bool
  | [], _ => true
  | (key, value) :: rest, others =>
      (others.any fun (otherKey, otherValue) => same key otherKey && same value otherValue) &&
        hasMembers rest others

end

def areDistinct : List Yaml → Bool
  | [] => true
  | key :: keys => !keys.any (same key) && areDistinct keys

mutual

/-- Whether the keys of every mapping differ. -/
def hasDistinctKeys : Yaml → Bool
  | scalar _ => true
  | sequence items => itemsHaveDistinctKeys items
  | mapping members => areDistinct (members.map Prod.fst) && membersHaveDistinctKeys members
  | tagged _ value => hasDistinctKeys value

def itemsHaveDistinctKeys : List Yaml → Bool
  | [] => true
  | item :: rest => hasDistinctKeys item && itemsHaveDistinctKeys rest

def membersHaveDistinctKeys : List (Yaml × Yaml) → Bool
  | [] => true
  | (key, value) :: rest =>
      hasDistinctKeys key && hasDistinctKeys value && membersHaveDistinctKeys rest

end

mutual

/-- Whether some part stands under a custom tag. -/
def hasTag : Yaml → Bool
  | scalar _ => false
  | sequence items => someItemHasTag items
  | mapping members => someMemberHasTag members
  | tagged _ _ => true

def someItemHasTag : List Yaml → Bool
  | [] => false
  | item :: rest => hasTag item || someItemHasTag rest

def someMemberHasTag : List (Yaml × Yaml) → Bool
  | [] => false
  | (key, value) :: rest => hasTag key || hasTag value || someMemberHasTag rest

end

/-- The value of a text; an empty text means null. -/
def ofText? (text : String) : Option Yaml := do
  match ← document? text.toList with
  | none => some (.scalar .null)
  | some d =>
      let (value, _) ← (d.value depthBound d.root).run 0
      if value.hasDistinctKeys then some value else none

end Yaml

end Reconcile
