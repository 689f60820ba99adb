import Reconcile.Schema.Basic

/-!
# Keys

A key is a set of places in a record.  Records with the same values there belong to one group,
and records are sorted by these values, the value of an absent field being null.
-/

namespace Reconcile

structure Key where
  indices : List Nat
  increasing : indices.Pairwise (· < ·)

namespace Key

/-- Puts a place where it belongs among increasing places, unless it is there. -/
def insertIndex (index : Nat) : List Nat → List Nat
  | [] => [index]
  | first :: rest =>
      if index < first then index :: first :: rest
      else if index = first then first :: rest
      else first :: insertIndex index rest

theorem mem_insertIndex {index other : Nat} {indices : List Nat} :
    other ∈ insertIndex index indices ↔ other = index ∨ other ∈ indices := by
  induction indices with
  | nil => simp [insertIndex]
  | cons first rest ih =>
    unfold insertIndex
    split
    · simp
    · split
      · rename_i equal
        simp [equal]
      · simp only [List.mem_cons, ih]
        constructor <;> rintro (h | h | h) <;> simp [h]

theorem increasing_insertIndex {index : Nat} {indices : List Nat}
    (increasing : indices.Pairwise (· < ·)) : (insertIndex index indices).Pairwise (· < ·) := by
  induction indices with
  | nil => simp [insertIndex]
  | cons first rest ih =>
    rw [List.pairwise_cons] at increasing
    unfold insertIndex
    split
    · rename_i before
      refine List.pairwise_cons.mpr ⟨fun other member => ?_, List.pairwise_cons.mpr increasing⟩
      rcases List.mem_cons.mp member with rfl | member
      · exact before
      · exact Nat.lt_trans before (increasing.1 other member)
    · split
      · exact List.pairwise_cons.mpr increasing
      · refine List.pairwise_cons.mpr ⟨fun other member => ?_, ih increasing.2⟩
        rcases mem_insertIndex.mp member with rfl | member
        · omega
        · exact increasing.1 other member

theorem increasing_foldr (indices : List Nat) :
    (indices.foldr insertIndex []).Pairwise (· < ·) := by
  induction indices with
  | nil => exact List.Pairwise.nil
  | cons index indices ih => exact increasing_insertIndex ih

/-- The key over given places, in any order and with repetitions. -/
def ofIndices (indices : List Nat) : Key :=
  ⟨indices.foldr insertIndex [], increasing_foldr indices⟩

def ofSchema (s : Schema) : Key := ofIndices s.keyIndices

theorem mem_ofIndices {index : Nat} {indices : List Nat} :
    index ∈ (ofIndices indices).indices ↔ index ∈ indices := by
  unfold ofIndices
  induction indices with
  | nil => simp
  | cons first rest ih =>
    simp only [List.foldr_cons, mem_insertIndex, List.mem_cons] at ih ⊢
    rw [ih]

/-- The key without a place. -/
def remove (k : Key) (index : Nat) : Key :=
  ⟨k.indices.filter (· ≠ index), k.increasing.filter _⟩

def size (k : Key) : Nat := k.indices.length

/-- The values at the key's places. -/
def extract (k : Key) (r : Record) : List Value := k.indices.map r.valueAt

/-- Orders two records by the first place of the key at which they differ. -/
def compareAt (a b : Record) : List Nat → Ordering
  | [] => .eq
  | index :: rest => (compare (a.valueAt index) (b.valueAt index)).then (compareAt a b rest)

def compare (k : Key) (a b : Record) : Ordering := compareAt a b k.indices

/-- Whether a record has the values of a key.  Places for which there is no value do not count. -/
def belongs (k : Key) (r : Record) (values : List Value) : Bool :=
  (k.indices.zip values).all fun (index, value) => r.valueAt index = value

/-- Writes the key of a record over a row of values, as far as both reach. -/
def fill (k : Key) (r : Record) (row : List Value) : List Value :=
  k.extract (r) |>.take row.length |> fun values => values ++ row.drop values.length

/-- The text of a key in messages. -/
def display (values : List Value) : String :=
  "[" ++ ", ".intercalate (values.map Value.display) ++ "]"

end Key

end Reconcile
