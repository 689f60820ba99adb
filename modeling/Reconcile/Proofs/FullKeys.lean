import Mathlib.Data.List.Permutation
import Reconcile.Proofs.BagEquality
import Reconcile.Proofs.OrderedFeeds
import Reconcile.Proofs.StableOrder

/-!
# Keys of all fields

Where every field of a schema belongs to the key, the key of a record is its row, and sorting by it
brings equal bags of rows into equal orders.  Then comparing sorted records group by group and
comparing them in order succeed for the same records.
-/

namespace Reconcile

namespace Schema

/-- All fields belong to the key. -/
def IsFullyKeyed (s : Schema) : Prop := ∀ f ∈ s.fields, f.isKey = true

instance : DecidablePred IsFullyKeyed := fun _ => inferInstanceAs (Decidable (∀ _ ∈ _, _))

end Schema

namespace Key

variable {s : Schema}

theorem mem_indices_ofSchema (keyed : s.IsFullyKeyed) {index : Nat} :
    index ∈ (ofSchema s).indices ↔ index < s.length := by
  refine ⟨lt_length_of_mem_ofSchema, fun inside => ?_⟩
  have isKey : s.fields[index].isKey = true := keyed _ (List.getElem_mem inside)
  exact mem_ofIndices.mpr
    (Schema.mem_keyIndices_iff.mpr ⟨_, List.getElem?_eq_getElem inside, isKey⟩)

/-- The key is in all places of a row. -/
theorem indices_ofSchema (keyed : s.IsFullyKeyed) :
    (ofSchema s).indices = List.range s.length :=
  (ofSchema s).increasing.eq_of_mem_iff List.pairwise_lt_range fun index => by
    rw [mem_indices_ofSchema keyed, List.mem_range]

theorem extract_ofSchema (keyed : s.IsFullyKeyed) (r : Record) :
    (ofSchema s).extract r = r.row s.length := by
  rw [extract, indices_ofSchema keyed]
  rfl

/-- Sorted records with the same bag of rows have the same rows in the same order. -/
theorem IsSorted.rows_eq (keyed : s.IsFullyKeyed) {wanted given : List Record}
    (wantedSorted : (ofSchema s).IsSorted wanted) (givenSorted : (ofSchema s).IsSorted given)
    (bags : (wanted.map fun r => r.row s.length).Perm (given.map fun r => r.row s.length)) :
    (wanted.map fun r => r.row s.length) = given.map fun r => r.row s.length := by
  have inOrder {records : List Record} (sorted : (ofSchema s).IsSorted records) :
      (records.map fun r => r.row s.length).Pairwise fun a b => (Ord.compare a b).isLE := by
    rw [List.pairwise_map]
    refine List.Pairwise.imp (fun {a b} ordered => ?_) sorted
    rwa [compare_eq, extract_ofSchema keyed, extract_ofSchema keyed] at ordered
  refine bags.eq_of_pairwise (fun a b _ _ before behind => ?_) (inOrder wantedSorted)
    (inOrder givenSorted)
  exact Std.LawfulEqOrd.eq_of_compare (Std.OrientedCmp.isLE_antisymm before behind)

end Key

namespace Comparison

open Grouped

/-- Records are equal one by one exactly if they have the same rows in the same order. -/
theorem paired_ofSchema_iff {s : Schema} {wanted given : List Record} :
    Ordered.Paired (ofSchema s) wanted given ↔
      (wanted.map fun r => r.row s.length) = given.map fun r => r.row s.length := by
  simp only [Ordered.Paired, ofSchema, Record.agree_iff]
  rw [← List.forall₂_eq_eq_eq (α := List Value), List.forall₂_map_left_iff,
    List.forall₂_map_right_iff]

/-- Where all fields belong to the key, sorted records pass group by group exactly if they are
equal one by one. -/
theorem passes_iff_paired {s : Schema} (keyed : s.IsFullyKeyed) {wanted given : List Record}
    (wantedSorted : (ofSchema s).key.IsSorted wanted)
    (givenSorted : (ofSchema s).key.IsSorted given) :
    Passes (ofSchema s) wanted given ↔ Ordered.Paired (ofSchema s) wanted given := by
  have key (r : Record) : (ofSchema s).key.extract r = id (r.row s.length) :=
    Key.extract_ofSchema keyed r
  rw [passes_iff_perm (f := fun r => r.row s.length) rfl (fun _ _ => Record.agree_iff) key
    wantedSorted givenSorted, paired_ofSchema_iff]
  exact ⟨Key.IsSorted.rows_eq keyed wantedSorted givenSorted, fun same => same ▸ .refl _⟩

/-- Where all fields of a schema belong to the key, comparing sorted records group by group succeeds
exactly if comparing them in order does, and both count the same records. -/
theorem checkGrouped_iff_checkOrdered (s : Schema) (keyed : ∀ f ∈ s.fields, f.isKey = true)
    (expected actual : List Record) :
    let c := ofSchema s
    let wanted := Feed.ofRecords (Sorting.stable c.compare expected)
    let given := Feed.ofRecords (Sorting.stable c.compare actual)
    ((∃ report, c.checkGrouped wanted given = .ok report) ↔
      ∃ n, c.checkOrdered wanted given = .ok n) ∧
    ∀ report n, c.checkGrouped wanted given = .ok report → c.checkOrdered wanted given = .ok n →
      n = report.expected ∧ n = report.actual := by
  intro c wanted given
  have wantedSorted := c.isSorted_stable expected
  have givenSorted := c.isSorted_stable actual
  have passes_iff := passes_iff_paired keyed wantedSorted givenSorted
  have counts_iff (n : Nat) : c.checkOrdered wanted given = .ok n ↔ _ :=
    Ordered.checkOrdered_ofRecords_eq_ok_iff
  rcases checkGrouped_verdict c wantedSorted givenSorted with
    ⟨passes, counted⟩ | ⟨fails, failure, failed, -⟩
  · have pairs := passes_iff.mp passes
    rw [counted]
    refine ⟨iff_of_true ⟨_, rfl⟩ ⟨_, (counts_iff _).mpr ⟨pairs, rfl⟩⟩, ?_⟩
    rintro report n ⟨⟩ inOrder
    obtain ⟨-, rfl⟩ := (counts_iff n).mp inOrder
    exact ⟨rfl, pairs.length_eq⟩
  · rw [failed]
    refine ⟨iff_of_false ?_ ?_, ?_⟩
    · rintro ⟨report, ⟨⟩⟩
    · rintro ⟨n, inOrder⟩
      exact fails (passes_iff.mpr ((counts_iff n).mp inOrder).1)
    · rintro report n ⟨⟩

/-- Rows of which some lack a field that is null in others, with a repeated one on either side. -/
theorem checkGrouped_iff_checkOrdered_pairs :
    let s := Schema.ofTypes "pairs" [.int, .text]
    let c := ofSchema s
    let expected : List Record :=
      [⟨[.int 2, .text "b"]⟩, ⟨[.int 1]⟩, ⟨[.int 2, .null]⟩, ⟨[.int 1, .null]⟩]
    let actual : List Record :=
      [⟨[.int 1, .null, .bool true]⟩, ⟨[.int 2]⟩, ⟨[.int 1]⟩, ⟨[.int 2, .text "b"]⟩]
    (∀ f ∈ s.fields, f.isKey = true) ∧
      ∃ report, c.checkGrouped (.ofRecords (Sorting.stable c.compare expected))
          (.ofRecords (Sorting.stable c.compare actual)) = .ok report ∧
        report.expected = 4 ∧ report.actual = 4 := by
  intro s c expected actual
  have keyed : s.IsFullyKeyed := by decide
  obtain ⟨decided, counts⟩ := checkGrouped_iff_checkOrdered s keyed expected actual
  have wantedSorted : Sorting.stable c.compare expected =
      [⟨[.int 1]⟩, ⟨[.int 1, .null]⟩, ⟨[.int 2, .null]⟩, ⟨[.int 2, .text "b"]⟩] := by
    rw [Sorting.stable_eq_insertionSort]
    decide
  have givenSorted : Sorting.stable c.compare actual =
      [⟨[.int 1, .null, .bool true]⟩, ⟨[.int 1]⟩, ⟨[.int 2]⟩, ⟨[.int 2, .text "b"]⟩] := by
    rw [Sorting.stable_eq_insertionSort]
    decide
  have inOrder : c.checkOrdered (.ofRecords (Sorting.stable c.compare expected))
      (.ofRecords (Sorting.stable c.compare actual)) = .ok 4 := by
    rw [wantedSorted, givenSorted]
    rfl
  obtain ⟨report, passed⟩ := decided.mpr ⟨4, inOrder⟩
  obtain ⟨wanted, given⟩ := counts report 4 passed inOrder
  exact ⟨keyed, report, passed, wanted.symm, given.symm⟩

end Comparison

end Reconcile
