import Mathlib.Data.List.Permutation
import Reconcile.Proofs.LeftOver
import Reconcile.Proofs.MutualCoverage
import Reconcile.Proofs.StableOrder

/-!
# Order of arrival

Groups are the same bags in whatever order their records come, and as many records of each are left
over.  So a check names the same key at the same position, or counts the same, for any order on
either side; only the records that a message shows depend on it.
-/

namespace Reconcile

/-- A failure without the records that it shows. -/
def Failure.withoutPreviews : Failure → Failure
  | noValueForKey key position _ _ => noValueForKey key position "" ""
  | valueMismatch position _ _ => valueMismatch position "" ""
  | unmatchedValues key position _ _ => unmatchedValues key position "" ""
  | moreElementsExpected key _ => moreElementsExpected key ""
  | lessElementsExpected key _ => lessElementsExpected key ""
  | failure => failure

namespace Comparison

/-- As many records are left over in whatever order they come. -/
structure IgnoresOrder (c : Comparison) : Prop where
  sameSize : ∀ {expected expected' actual actual' : List Record}, expected.Perm expected' →
    actual.Perm actual' → (c.residue expected actual).SameSize (c.residue expected' actual')

theorem ignoresOrder_of_isProvided {c : Comparison} (provided : c.matcher.IsProvided) :
    c.IgnoresOrder where
  sameSize expectedPerm actualPerm := provided.sameSize c.schema expectedPerm actualPerm

/-- Tolerances make a matcher that is provided, and so does having none. -/
theorem isProvided_withDeltas (s : Schema) (deltas : List Delta) :
    ((ofSchema s).withDeltas deltas).matcher.IsProvided := by
  by_cases tolerated : deltas = []
  · subst tolerated
    exact .exact s
  · obtain ⟨t, -, tolerant⟩ := matchesWithin_withDeltas (ofSchema s) tolerated
    rw [tolerant]
    exact .tolerant t

end Comparison

namespace Grouped

open Key

variable {c : Comparison} {expected expected' actual actual' : List Record}

/-! ## One group -/

/-- Which failure a residue makes only depends on the sides on which something is left over. -/
theorem residueFailure_withoutPreviews (c : Comparison) (key : String) (position : Nat)
    (r : Residue) :
    (residueFailure c key position r).map Failure.withoutPreviews =
      match r.expected.isEmpty, r.actual.isEmpty with
      | true, true => none
      | false, true => some (.moreElementsExpected (some key) "")
      | true, false => some (.lessElementsExpected (some key) "")
      | false, false => some (.unmatchedValues key position "" "") := by
  obtain ⟨wanted, given⟩ := r
  cases wanted with
  | nil => cases given <;> rfl
  | cons e wanted => cases given <;> rfl

theorem isEmpty_of_length_eq {records records' : List Record}
    (same : records.length = records'.length) : records.isEmpty = records'.isEmpty := by
  rw [Bool.eq_iff_iff, List.isEmpty_iff_length_eq_zero, List.isEmpty_iff_length_eq_zero, same]

theorem residueFailure_sameSize {r r' : Residue} (same : r.SameSize r') (key : String)
    (position : Nat) :
    (residueFailure c key position r).map Failure.withoutPreviews =
      (residueFailure c key position r').map Failure.withoutPreviews := by
  rw [residueFailure_withoutPreviews, residueFailure_withoutPreviews,
    isEmpty_of_length_eq same.expected, isEmpty_of_length_eq same.actual]

theorem hasStray_perm {k : Key} (actualPerm : actual.Perm actual')
    {previous : Option (List Value)} {values : List Value} :
    HasStray k actual previous values ↔ HasStray k actual' previous values := by
  simp only [HasStray, actualPerm.mem_iff]

theorem group_eq_nil_perm {k : Key} (actualPerm : actual.Perm actual') {values : List Value} :
    k.group values actual = [] ↔ k.group values actual' = [] := by
  have groups : (k.group values actual).Perm (k.group values actual') := actualPerm.filter _
  constructor
  · intro nothing
    exact List.nil_perm.mp (nothing ▸ groups)
  · intro nothing
    exact List.perm_nil.mp (nothing ▸ groups)

theorem groupFailure?_perm (ignores : c.IgnoresOrder) (expectedPerm : expected.Perm expected')
    (actualPerm : actual.Perm actual') (previous : Option (List Value)) (values : List Value) :
    (groupFailure? c expected actual previous values).map Failure.withoutPreviews =
      (groupFailure? c expected' actual' previous values).map Failure.withoutPreviews := by
  have missed_iff : HasStray c.key actual previous values ∨ c.key.group values actual = [] ↔
      HasStray c.key actual' previous values ∨ c.key.group values actual' = [] :=
    or_congr (hasStray_perm actualPerm) (group_eq_nil_perm actualPerm)
  have samePosition : position c.key values expected = position c.key values expected' :=
    expectedPerm.countP_eq _
  unfold groupFailure?
  by_cases missed : HasStray c.key actual previous values ∨ c.key.group values actual = []
  · rw [if_pos missed, if_pos (missed_iff.mp missed), missedFailure, missedFailure, samePosition]
    rfl
  · rw [if_neg missed, if_neg fun missed' => missed (missed_iff.mpr missed'), samePosition]
    exact residueFailure_sameSize
      (ignores.sameSize (expectedPerm.filter _) (actualPerm.filter _)) _ _

/-! ## All groups -/

theorem surplusFailure?_perm (actualPerm : actual.Perm actual')
    (previous : Option (List Value)) :
    (surplusFailure? c actual previous).map Failure.withoutPreviews =
      (surplusFailure? c actual' previous).map Failure.withoutPreviews := by
  have behind : (actual.filter (c.key.IsBehind previous)).Perm
      (actual'.filter (c.key.IsBehind previous)) := actualPerm.filter _
  unfold surplusFailure?
  cases left : actual.filter (c.key.IsBehind previous) with
  | nil =>
      rw [left] at behind
      rw [List.nil_perm.mp behind]
  | cons a rest =>
      cases left' : actual'.filter (c.key.IsBehind previous) with
      | nil =>
          rw [left, left'] at behind
          cases List.perm_nil.mp behind
      | cons a' rest' => rfl

/-- The first failure among the same groups is the same, but for the records that it shows. -/
theorem firstFailure?_perm (ignores : c.IgnoresOrder) (expectedPerm : expected.Perm expected')
    (actualPerm : actual.Perm actual') (previous : Option (List Value))
    (keys : List (List Value)) :
    (firstFailure? c expected actual previous keys).map Failure.withoutPreviews =
      (firstFailure? c expected' actual' previous keys).map Failure.withoutPreviews := by
  induction keys generalizing previous with
  | nil => exact surplusFailure?_perm actualPerm previous
  | cons values later ih =>
      rw [firstFailure?, firstFailure?, Option.map_or, Option.map_or, ih (some values),
        groupFailure?_perm ignores expectedPerm actualPerm]

/-- Sorted lists of the same records compare in the same way. -/
theorem checkGrouped_perm (ignores : c.IgnoresOrder) (expectedSorted : c.key.IsSorted expected)
    (actualSorted : c.key.IsSorted actual) (expectedSorted' : c.key.IsSorted expected')
    (actualSorted' : c.key.IsSorted actual') (expectedPerm : expected.Perm expected')
    (actualPerm : actual.Perm actual') :
    (c.checkGrouped (.ofRecords expected) (.ofRecords actual)).mapError Failure.withoutPreviews =
      (c.checkGrouped (.ofRecords expected') (.ofRecords actual')).mapError
        Failure.withoutPreviews := by
  obtain ⟨keys, increasing, complete⟩ := exists_keys expectedSorted
  have complete' (values : List Value) :
      values ∈ keys ↔ ∃ e ∈ expected', c.key.extract e = values := by
    simp only [complete, expectedPerm.mem_iff]
  have failures := firstFailure?_perm ignores expectedPerm actualPerm none keys
  rw [checkGrouped_eq c expectedSorted actualSorted increasing complete,
    checkGrouped_eq c expectedSorted' actualSorted' increasing complete',
    expectedPerm.length_eq, actualPerm.length_eq]
  cases first : firstFailure? c expected actual none keys with
  | none =>
      rw [first, Option.map_none, eq_comm, Option.map_eq_none_iff] at failures
      rw [failures]
  | some failure =>
      rw [first, Option.map_some, eq_comm, Option.map_eq_some_iff] at failures
      obtain ⟨failure', first', same⟩ := failures
      rw [first']
      exact congrArg Except.error same.symm

end Grouped

namespace Source

open Grouped

/-- Checks of the same records in memory by one comparison end in the same way, whatever the order
of the records on either side: both succeed and count the same, or both fail in the same way at the
same key and position. -/
theorem check_reordered (s : Schema) (deltas : List Comparison.Delta)
    {expected actual expected' actual' : Source} {wanted given wanted' given' : List Record}
    (wantedHeld : expected.HoldsInMemory wanted) (givenHeld : actual.HoldsInMemory given)
    (wantedHeld' : expected'.HoldsInMemory wanted') (givenHeld' : actual'.HoldsInMemory given')
    (configured : expected.comparison = some ((Comparison.ofSchema s).withDeltas deltas))
    (configured' : expected'.comparison = some ((Comparison.ofSchema s).withDeltas deltas))
    (nonempty : wanted ≠ []) (wantedPerm : wanted'.Perm wanted) (givenPerm : given'.Perm given)
    (w w' : Workspace) :
    (check actual' expected' w').result.mapError Failure.withoutPreviews =
      (check actual expected w).result.mapError Failure.withoutPreviews := by
  have ignores := Comparison.ignoresOrder_of_isProvided (Comparison.isProvided_withDeltas s deltas)
  generalize (Comparison.ofSchema s).withDeltas deltas = c at *
  have nonempty' : wanted' ≠ [] := fun nothing => nonempty (List.nil_perm.mp (nothing ▸ wantedPerm))
  rw [check_eq_checkGrouped wantedHeld' givenHeld' configured' nonempty' w',
    check_eq_checkGrouped wantedHeld givenHeld configured nonempty w]
  exact checkGrouped_perm ignores (c.isSorted_stable wanted') (c.isSorted_stable given')
    (c.isSorted_stable wanted) (c.isSorted_stable given)
    (Key.stable_perm_stable c.compare wantedPerm) (Key.stable_perm_stable c.compare givenPerm)

/-- Readings of `2` that match in part, in two orders. -/
theorem check_reordered_unmatched :
    let w := Workspace.ofFiles .empty (.ofName "spill")
    let c := (Comparison.ofSchema (.ofTypes "readings" [.int, .double])).withDeltas [.double .one]
    let wanted : List Record :=
      [⟨[.int 2, .double .zero]⟩, ⟨[.int 1, .double .one]⟩, ⟨[.int 2, .double .nan]⟩]
    let given : List Record :=
      [⟨[.int 2, .null]⟩, ⟨[.int 2, .double .one]⟩, ⟨[.int 1, .double .zero]⟩]
    wanted.reverse.Perm wanted ∧ given.reverse.Perm given ∧
      (check ((ofComparison c).addAll given.reverse) ((ofComparison c).addAll wanted.reverse)
        w).result.mapError Failure.withoutPreviews = .error (.unmatchedValues "[2]" 1 "" "") := by
  intro w c wanted given
  have reordered := check_reordered (.ofTypes "readings" [.int, .double]) [.double .one]
    (holdsInMemory_addAll c wanted) (holdsInMemory_addAll c given)
    (holdsInMemory_addAll c wanted.reverse) (holdsInMemory_addAll c given.reverse) rfl rfl
    (by simp [wanted]) wanted.reverse_perm given.reverse_perm w w
  refine ⟨wanted.reverse_perm, given.reverse_perm, reordered.trans ?_⟩
  have wantedSorted : Sorting.stable c.compare wanted =
      [⟨[.int 1, .double .one]⟩, ⟨[.int 2, .double .zero]⟩, ⟨[.int 2, .double .nan]⟩] := by
    rw [Sorting.stable_eq_insertionSort]
    decide
  have givenSorted : Sorting.stable c.compare given =
      [⟨[.int 1, .double .zero]⟩, ⟨[.int 2, .null]⟩, ⟨[.int 2, .double .one]⟩] := by
    rw [Sorting.stable_eq_insertionSort]
    decide
  rw [check_eq_checkGrouped (holdsInMemory_addAll c wanted) (holdsInMemory_addAll c given) rfl
    (by simp [wanted]) w, wantedSorted, givenSorted]
  decide +kernel

end Source

end Reconcile
