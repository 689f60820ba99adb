import Reconcile.Proofs.Verdict
import Reconcile.Proofs.ViewEffects

/-!
# Sources in memory

A check of records in memory against others comes down to grouped comparison of the sorted lists,
as long as nothing goes wrong in closing.
-/

namespace Reconcile

namespace Comparison

open Grouped

theorem isSorted_stable (c : Comparison) (records : List Record) :
    c.key.IsSorted (Sorting.stable c.compare records) :=
  Key.isSorted_stable records

/-- Whether records in memory pass a comparison. -/
def Accepts (c : Comparison) (wanted given : List Record) : Prop :=
  ∃ report, c.checkGrouped (.ofRecords (Sorting.stable c.compare wanted))
    (.ofRecords (Sorting.stable c.compare given)) = .ok report

theorem accepts_iff_passes {c : Comparison} {wanted given : List Record} :
    c.Accepts wanted given ↔
      Passes c (Sorting.stable c.compare wanted) (Sorting.stable c.compare given) := by
  rcases checkGrouped_verdict c (c.isSorted_stable wanted) (c.isSorted_stable given) with
    ⟨passes, counted⟩ | ⟨fails, failure, found, -⟩
  · exact iff_of_true ⟨_, counted⟩ passes
  · refine iff_of_false ?_ fails
    rintro ⟨report, counted⟩
    cases counted.symm.trans found

end Comparison

namespace Source

open Grouped

/-- The records of a source are in memory, and none of its handles closes badly. -/
structure HoldsInMemory (s : Source) (records : List Record) : Prop where
  origin : s.origin = .records records
  quiet : ∀ h ∈ s.handles.handles, h.problem = none

theorem holdsInMemory_addAll (c : Comparison) (records : List Record) :
    ((ofComparison c).addAll records).HoldsInMemory records :=
  ⟨rfl, by simp [addAll, ofComparison, new, HandleSet.empty]⟩

theorem close_of_quiet {s : Source} (quiet : ∀ h ∈ s.handles.handles, h.problem = none)
    (w : Workspace) : (s.close w).1 = .ok () := by
  rw [close_eq]
  exact HandleSet.closing_of_problems (HandleSet.problems_eq_nil_iff.mpr quiet)

/-- A view of records in memory for a check: they are sorted, and nothing is opened. -/
theorem exists_checkedView_of_origin {s : Source} {records : List Record}
    (origin : s.origin = .records records) (c : Comparison) (w : Workspace) :
    ∃ sorted, s.checkedView c w =
        ⟨.ok (.ofRecords (Sorting.stable c.compare records)), sorted, w⟩ ∧
      sorted.handles = s.handles := by
  unfold checkedView
  cases records with
  | nil =>
      have unknown : s.isInitialized = false := by simp [isInitialized, origin]
      rw [unknown, if_neg (by simp), Sorting.stable, List.mergeSort_nil]
      exact ⟨s, rfl, rfl⟩
  | cons r rest =>
      have known : s.isInitialized = true := by simp [isInitialized, origin]
      have unmarked : s.isMarkedEmpty = false := by simp [isMarkedEmpty, origin]
      rw [known, unmarked, if_pos (by simp), sortedViewWith]
      simp only [origin]
      exact ⟨_, rfl, rfl⟩

theorem HoldsInMemory.exists_checkedView {s : Source} {records : List Record}
    (holds : s.HoldsInMemory records) (c : Comparison) (w : Workspace) :
    ∃ sorted, s.checkedView c w =
        ⟨.ok (.ofRecords (Sorting.stable c.compare records)), sorted, w⟩ ∧
      sorted.handles = s.handles :=
  exists_checkedView_of_origin holds.origin c w

/-- Checking records in memory is grouped comparison of the sorted records. -/
theorem check_eq_checkGrouped {expected actual : Source} {wanted given : List Record}
    {c : Comparison} (wantedHeld : expected.HoldsInMemory wanted)
    (givenHeld : actual.HoldsInMemory given) (configured : expected.comparison = some c)
    (nonempty : wanted ≠ []) (w : Workspace) :
    (check actual expected w).result =
      c.checkGrouped (.ofRecords (Sorting.stable c.compare wanted))
        (.ofRecords (Sorting.stable c.compare given)) := by
  have known : expected.isInitialized = true := by
    simp [isInitialized, wantedHeld.origin, nonempty]
  obtain ⟨expected', wantedView, expectedHandles⟩ := wantedHeld.exists_checkedView c w
  obtain ⟨actual', givenView, actualHandles⟩ := givenHeld.exists_checkedView c w
  have compared : compareWith actual expected w =
      ⟨c.checkGrouped (.ofRecords (Sorting.stable c.compare wanted))
        (.ofRecords (Sorting.stable c.compare given)), actual', expected', w⟩ := by
    simp only [compareWith, known, if_true, required, configured, wantedView, givenView]
    rfl
  have actualCloses := close_of_quiet (actualHandles ▸ givenHeld.quiet) w
  have expectedCloses := close_of_quiet (expectedHandles ▸ wantedHeld.quiet)
    (actual'.close w).2.2
  simp only [check, compared, actualCloses, expectedCloses]
  cases c.checkGrouped (.ofRecords (Sorting.stable c.compare wanted))
    (.ofRecords (Sorting.stable c.compare given)) <;> rfl

/-- Without an expected record in memory nothing is compared. -/
theorem check_of_nil {expected actual : Source} (wantedHeld : expected.HoldsInMemory [])
    (w : Workspace) :
    (check actual expected w).result =
      .error (.configuration "expected records are not initialized") := by
  have unknown : expected.isInitialized = false := by simp [isInitialized, wantedHeld.origin]
  simp only [check, compareWith, unknown]
  rfl

/-- A check of records in memory succeeds just if there are expected ones and they pass. -/
theorem exists_report_iff_accepts {expected actual : Source} {wanted given : List Record}
    {c : Comparison} (wantedHeld : expected.HoldsInMemory wanted)
    (givenHeld : actual.HoldsInMemory given) (configured : expected.comparison = some c)
    (w : Workspace) :
    (∃ report, (check actual expected w).result = .ok report) ↔
      wanted ≠ [] ∧ c.Accepts wanted given := by
  by_cases empty : wanted = []
  · subst empty
    rw [check_of_nil wantedHeld w]
    refine iff_of_false ?_ fun both => both.1 rfl
    rintro ⟨report, ⟨⟩⟩
  · rw [check_eq_checkGrouped wantedHeld givenHeld configured empty w]
    exact (and_iff_right empty).symm

/-- A check of records in memory either passes their groups and counts the records and the keys, or
finds records that differ. -/
theorem check_verdict {expected actual : Source} {wanted given : List Record}
    {c : Comparison} (wantedHeld : expected.HoldsInMemory wanted)
    (givenHeld : actual.HoldsInMemory given) (configured : expected.comparison = some c)
    (nonempty : wanted ≠ []) (w : Workspace) :
    (Passes c (Sorting.stable c.compare wanted) (Sorting.stable c.compare given) ∧
        (check actual expected w).result =
          .ok ⟨(wanted.map c.key.extract).toFinset.card, wanted.length, given.length, ⟨0⟩⟩) ∨
      (¬ Passes c (Sorting.stable c.compare wanted) (Sorting.stable c.compare given) ∧
        ∃ failure, (check actual expected w).result = .error failure ∧
          failure.isMismatch = true) := by
  have wantedPerm := Key.stable_perm c.compare wanted
  have givenPerm := Key.stable_perm c.compare given
  have keys := List.toFinset_eq_of_perm _ _ (wantedPerm.map c.key.extract)
  have verdict := checkGrouped_verdict c (c.isSorted_stable wanted) (c.isSorted_stable given)
  rw [check_eq_checkGrouped wantedHeld givenHeld configured nonempty w, ← keys,
    ← wantedPerm.length_eq, ← givenPerm.length_eq]
  exact verdict

end Source

end Reconcile
