import Reconcile.Proofs.AlikeSources
import Reconcile.Proofs.Contents
import Reconcile.Proofs.MemorySources

/-!
# Repeated checks

A check leaves both sources with the contents, the settings and the state they had, and with nothing
open.  Checked again they give the same result: what is in memory may have been sorted, but a stable
sort of what is sorted by the same key changes nothing.
-/

namespace Reconcile

namespace Source

open Failure (Renamed)

variable {s s' actual actual' expected expected' : Source} {w w' : Workspace}

/-- A check of alike sources that close in the same way gives the same, but for names. -/
theorem check_agree (checks : ChecksAlike actual actual' expected expected')
    (similar : w.Similar w') (closesActual : actual.ClosesAlike actual')
    (closesExpected : expected.ClosesAlike expected') :
    Agree (Renamed w.temp.name w'.temp.name) Eq (check actual expected w).result
      (check actual' expected' w').result := by
  obtain ⟨results, given, wanted⟩ := compareWith_agree Failure.likens_renamed similar checks
    (fun _ e _ => .same e) fun _ e _ => .same e
  rw [check_eq, check_eq]
  simp only [HandleSet.closing, (given closesActual).problems, (wanted closesExpected).problems]
  refine results.bind ?_
  rintro report _ - - rfl
  exact .refl fun e _ => .same e

/-- A source that holds what another one holds, has its settings and its state, and has nothing
open. -/
structure Restored (s s' : Source) : Prop where
  contents : ∀ files, s'.contents files = s.contents files
  comparison : s'.comparison = s.comparison
  budget : s'.budget = s.budget
  isInitialized : s'.isInitialized = s.isInitialized
  isInMemory : s'.isInMemory = s.isInMemory
  isMarkedEmpty : s'.isMarkedEmpty = s.isMarkedEmpty
  closed : s'.handles = .empty

theorem Rearranged.restored (kept : s.Rearranged s') (closed : s'.handles = .empty) :
    s.Restored s' where
  contents := kept.contents_eq
  comparison := kept.comparison
  budget := kept.budget
  isInitialized := kept.isInitialized_eq
  isInMemory := kept.isInMemory_eq
  isMarkedEmpty := kept.isMarkedEmpty_eq
  closed := closed

/-- All that a source has opened and will open closes well. -/
structure IsSound (s : Source) : Prop where
  problems : s.handles.problems = []
  merger : ∀ number, s.merger.problem number = none

/-! ## Checking again -/

/-- Closing after a comparison removes the directories of all views. -/
theorem directories_check {actual expected : Source} {number : Nat}
    (left : number ∈ (check actual expected w).workspace.temp.directories) :
    number ∈ w.temp.directories ∧ ∀ h ∈ actual.handles.handles ++ expected.handles.handles,
      h.directory ≠ some number := by
  obtain ⟨given, wanted, between, actualLeft, expectedLeft, expectedOpens, actualOpens⟩ :=
    compareWith_effect actual expected w
  rw [check_eq] at left
  simp only [actualLeft.handles_eq, expectedLeft.handles_eq, SpillRoot.mem_foldl_release,
    List.forall_mem_append] at left
  obtain ⟨made, ⟨actualKeep, givenKeep⟩, expectedKeep, wantedKeep⟩ := left
  have before : number ∈ w.temp.directories := by
    rcases actualOpens.directories number made with made' | ⟨h, member, own⟩
    · rcases expectedOpens.directories number made' with before | ⟨h, member, own⟩
      · exact before
      · exact absurd own (wantedKeep h member)
    · exact absurd own (givenKeep h member)
  exact ⟨before, List.forall_mem_append.mpr ⟨actualKeep, expectedKeep⟩⟩

/-- A check, however it ends, leaves both sources as they were, with nothing open and no spill
directory of theirs; and checked again, at whatever place with the same files, they give the same
result but for the name of that place. -/
theorem check_repeatable {actual expected : Source} (actualSound : actual.IsSound)
    (expectedSound : expected.IsSound) (w : Workspace) :
    let first := check actual expected w
    actual.Restored first.actual ∧ expected.Restored first.expected ∧
      first.workspace.files = w.files ∧
      (∀ number ∈ first.workspace.temp.directories, number ∈ w.temp.directories ∧
        ∀ h ∈ actual.handles.handles ++ expected.handles.handles, h.directory ≠ some number) ∧
      ∀ w', w.Similar w' → Agree (Renamed w.temp.name w'.temp.name) Eq first.result
        (check first.actual first.expected w').result := by
  obtain ⟨given, wanted, between, actualLeft, expectedLeft, -, -⟩ :=
    compareWith_effect actual expected w
  obtain ⟨actualKept, expectedKept⟩ := rearranged_check actual expected w
  intro first
  refine ⟨actualKept.restored rfl, expectedKept.restored rfl, (alike_check actual expected w).files,
    fun number => directories_check, fun w' similar => ?_⟩
  -- What the first check sorted, it sorted by the comparison of the second.
  have actualViews (c : Comparison) (configured : expected.comparison = some c) :
      ViewsAlike c actual first.actual := by
    refine ⟨?_, actualKept.budget⟩
    simp only [first, check_eq]
    exact actualLeft.sortedBy_eq configured
  have expectedViews (c : Comparison) (configured : expected.comparison = some c) :
      ViewsAlike c expected first.expected := by
    refine ⟨?_, expectedKept.budget⟩
    simp only [first, check_eq]
    exact expectedLeft.sortedBy_eq configured
  have checks : ChecksAlike actual first.actual expected first.expected :=
    ⟨expectedKept.comparison, expectedKept.isInitialized_eq, expectedViews, actualViews⟩
  refine check_agree checks similar ⟨actualSound.problems.symm, fun later => ?_⟩
    ⟨expectedSound.problems.symm, fun later => ?_⟩
  · simp only [first, check_eq, actualLeft.merger_problem, actualSound.merger]
  · simp only [first, check_eq, expectedLeft.merger_problem, expectedSound.merger]

/-- Records that are out of order are sorted by a check that fails, and fail in the same way after
that. -/
theorem check_repeatable_mismatch :
    let c := Comparison.ofSchema (.ofTypes "numbers" [.int])
    let w := Workspace.ofFiles .empty (.ofName "spill")
    let expected := (ofComparison c).addAll [⟨[.int 2]⟩, ⟨[.int 1]⟩]
    let actual := (ofComparison c).addAll [⟨[.int 3]⟩, ⟨[.int 1]⟩]
    let first := check actual expected w
    actual.IsSound ∧ expected.IsSound ∧
      first.expected.origin = .records [⟨[.int 1]⟩, ⟨[.int 2]⟩] ∧
      first.result = .error (.noValueForKey "[2]" 1 "(2)" "(3)") ∧
      (check first.actual first.expected first.workspace).result = first.result := by
  intro c w expected actual first
  have actualSound : actual.IsSound := ⟨rfl, fun _ => rfl⟩
  have expectedSound : expected.IsSound := ⟨rfl, fun _ => rfl⟩
  have alike := alike_check actual expected w
  obtain ⟨-, -, -, -, again⟩ := check_repeatable actualSound expectedSound w
  have same := again first.workspace alike.similar
  rw [alike.name] at same
  have wantedSorted : Sorting.stable c.compare [⟨[.int 2]⟩, ⟨[.int 1]⟩] =
      [⟨[.int 1]⟩, ⟨[.int 2]⟩] := by
    rw [Sorting.stable_eq_insertionSort]
    decide
  have givenSorted : Sorting.stable c.compare [⟨[.int 3]⟩, ⟨[.int 1]⟩] =
      [⟨[.int 1]⟩, ⟨[.int 3]⟩] := by
    rw [Sorting.stable_eq_insertionSort]
    decide
  have left : first.expected.origin = .records (Sorting.stable c.compare [⟨[.int 2]⟩, ⟨[.int 1]⟩]) :=
    rfl
  have failed : first.result = .error (.noValueForKey "[2]" 1 "(2)" "(3)") := by
    rw [show first.result = _ from check_eq_checkGrouped (holdsInMemory_addAll c _)
      (holdsInMemory_addAll c _) rfl (List.cons_ne_nil _ _) w, wantedSorted, givenSorted]
    decide +kernel
  rw [wantedSorted] at left
  exact ⟨actualSound, expectedSound, left, failed, same.eq⟩

end Source

end Reconcile
