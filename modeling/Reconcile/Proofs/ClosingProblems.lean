import Mathlib.Control.Monad.Basic
import Reconcile.Proofs.ViewEffects

/-!
# Problems in closing

Each side of a check is closed as a whole, and tells of all its problems together.  Of the two sides
only the first that has any is heard: problems of the expected side are told just if the actual side
has none.
-/

namespace Reconcile

namespace HandleSet

theorem problems_append (handles opened : List Handle) :
    (mk (handles ++ opened)).problems = (mk handles).problems ++ (mk opened).problems :=
  List.flatMap_append

theorem append_problems_eq_nil_iff (first second : HandleSet) :
    first.problems ++ second.problems = [] ↔
      ∀ h ∈ first.handles ++ second.handles, h.problem = none := by
  rw [← problems_eq_nil_iff (s := mk (first.handles ++ second.handles)), problems_append]

end HandleSet

namespace Source

variable {actual expected s s' : Source} {w w' : Workspace}

/-- What the handle that a source opens next has to tell when it is closed. -/
def nextProblem (s : Source) : List String := (s.merger.problem s.merger.issued).toList

/-- A view opens one handle or none. -/
theorem Opens.problems_eq {opened : List Handle} (opens : s.Opens w opened w') :
    (HandleSet.mk opened).problems = [] ∨ (HandleSet.mk opened).problems = s.nextProblem := by
  match opened, opens.atMostOne, opens.problem with
  | [], _, _ => exact Or.inl rfl
  | [h], _, problem =>
      refine Or.inr ?_
      rw [nextProblem, ← problem h (List.mem_singleton_self h)]
      exact List.flatMap_singleton _ h

theorem LeftBy.problems_eq {known : Option Comparison} {opened : List Handle}
    (left : LeftBy known s opened s') (opens : s.Opens w opened w') :
    s'.handles.problems = s.handles.problems ∨
      s'.handles.problems = s.handles.problems ++ s.nextProblem := by
  have grown : s'.handles.problems = s.handles.problems ++ (HandleSet.mk opened).problems := by
    rw [← HandleSet.problems_append, ← left.handles_eq]
  rw [grown]
  rcases opens.problems_eq with none_ | next
  · exact Or.inl (by rw [none_, List.append_nil])
  · exact Or.inr (by rw [next])

/-- The problems of the second set are told just if the first has none. -/
theorem firstFailure_closing_eq {α : Type} (a : α) (first second : HandleSet) :
    firstFailure (.ok a) first.closing second.closing =
      let told := if first.problems = [] then second.problems else first.problems
      if told = [] then .ok a else .error (.close told) := by
  by_cases sound : first.problems = []
  · rw [HandleSet.closing_of_problems sound, if_pos sound]
    by_cases sound' : second.problems = []
    · rw [HandleSet.closing_of_problems sound', sound']
      rfl
    · rw [HandleSet.closing_of_problem sound']
      exact (if_neg sound').symm
  · rw [HandleSet.closing_of_problem sound, if_neg sound]
    exact (if_neg sound).symm

theorem firstFailure_eq_close_iff {α : Type} (a : α) (first second : HandleSet)
    (told : List String) :
    firstFailure (.ok a) first.closing second.closing = .error (.close told) ↔
      told ≠ [] ∧ told = if first.problems = [] then second.problems else first.problems := by
  rw [firstFailure_closing_eq]
  simp only
  generalize (if first.problems = [] then second.problems else first.problems) = all
  split
  · rename_i none_
    exact iff_of_false (by rintro ⟨⟩) fun ⟨some_, same⟩ => some_ (same.trans none_)
  · rename_i some_
    constructor
    · rintro ⟨⟩
      exact ⟨some_, rfl⟩
    · rintro ⟨-, rfl⟩
      rfl

theorem firstFailure_closing_eq_ok_iff {α : Type} (a : α) (first second : HandleSet) :
    firstFailure (.ok a) first.closing second.closing = .ok a ↔
      first.problems = [] ∧ second.problems = [] := by
  rw [firstFailure_closing_eq]
  by_cases sound : first.problems = []
  · simp [sound]
  · simp [sound]

/-- What one of two sides tells is all that they have to tell just if the other has nothing. -/
theorem perm_append_iff (first second : List String) :
    (first ++ second).Perm (if first = [] then second else first) ↔ first = [] ∨ second = [] := by
  by_cases none_ : first = []
  · simp [none_]
  · rw [if_neg none_]
    constructor
    · intro all
      -- a list has no room for its own elements and more
      have lengths := all.length_eq
      rw [List.length_append] at lengths
      exact Or.inr (List.length_eq_zero_iff.mp (by omega))
    · rintro (none' | rfl)
      · exact absurd none' none_
      · rw [List.append_nil]

/-- When the comparison has succeeded, each side has the problems of the handles that it held before
and of the one that it may have opened.  The check succeeds if there are none.  Otherwise it tells
all those of the actual side or, where that has none, all those of the expected side.  So none is
lost just if one of the sides has none. -/
theorem check_tells_problems {report : Report}
    (succeeded : (compareWith actual expected w).result = .ok report) :
    let compared := compareWith actual expected w
    let given := compared.actual.handles.problems
    let wanted := compared.expected.handles.problems
    let result := (check actual expected w).result
    (given = actual.handles.problems ∨ given = actual.handles.problems ++ actual.nextProblem) ∧
      (wanted = expected.handles.problems ∨
        wanted = expected.handles.problems ++ expected.nextProblem) ∧
      (result = .ok report ↔ given = [] ∧ wanted = []) ∧
      (∀ told, result = .error (.close told) ↔
        told ≠ [] ∧ told = if given = [] then wanted else given) ∧
      (given ++ wanted ≠ [] →
        ((∃ told, result = .error (.close told) ∧ (given ++ wanted).Perm told) ↔
          given = [] ∨ wanted = [])) := by
  obtain ⟨given, wanted, between, actualLeft, expectedLeft, expectedOpens, actualOpens⟩ :=
    compareWith_effect actual expected w
  intro compared given wanted result
  have ends : result = firstFailure (.ok report) compared.actual.handles.closing
      compared.expected.handles.closing := by
    rw [← succeeded]
    exact congrArg Checked.result (check_eq actual expected w)
  have tells (told : List String) : result = .error (.close told) ↔
      told ≠ [] ∧ told = if given = [] then wanted else given := by
    rw [ends]
    exact firstFailure_eq_close_iff report compared.actual.handles compared.expected.handles told
  refine ⟨actualLeft.problems_eq actualOpens, expectedLeft.problems_eq expectedOpens, ?_, tells,
    fun unsound => ?_⟩
  · rw [ends]
    exact firstFailure_closing_eq_ok_iff report compared.actual.handles compared.expected.handles
  · rw [← perm_append_iff]
    constructor
    · rintro ⟨told, failed, all⟩
      rwa [← ((tells told).mp failed).2]
    · intro all
      refine ⟨_, (tells _).mpr ⟨?_, rfl⟩, all⟩
      intro none_
      rw [none_] at all
      exact unsound all.eq_nil

/-- All problems of the expected side are told, those of handles that it held before included. -/
theorem check_tells_problems_expected :
    let c := Comparison.ofSchema (.ofTypes "numbers" [.int])
    let w := Workspace.ofFiles .empty (.ofName "spill")
    let actual := (ofComparison c).generate (.ofRecords "numbers" [⟨[.int 1]⟩])
    let expected := { actual.withMerger (.leaking "stuck") with
      handles := ⟨[⟨Sorted.inMemory, none, some "stuck before"⟩]⟩ }
    (∃ report, (compareWith actual expected w).result = .ok report) ∧
      (check actual expected w).result = .error (.close ["stuck before", "stuck"]) := by
  intro c w actual expected
  have succeeded : (compareWith actual expected w).result = .ok ⟨1, 1, 1, ⟨0⟩⟩ := by decide +kernel
  have given : (compareWith actual expected w).actual.handles.problems = [] := by decide +kernel
  have wanted : (compareWith actual expected w).expected.handles.problems =
      ["stuck before", "stuck"] := by decide +kernel
  obtain ⟨-, -, -, tells, -⟩ := check_tells_problems succeeded
  refine ⟨⟨_, succeeded⟩, (tells _).mpr ⟨List.cons_ne_nil _ _, ?_⟩⟩
  rw [given, if_pos rfl, wanted]

/-- With a problem on either side that of the expected side is lost. -/
theorem check_loses_problem :
    let c := Comparison.ofSchema (.ofTypes "numbers" [.int])
    let w := Workspace.ofFiles .empty (.ofName "spill")
    let stored := (ofComparison c).generate (.ofRecords "numbers" [⟨[.int 1]⟩])
    let actual := stored.withMerger (.leaking "actual is stuck")
    let expected := stored.withMerger (.leaking "expected is stuck")
    (compareWith actual expected w).result = .ok ⟨1, 1, 1, ⟨0⟩⟩ ∧
      (compareWith actual expected w).actual.handles.problems = ["actual is stuck"] ∧
      (compareWith actual expected w).expected.handles.problems = ["expected is stuck"] ∧
      (check actual expected w).result = .error (.close ["actual is stuck"]) :=
  ⟨by decide +kernel, by decide +kernel, by decide +kernel, by decide +kernel⟩

end Source

end Reconcile
