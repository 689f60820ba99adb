import Reconcile.Proofs.AlikeSources
import Reconcile.Proofs.ClosingProblems
import Reconcile.Proofs.ListPasses

/-!
# Closed handles

A check closes each handle of both sources once, those that it opened included.  Problems in closing
are told only if the comparison succeeded, and what is closed stays closed.
-/

namespace Reconcile

/-- The same failure, which is not one of closing. -/
structure Failure.Unclosed (e e' : Failure) : Prop where
  same : e' = e
  unclosed : ∀ problems, e ≠ .close problems

theorem Failure.likens_unclosed (name : String) : Likens Unclosed name name where
  configuration _ := ⟨rfl, by rintro _ ⟨⟩⟩
  access _ _ := ⟨rfl, by rintro _ ⟨⟩⟩
  run _ _ := ⟨rfl, by rintro _ ⟨⟩⟩
  mismatch e mismatch := by
    refine ⟨rfl, ?_⟩
    rintro problems rfl
    cases mismatch

namespace Source

variable {s actual expected : Source} {w : Workspace} {files : Store}

/-! ## Failures of comparing -/

/-- The files of a source, if it has any, are opened by a format that does not fail as closing
does. -/
def OpensPlainly (s : Source) : Prop :=
  ∀ path format, s.origin = .files path format →
    ∀ c files own problems, format c files own ≠ .error (.close problems)

theorem opensPlainly_of_openFile
    (plain : ∀ path format, s.origin = .files path format → format = openFile) :
    s.OpensPlainly := by
  intro path format origin c files own problems
  rw [plain path format origin, openFile]
  cases files.find own with
  | ok entry => rintro ⟨⟩
  | error fault => rintro ⟨⟩

theorem OpensPlainly.opensAlike (plain : s.OpensPlainly) (files : Store) :
    s.OpensAlike Failure.Unclosed files := by
  intro c e failed
  refine ⟨rfl, ?_⟩
  rintro problems rfl
  unfold openReaders at failed
  split at failed
  · rename_i path format origin
    obtain ⟨own, -, same⟩ := exists_of_mapM_eq_error failed
    exact plain path format origin c files own problems same
  · cases failed
  · cases failed

/-- A comparison does not fail as closing does. -/
theorem compareWith_ne_close (plainActual : actual.OpensPlainly)
    (plainExpected : expected.OpensPlainly) (w : Workspace) (problems : List String) :
    (compareWith actual expected w).result ≠ .error (.close problems) := by
  intro failed
  obtain ⟨results, -, -⟩ := compareWith_agree (Failure.likens_unclosed w.temp.name) ⟨rfl, rfl⟩
    (.refl actual expected) (plainActual.opensAlike w.files) (plainExpected.opensAlike w.files)
  rw [failed] at results
  cases results with
  | error failures => exact failures.unclosed problems rfl

/-! ## Closing -/

theorem close_of_empty (closed : s.handles = .empty) (w : Workspace) :
    s.close w = (.ok (), s, w) := by
  obtain ⟨origin, comparison, handles, budget, merger⟩ := s
  subst closed
  rw [Source.close_eq]
  simp only [HandleSet.empty, List.foldl_nil, List.append_nil]
  rfl

theorem drop_of_empty (closed : s.handles = .empty) (w : Workspace) : s.drop w = w := by
  unfold drop
  rw [close_of_empty closed w]
  simp only [closed]
  rfl

/-- Closing two sets goes well just if all of their handles close well. -/
theorem firstFailure_ok_cases {α : Type} (a : α) (first second : HandleSet) :
    (firstFailure (.ok a) first.closing second.closing = .ok a ∧
        ∀ h ∈ first.handles ++ second.handles, h.problem = none) ∨
      (∃ problems, firstFailure (.ok a) first.closing second.closing = .error (.close problems)) ∧
        ∃ h ∈ first.handles ++ second.handles, h.problem ≠ none := by
  have sound_iff := HandleSet.append_problems_eq_nil_iff first second
  by_cases sound : first.problems ++ second.problems = []
  · have none_ := List.append_eq_nil_iff.mp sound
    exact Or.inl ⟨(firstFailure_closing_eq_ok_iff a first second).mpr none_, sound_iff.mp sound⟩
  · refine Or.inr ⟨⟨_, (firstFailure_eq_close_iff a first second _).mpr ⟨?_, rfl⟩⟩, ?_⟩
    · split
      · rename_i none_
        rwa [none_] at sound
      · assumption
    · by_contra none_
      push Not at none_
      exact sound (sound_iff.mpr none_)

/-- When a check has ended, each handle of either source has been closed once, those that were
handed out for the comparison included, and no later closing or giving up closes one again.  A
failure of the comparison is told whatever closing did; a problem in closing is told just if the
comparison succeeded and some handle did not close well. -/
theorem check_closes_once (actual expected : Source) (w : Workspace) :
    let compared := compareWith actual expected w
    let after := check actual expected w
    let handles := compared.actual.handles.handles ++ compared.expected.handles.handles
    (∃ given wanted, compared.actual.handles.handles = actual.handles.handles ++ given ∧
        compared.actual.merger.issued = actual.merger.issued + given.length ∧
        compared.expected.handles.handles = expected.handles.handles ++ wanted ∧
        compared.expected.merger.issued = expected.merger.issued + wanted.length) ∧
      after.workspace.closed = w.closed ++ handles ∧
      (∀ w', after.actual.close w' = (.ok (), after.actual, w') ∧ after.actual.drop w' = w') ∧
      (∀ w', after.expected.close w' = (.ok (), after.expected, w') ∧
        after.expected.drop w' = w') ∧
      (∀ e, compared.result = .error e → after.result = .error e) ∧
      (∀ report, compared.result = .ok report → (∀ h ∈ handles, h.problem = none) →
        after.result = .ok report) ∧
      (actual.OpensPlainly → expected.OpensPlainly →
        ((∃ problems, after.result = .error (.close problems)) ↔
          (∃ report, compared.result = .ok report) ∧ ∃ h ∈ handles, h.problem ≠ none)) := by
  obtain ⟨given, wanted, between, actualLeft, expectedLeft, expectedOpens, actualOpens⟩ :=
    compareWith_effect actual expected w
  have closed : (compareWith actual expected w).workspace.closed = w.closed :=
    actualOpens.closed.trans expectedOpens.closed
  intro compared after handles
  have result : after.result = firstFailure compared.result compared.actual.handles.closing
      compared.expected.handles.closing := by rw [show after = _ from check_eq actual expected w]
  refine ⟨⟨given, wanted, actualLeft.handles_eq, actualLeft.issued_eq, expectedLeft.handles_eq,
    expectedLeft.issued_eq⟩, ?_, ?_, ?_, ?_, ?_, ?_⟩
  · rw [show after = _ from check_eq actual expected w]
    simp only [closed, List.append_assoc]
    rfl
  · intro w'
    exact ⟨close_of_empty rfl w', drop_of_empty rfl w'⟩
  · intro w'
    exact ⟨close_of_empty rfl w', drop_of_empty rfl w'⟩
  · intro e failed
    rw [result, failed]
    rfl
  · intro report succeeded sound
    rw [result, succeeded]
    rcases firstFailure_ok_cases report compared.actual.handles compared.expected.handles with
      ⟨passed, -⟩ | ⟨-, h, member, problem⟩
    · exact passed
    · exact absurd (sound h member) problem
  · intro plainActual plainExpected
    rw [result]
    cases outcome : compared.result with
    | error e =>
        have unclosed := compareWith_ne_close plainActual plainExpected w
        constructor
        · rintro ⟨problems, told⟩
          cases told
          exact absurd outcome (unclosed problems)
        · rintro ⟨⟨report, ⟨⟩⟩, -⟩
    | ok report =>
        rcases firstFailure_ok_cases report compared.actual.handles compared.expected.handles with
          ⟨passed, sound⟩ | ⟨told, unsound⟩
        · rw [passed]
          constructor
          · rintro ⟨problems, ⟨⟩⟩
          · rintro ⟨-, h, member, problem⟩
            exact absurd (sound h member) problem
        · exact iff_of_true told ⟨⟨report, rfl⟩, unsound⟩

/-- A handle that does not close well is told of after equal records, and not after others. -/
theorem check_closes_once_leaking :
    let c := Comparison.ofSchema (.ofTypes "numbers" [.int])
    let w := Workspace.ofFiles .empty (.ofName "spill")
    let actual := ((ofComparison c).generate (.ofRecords "numbers" [⟨[.int 1]⟩])).withMerger
      (.leaking "stuck")
    let equal := (ofComparison c).addAll [⟨[.int 1]⟩]
    let other := (ofComparison c).addAll [⟨[.int 2]⟩]
    actual.OpensPlainly ∧ equal.OpensPlainly ∧
      (∃ problems, (check actual equal w).result = .error (.close problems)) ∧
      (check actual other w).result = .error (.noValueForKey "[2]" 0 "(2)" "(1)") := by
  intro c w actual equal other
  have plainActual : actual.OpensPlainly := opensPlainly_of_openFile (by rintro _ _ ⟨⟩)
  have plainEqual : equal.OpensPlainly := opensPlainly_of_openFile (by rintro _ _ ⟨⟩)
  have equalCompared : (compareWith actual equal w).result = .ok ⟨1, 1, 1, ⟨0⟩⟩ := by decide +kernel
  have otherCompared : (compareWith actual other w).result =
      .error (.noValueForKey "[2]" 0 "(2)" "(1)") := by decide +kernel
  let stuck : Handle := ⟨Sorted.inMemory, none, some "stuck"⟩
  have handles : (compareWith actual equal w).actual.handles.handles = [stuck] := by decide +kernel
  refine ⟨plainActual, plainEqual, ?_, ?_⟩
  · obtain ⟨-, -, -, -, -, -, told⟩ := check_closes_once actual equal w
    refine (told plainActual plainEqual).mpr ⟨⟨_, equalCompared⟩, stuck, ?_, Option.some_ne_none _⟩
    rw [handles]
    exact List.mem_cons_self
  · obtain ⟨-, -, -, -, kept, -, -⟩ := check_closes_once actual other w
    exact kept _ otherCompared

end Source

end Reconcile
