import Reconcile.Proofs.Agreement
import Reconcile.Proofs.ViewEffects

/-!
# Alike sources

Sources that are the same once they are sorted, and whose handles close in the same way, give the
same views and checks in workspaces with the same files.
-/

namespace Reconcile

theorem HandleSet.problems_add (handles : HandleSet) (h : Handle) :
    (handles.add h).problems = handles.problems ++ h.problem.toList := by
  simp [add, problems]

/-- Origins that are the same once they are sorted are both in memory, or the same already. -/
theorem Origin.sortedBy_cases {c : Comparison} {o o' : Origin}
    (same : o'.sortedBy c = o.sortedBy c) :
    (∃ inMemory inMemory', o = .records inMemory ∧ o' = .records inMemory' ∧
        Sorting.stable c.compare inMemory' = Sorting.stable c.compare inMemory) ∨
      (o' = o ∧ ∀ inMemory, o ≠ .records inMemory) := by
  cases o' with
  | records inMemory' =>
      cases o with
      | records inMemory => exact Or.inl ⟨inMemory, inMemory', rfl, rfl, Origin.records.inj same⟩
      | _ => cases same
  | _ =>
      cases o with
      | records inMemory => cases same
      | _ => exact Or.inr ⟨same, by simp⟩

/-- Workspaces with the same files, in which the same runs are refused. -/
structure Workspace.Similar (w w' : Workspace) : Prop where
  files : w'.files = w.files
  refusal : w'.temp.refusal = w.temp.refusal

theorem Workspace.Alike.similar {w w' : Workspace} (alike : w.Alike w') : w.Similar w' :=
  ⟨alike.files, alike.refusal⟩

namespace Source

variable {s s' : Source} {c : Comparison} {w w' : Workspace} {alike : Failure → Failure → Prop}

/-- Sources that come to the same when they are viewed by a comparison. -/
structure ViewsAlike (c : Comparison) (s s' : Source) : Prop where
  origin : s'.origin.sortedBy c = s.origin.sortedBy c
  budget : s'.budget = s.budget

namespace ViewsAlike

theorem refl (c : Comparison) (s : Source) : ViewsAlike c s s := ⟨rfl, rfl⟩

theorem isInitialized_eq (views : ViewsAlike c s s') : s'.isInitialized = s.isInitialized := by
  rw [← (rearranged_viewed s c []).isInitialized_eq, ← (rearranged_viewed s' c []).isInitialized_eq]
  unfold isInitialized viewed
  rw [views.origin]

theorem isMarkedEmpty_eq (views : ViewsAlike c s s') : s'.isMarkedEmpty = s.isMarkedEmpty := by
  rw [← (rearranged_viewed s c []).isMarkedEmpty_eq, ← (rearranged_viewed s' c []).isMarkedEmpty_eq]
  unfold isMarkedEmpty viewed
  rw [views.origin]

end ViewsAlike

/-- Sources whose handles close in the same way, those at hand and those to come. -/
structure ClosesAlike (s s' : Source) : Prop where
  problems : s'.handles.problems = s.handles.problems
  merger : ∀ later, s'.merger.problem (s'.merger.issued + later) =
    s.merger.problem (s.merger.issued + later)

theorem ClosesAlike.refl (s : Source) : ClosesAlike s s := ⟨rfl, fun _ => rfl⟩

/-- Each failure to open what a source reads is alike itself. -/
def OpensAlike (alike : Failure → Failure → Prop) (files : Store) (s : Source) : Prop :=
  ∀ c e, s.openReaders c files = .error e → alike e e

/-- Views that give the same, after which sources that closed in the same way still do. -/
structure OutcomesAgree (alike : Failure → Failure → Prop) (s s' : Source)
    (view view' : Outcome Feed) : Prop where
  result : Agree alike (FeedsAgree alike) view.result view'.result
  closes : s.ClosesAlike s' → view.source.ClosesAlike view'.source

/-! ## Views -/

section Views

variable (likens : Failure.Likens alike w.temp.name w'.temp.name) (similar : w.Similar w')
  (views : ViewsAlike c s s')

include likens similar views

theorem sortReaders_agree (readers : List Reader) :
    OutcomesAgree alike s s' (s.sortReaders c readers w) (s'.sortReaders c readers w') := by
  have inputs := Input.feed_agree likens (Input.ofReaders readers) w.files
  have sorts := Sorting.sort_agree likens similar.refusal inputs c.serializer c.compare s.budget
  unfold sortReaders
  simp only [similar.files, views.budget]
  generalize Feed.sort c.compare s.budget w.temp ((Input.ofReaders readers).feed w.files)
    c.serializer = result, Feed.sort c.compare s.budget w'.temp
    ((Input.ofReaders readers).feed w.files) c.serializer = result' at sorts
  cases sorts with
  | error failures => exact ⟨.error failures, id⟩
  | @ok result result' values =>
      obtain ⟨sorted, temp⟩ := result
      obtain ⟨sorted', temp'⟩ := result'
      refine ⟨.ok values.records, fun closes => ⟨?_, ?_⟩⟩
      · have here : s'.merger.problem s'.merger.issued = s.merger.problem s.merger.issued :=
          closes.merger 0
        simp only [HandleSet.problems_add, closes.problems, here]
        cases s.merger.problem s.merger.issued with
        | none => rw [values.problem]
        | some problem => rfl
      · intro later
        simp only [Nat.add_assoc, closes.merger]

theorem sortedViewWith_agree (opens : s.OpensAlike alike w.files) :
    OutcomesAgree alike s s' (s.sortedViewWith c w) (s'.sortedViewWith c w') := by
  rcases Origin.sortedBy_cases views.origin with
    ⟨inMemory, inMemory', origin, origin', sorted⟩ | ⟨same, elsewhere⟩
  · unfold sortedViewWith
    rw [origin, origin']
    simp only [sorted]
    exact ⟨.ok (feedsAgree_ofRecords _), fun closes => ⟨closes.problems, closes.merger⟩⟩
  · have opened : s'.openReaders c w'.files = s.openReaders c w.files := by
      rw [openReaders, openReaders, same, similar.files]
    unfold sortedViewWith
    rw [same, opened]
    split
    · rename_i inMemory origin
      exact absurd origin (elsewhere inMemory)
    · split
      · rename_i e failed
        exact ⟨.error (opens c e failed), id⟩
      · exact ⟨.ok .nil, id⟩
      · exact sortReaders_agree likens similar views _

theorem checkedView_agree (opens : s.OpensAlike alike w.files) :
    OutcomesAgree alike s s' (s.checkedView c w) (s'.checkedView c w') := by
  unfold checkedView
  rw [views.isInitialized_eq, views.isMarkedEmpty_eq]
  split
  · exact sortedViewWith_agree likens similar views opens
  · exact ⟨.ok .nil, id⟩

end Views

/-! ## Checks -/

variable {actual actual' expected expected' : Source}

/-- Two pairs of sources that come to the same for a check. -/
structure ChecksAlike (actual actual' expected expected' : Source) : Prop where
  comparison : expected'.comparison = expected.comparison
  isInitialized : expected'.isInitialized = expected.isInitialized
  wanted : ∀ c, expected.comparison = some c → ViewsAlike c expected expected'
  given : ∀ c, expected.comparison = some c → ViewsAlike c actual actual'

theorem ChecksAlike.refl (actual expected : Source) :
    ChecksAlike actual actual expected expected where
  comparison := rfl
  isInitialized := rfl
  wanted c _ := .refl c expected
  given c _ := .refl c actual

section Checks

variable (likens : Failure.Likens alike w.temp.name w'.temp.name) (similar : w.Similar w')
  (checks : ChecksAlike actual actual' expected expected')
  (opensActual : actual.OpensAlike alike w.files)
  (opensExpected : expected.OpensAlike alike w.files)

include likens similar checks opensActual opensExpected

theorem compareWith_agree :
    let first := compareWith actual expected w
    let second := compareWith actual' expected' w'
    Agree alike Eq first.result second.result ∧
      (actual.ClosesAlike actual' → first.actual.ClosesAlike second.actual) ∧
      (expected.ClosesAlike expected' → first.expected.ClosesAlike second.expected) := by
  unfold compareWith required
  rw [checks.isInitialized, checks.comparison]
  split
  · cases configured : expected.comparison with
    | none => exact ⟨.error (likens.configuration _), id, id⟩
    | some c =>
        obtain ⟨opened, -, opens⟩ := checkedView_effect expected c w
        obtain ⟨opened', -, opens'⟩ := checkedView_effect expected' c w'
        have wanted := checkedView_agree likens similar (checks.wanted c configured) opensExpected
        -- The expected view leaves workspaces as similar as they were for the actual one.
        have similarBehind : (expected.checkedView c w).workspace.Similar
            (expected'.checkedView c w').workspace :=
          ⟨opens'.alike.files.trans (similar.files.trans opens.alike.files.symm),
            opens'.alike.refusal.trans (similar.refusal.trans opens.alike.refusal.symm)⟩
        have likensBehind : Failure.Likens alike (expected.checkedView c w).workspace.temp.name
            (expected'.checkedView c w').workspace.temp.name := by
          rw [opens.alike.name, opens'.alike.name]
          exact likens
        have given := checkedView_agree likensBehind similarBehind (checks.given c configured)
          (opens.alike.files ▸ opensActual)
        have results := wanted.result
        simp only
        generalize (expected.checkedView c w).result = feed,
          (expected'.checkedView c w').result = feed' at results
        cases results with
        | error failures => exact ⟨.error failures, id, wanted.closes⟩
        | ok wantedFeeds =>
            refine ⟨given.result.bind fun _ _ _ _ givenFeeds => ?_, given.closes, wanted.closes⟩
            exact c.checkGrouped_agree likens.mismatch wantedFeeds givenFeeds
  · exact ⟨.error (likens.configuration _), id, id⟩

end Checks

end Source

end Reconcile
