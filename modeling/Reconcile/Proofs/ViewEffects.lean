import Reconcile.Proofs.KeyOrder
import Reconcile.Source.Checking

/-!
# Effects of views

A view sorts what is in memory, opens at most one handle, and may make a spill directory for it;
everything else about the source and the workspace stays as it was.  A check views both sources and
closes them.
-/

namespace Reconcile

/-! ## Handles -/

namespace HandleSet

/-- What goes wrong when the handles of a set are closed. -/
def problems (s : HandleSet) : List String := s.handles.flatMap fun h => h.problem.toList

theorem closeEach_eq (closed : List Handle) (problems : List String) (handles : List Handle) :
    closeEach closed problems handles =
      (closed ++ handles, problems ++ handles.flatMap fun h => h.problem.toList) := by
  induction handles generalizing closed problems with
  | nil => simp [closeEach]
  | cons h rest ih => simp [closeEach, ih]

/-- How closing a set ends. -/
def closing (s : HandleSet) : Except Failure Unit :=
  if s.problems.isEmpty then .ok () else .error (.close s.problems)

theorem close_eq (s : HandleSet) (closed : List Handle) :
    s.close closed = (s.closing, empty, closed ++ s.handles) := by
  simp [close, closeEach_eq, closing, problems]

theorem problems_eq_nil_iff {s : HandleSet} :
    s.problems = [] ↔ ∀ h ∈ s.handles, h.problem = none := by
  simp [problems, List.flatMap_eq_nil_iff]

theorem closing_of_problems {s : HandleSet} (sound : s.problems = []) : s.closing = .ok () := by
  rw [closing, sound]
  rfl

theorem closing_of_problem {s : HandleSet} (unsound : s.problems ≠ []) :
    s.closing = .error (.close s.problems) := by
  rw [closing, List.isEmpty_eq_false_iff.mpr unsound]
  rfl

end HandleSet

namespace SpillRoot

variable {root : SpillRoot}

@[simp] theorem release_name (h : Handle) : (root.release h).name = root.name := by
  unfold release
  split <;> rfl

@[simp] theorem release_refusal (h : Handle) : (root.release h).refusal = root.refusal := by
  unfold release
  split <;> rfl

theorem mem_release {h : Handle} {number : Nat} :
    number ∈ (root.release h).directories ↔
      number ∈ root.directories ∧ h.directory ≠ some number := by
  unfold release
  cases h.directory with
  | none => simp
  | some other =>
      simp only [List.mem_filter, decide_eq_true_eq, ne_eq, Option.some.injEq]
      exact and_congr_right fun _ => not_congr eq_comm

@[simp] theorem foldl_release_name (handles : List Handle) :
    (handles.foldl release root).name = root.name := by
  induction handles generalizing root with
  | nil => rfl
  | cons h handles ih => rw [List.foldl_cons, ih, release_name]

@[simp] theorem foldl_release_refusal (handles : List Handle) :
    (handles.foldl release root).refusal = root.refusal := by
  induction handles generalizing root with
  | nil => rfl
  | cons h handles ih => rw [List.foldl_cons, ih, release_refusal]

/-- Just the directories of the handles are removed. -/
theorem mem_foldl_release {handles : List Handle} {number : Nat} :
    number ∈ (handles.foldl release root).directories ↔
      number ∈ root.directories ∧ ∀ h ∈ handles, h.directory ≠ some number := by
  induction handles generalizing root with
  | nil => simp
  | cons h handles ih =>
      rw [List.foldl_cons, ih, mem_release, List.forall_mem_cons, and_assoc]

end SpillRoot

/-- Workspaces with the same files, in which spill directories are made in the same way. -/
structure Workspace.Alike (w w' : Workspace) : Prop where
  files : w'.files = w.files
  name : w'.temp.name = w.temp.name
  refusal : w'.temp.refusal = w.temp.refusal

theorem Workspace.Alike.refl (w : Workspace) : w.Alike w := ⟨rfl, rfl, rfl⟩

theorem Workspace.Alike.trans {w w' w'' : Workspace} (first : w.Alike w') (second : w'.Alike w'') :
    w.Alike w'' :=
  ⟨second.files.trans first.files, second.name.trans first.name,
    second.refusal.trans first.refusal⟩

/-! ## Origins -/

namespace Origin

/-- Records in memory are sorted by a key; what lies elsewhere stays as it is. -/
def sortedBy (c : Comparison) : Origin → Origin
  | .records inMemory => .records (Sorting.stable c.compare inMemory)
  | elsewhere => elsewhere

/-- The same origin, but for the order of records in memory. -/
inductive Rearranged : Origin → Origin → Prop where
  | same (o : Origin) : Rearranged o o
  | records {before after : List Record} (perm : after.Perm before) :
      Rearranged (.records before) (.records after)

theorem Rearranged.trans {o o' o'' : Origin} (first : o.Rearranged o')
    (second : o'.Rearranged o'') : o.Rearranged o'' := by
  cases first with
  | same => exact second
  | records perm =>
      cases second with
      | same => exact .records perm
      | records perm' => exact .records (perm'.trans perm)

theorem rearranged_sortedBy (c : Comparison) (o : Origin) : o.Rearranged (o.sortedBy c) := by
  cases o with
  | records inMemory => exact .records (Key.stable_perm c.compare inMemory)
  | _ => exact .same _

/-- Sorted records stay as they are. -/
@[simp] theorem sortedBy_sortedBy (c : Comparison) (o : Origin) :
    (o.sortedBy c).sortedBy c = o.sortedBy c := by
  cases o with
  | records inMemory =>
      have sorted : c.key.IsSorted (Sorting.stable c.compare inMemory) :=
        Key.isSorted_stable inMemory
      exact congrArg Origin.records (List.mergeSort_of_pairwise sorted)
  | _ => rfl

end Origin

namespace Source

variable {s s' s'' : Source} {c : Comparison} {w w' : Workspace}

/-- The same source, but for the order of records in memory, for its handles and its merger. -/
structure Rearranged (s s' : Source) : Prop where
  origin : s.origin.Rearranged s'.origin
  comparison : s'.comparison = s.comparison
  budget : s'.budget = s.budget

namespace Rearranged

theorem refl (s : Source) : s.Rearranged s := ⟨.same _, rfl, rfl⟩

theorem trans (first : s.Rearranged s') (second : s'.Rearranged s'') : s.Rearranged s'' :=
  ⟨first.origin.trans second.origin, second.comparison.trans first.comparison,
    second.budget.trans first.budget⟩

theorem isInitialized_eq (kept : s.Rearranged s') : s'.isInitialized = s.isInitialized := by
  have origins := kept.origin
  unfold isInitialized
  generalize s.origin = o, s'.origin = o' at origins
  cases origins with
  | same => rfl
  | records perm => simp only [perm.isEmpty_eq]

theorem isInMemory_eq (kept : s.Rearranged s') : s'.isInMemory = s.isInMemory := by
  have origins := kept.origin
  unfold isInMemory
  generalize s.origin = o, s'.origin = o' at origins
  cases origins with
  | same => rfl
  | records perm => simp only [perm.isEmpty_eq]

theorem isMarkedEmpty_eq (kept : s.Rearranged s') : s'.isMarkedEmpty = s.isMarkedEmpty := by
  have origins := kept.origin
  unfold isMarkedEmpty
  generalize s.origin = o, s'.origin = o' at origins
  cases origins with
  | same => rfl
  | records => rfl

end Rearranged

/-! ## Views -/

/-- A source after a view: what is in memory is sorted, and some handles were handed out. -/
def viewed (s : Source) (c : Comparison) (opened : List Handle) : Source :=
  { s with
    origin := s.origin.sortedBy c
    handles := ⟨s.handles.handles ++ opened⟩
    merger := { s.merger with issued := s.merger.issued + opened.length } }

theorem rearranged_viewed (s : Source) (c : Comparison) (opened : List Handle) :
    s.Rearranged (s.viewed c opened) :=
  ⟨s.origin.rearranged_sortedBy c, rfl, rfl⟩

theorem viewed_nil (unsorted : s.origin.sortedBy c = s.origin) : s.viewed c [] = s := by
  obtain ⟨origin, comparison, handles, budget, merger⟩ := s
  simp only [viewed, List.append_nil, List.length_nil, Nat.add_zero] at unsorted ⊢
  rw [unsorted]

/-- What a source has opened in a workspace, and what became of the workspace. -/
structure Opens (s : Source) (w : Workspace) (opened : List Handle) (w' : Workspace) : Prop where
  atMostOne : opened.length ≤ 1
  problem : ∀ h ∈ opened, h.problem = s.merger.problem s.merger.issued
  alike : w.Alike w'
  closed : w'.closed = w.closed
  directories : ∀ number ∈ w'.temp.directories,
    number ∈ w.temp.directories ∨ ∃ h ∈ opened, h.directory = some number

theorem opens_nothing (s : Source) (w : Workspace) : s.Opens w [] w where
  atMostOne := Nat.zero_le 1
  problem _ member := absurd member List.not_mem_nil
  alike := .refl w
  closed := rfl
  directories _ member := Or.inl member

end Source

/-- Sorting makes a spill directory only for the handle that it gives, and that closes well. -/
theorem Feed.sort_effect {order : Sorting.Order} {budget : Nat} {root root' : SpillRoot}
    {input : Feed} {serializer : Serializer} {sorted : Sorted}
    (done : Feed.sort order budget root input serializer = .ok (sorted, root')) :
    sorted.handle.problem = none ∧ root'.name = root.name ∧ root'.refusal = root.refusal ∧
      ∀ number ∈ root'.directories,
        number ∈ root.directories ∨ sorted.handle.directory = some number := by
  unfold Feed.sort at done
  obtain ⟨⟨runs, left⟩, -, done⟩ := exists_of_bind_eq_ok done
  simp only at done
  split at done
  · cases done
    exact ⟨rfl, rfl, rfl, fun _ member => Or.inl member⟩
  · obtain ⟨closed, -, done⟩ := exists_of_bind_eq_ok done
    obtain ⟨merged, -, done⟩ := exists_of_bind_eq_ok done
    cases done
    refine ⟨rfl, rfl, rfl, fun number member => ?_⟩
    rcases List.mem_cons.mp member with rfl | before
    · exact Or.inr rfl
    · exact Or.inl before

namespace Source

variable {s s' : Source} {w w' : Workspace}

theorem sortReaders_effect (s : Source) (c : Comparison) (readers : List Reader) (w : Workspace) :
    ∃ opened, (s.sortReaders c readers w).source = { s with
        handles := ⟨s.handles.handles ++ opened⟩
        merger := { s.merger with issued := s.merger.issued + opened.length } } ∧
      s.Opens w opened (s.sortReaders c readers w).workspace := by
  unfold sortReaders
  simp only
  cases done : Feed.sort c.compare s.budget w.temp ((Input.ofReaders readers).feed w.files)
      c.serializer with
  | error e => exact ⟨[], by simp, opens_nothing s w⟩
  | ok result =>
      obtain ⟨sorted, temp⟩ := result
      obtain ⟨sound, name, refusal, made⟩ := Feed.sort_effect done
      have opens {handle : Handle} (problem : handle.problem = s.merger.problem s.merger.issued)
          (directory : handle.directory = sorted.handle.directory) :
          s.Opens w [handle] { w with temp := temp } := by
        refine ⟨Nat.le_refl 1, ?_, ⟨rfl, name, refusal⟩, rfl, ?_⟩
        · intro h member
          rw [List.mem_singleton.mp member, problem]
        · intro number member
          rcases made number member with before | own
          · exact Or.inl before
          · exact Or.inr ⟨handle, List.mem_singleton_self handle, directory.trans own⟩
      cases told : s.merger.problem s.merger.issued with
      | none => exact ⟨[sorted.handle], rfl, opens (sound.trans told.symm) rfl⟩
      | some problem =>
          exact ⟨[{ sorted.handle with problem := some problem }], rfl, opens told.symm rfl⟩

/-- A view sorts what is in memory, or opens a handle for what lies elsewhere. -/
theorem sortedViewWith_effect (s : Source) (c : Comparison) (w : Workspace) :
    ∃ opened, (s.sortedViewWith c w).source = s.viewed c opened ∧
      s.Opens w opened (s.sortedViewWith c w).workspace := by
  unfold sortedViewWith
  split
  · rename_i records origin
    refine ⟨[], ?_, opens_nothing s w⟩
    simp [viewed, origin, Origin.sortedBy]
  · rename_i elsewhere
    have unsorted : s.origin.sortedBy c = s.origin := by
      cases origin : s.origin with
      | records records => exact absurd origin (elsewhere records)
      | _ => rfl
    split
    · exact ⟨[], (viewed_nil unsorted).symm, opens_nothing s w⟩
    · exact ⟨[], (viewed_nil unsorted).symm, opens_nothing s w⟩
    · obtain ⟨opened, after, opens⟩ := sortReaders_effect s c _ w
      refine ⟨opened, ?_, opens⟩
      rw [after, viewed, unsorted]

/-- A source of which nothing is known, or which is said to be empty, is not sorted. -/
theorem checkedView_effect (s : Source) (c : Comparison) (w : Workspace) :
    ∃ opened, (s.checkedView c w).source = s.viewed c opened ∧
      s.Opens w opened (s.checkedView c w).workspace := by
  unfold checkedView
  split
  · exact sortedViewWith_effect s c w
  · rename_i unknown
    have unsorted : s.origin.sortedBy c = s.origin := by
      cases origin : s.origin with
      | records records =>
          have none_ : records = [] := by
            simpa [isInitialized, isMarkedEmpty, origin] using unknown
          rw [none_, Origin.sortedBy, Sorting.stable, List.mergeSort_nil]
      | _ => rfl
    exact ⟨[], (viewed_nil unsorted).symm, opens_nothing s w⟩

/-! ## Uses of views -/

theorem rearranged_sortedViewWith (s : Source) (c : Comparison) (w : Workspace) :
    s.Rearranged (s.sortedViewWith c w).source := by
  obtain ⟨opened, after, -⟩ := sortedViewWith_effect s c w
  rw [after]
  exact rearranged_viewed s c opened

theorem rearranged_sortedView (s : Source) (w : Workspace) :
    s.Rearranged (s.sortedView w).source := by
  unfold sortedView
  split
  · split
    · exact rearranged_sortedViewWith s _ w
    · exact .refl s
  · exact .refl s

theorem alike_sortedView (s : Source) (w : Workspace) : w.Alike (s.sortedView w).workspace := by
  unfold sortedView
  split
  · split
    · rename_i c _
      obtain ⟨opened, -, opens⟩ := sortedViewWith_effect s c w
      exact opens.alike
    · exact .refl w
  · exact .refl w

theorem rearranged_preview (s : Source) (w : Workspace) : s.Rearranged (s.preview w).source := by
  have view := rearranged_sortedView s w
  unfold preview Outcome.andThen
  split
  · exact .refl s
  · split <;> exact view

theorem rearranged_save (s : Source) (path : String) (w : Workspace) :
    s.Rearranged (s.save path w).source := by
  unfold save Outcome.andThen
  split
  · exact .refl s
  · split
    · exact .refl s
    · rename_i files _
      have view := rearranged_sortedView s { w with files := files }
      split
      · simp only
        split <;> exact view
      · exact view

/-- What a check leaves of a source: it was not touched, or viewed by a given comparison. -/
inductive LeftBy (given : Option Comparison) (s : Source) : List Handle → Source → Prop where
  | untouched : LeftBy given s [] s
  | viewed {c : Comparison} (known : given = some c) (opened : List Handle) :
      LeftBy given s opened (s.viewed c opened)

namespace LeftBy

variable {given : Option Comparison} {opened : List Handle}

theorem rearranged (left : LeftBy given s opened s') : s.Rearranged s' := by
  cases left with
  | untouched => exact .refl s
  | viewed => exact rearranged_viewed s _ opened

theorem handles_eq (left : LeftBy given s opened s') :
    s'.handles.handles = s.handles.handles ++ opened := by
  cases left with
  | untouched => rw [List.append_nil]
  | viewed => rfl

theorem issued_eq (left : LeftBy given s opened s') :
    s'.merger.issued = s.merger.issued + opened.length := by
  cases left with
  | untouched => rfl
  | viewed => rfl

/-- A further view by the same comparison finds the same order. -/
theorem sortedBy_eq {c : Comparison} (left : LeftBy given s opened s') (known : given = some c) :
    s'.origin.sortedBy c = s.origin.sortedBy c := by
  cases left with
  | untouched => rfl
  | viewed known' =>
      obtain rfl := Option.some.inj (known'.symm.trans known)
      exact s.origin.sortedBy_sortedBy _

theorem merger_problem (left : LeftBy given s opened s') :
    s'.merger.problem = s.merger.problem := by
  cases left <;> rfl

end LeftBy

/-- The expected source is viewed first, then the actual one, unless something stands in the
way. -/
theorem compareWith_effect (actual expected : Source) (w : Workspace) :
    ∃ given wanted between,
      LeftBy expected.comparison actual given (compareWith actual expected w).actual ∧
      LeftBy expected.comparison expected wanted (compareWith actual expected w).expected ∧
      expected.Opens w wanted between ∧
      actual.Opens between given (compareWith actual expected w).workspace := by
  unfold compareWith
  split
  · cases configured : expected.comparison with
    | none =>
        rw [required, configured]
        exact ⟨[], [], w, .untouched, .untouched, opens_nothing expected w, opens_nothing actual w⟩
    | some c =>
        rw [required, configured]
        obtain ⟨wanted, wantedSource, wantedOpens⟩ := checkedView_effect expected c w
        simp only
        split
        · refine ⟨[], wanted, _, .untouched, ?_, wantedOpens, opens_nothing actual _⟩
          rw [wantedSource]
          exact .viewed rfl wanted
        · obtain ⟨given, givenSource, givenOpens⟩ :=
            checkedView_effect actual c (expected.checkedView c w).workspace
          refine ⟨given, wanted, _, ?_, ?_, wantedOpens, givenOpens⟩
          · rw [givenSource]
            exact .viewed rfl given
          · rw [wantedSource]
            exact .viewed rfl wanted
  · exact ⟨[], [], w, .untouched, .untouched, opens_nothing expected w, opens_nothing actual w⟩

theorem close_eq (s : Source) (w : Workspace) :
    s.close w = (s.handles.closing, { s with handles := .empty }, { w with
      temp := s.handles.handles.foldl SpillRoot.release w.temp
      closed := w.closed ++ s.handles.handles }) := by
  rw [close, Workspace.close, HandleSet.close_eq]

/-- A check compares, and then closes both sources. -/
theorem check_eq (actual expected : Source) (w : Workspace) :
    let compared := compareWith actual expected w
    check actual expected w =
      ⟨firstFailure compared.result compared.actual.handles.closing
          compared.expected.handles.closing,
        { compared.actual with handles := .empty }, { compared.expected with handles := .empty },
        { compared.workspace with
          temp := (compared.actual.handles.handles ++ compared.expected.handles.handles).foldl
            SpillRoot.release compared.workspace.temp
          closed := compared.workspace.closed ++ compared.actual.handles.handles ++
            compared.expected.handles.handles }⟩ := by
  simp only [check, close_eq, List.foldl_append]

theorem rearranged_check (actual expected : Source) (w : Workspace) :
    actual.Rearranged (check actual expected w).actual ∧
      expected.Rearranged (check actual expected w).expected := by
  obtain ⟨given, wanted, between, actualLeft, expectedLeft, -, -⟩ :=
    compareWith_effect actual expected w
  rw [check_eq]
  exact ⟨actualLeft.rearranged.trans ⟨.same _, rfl, rfl⟩,
    expectedLeft.rearranged.trans ⟨.same _, rfl, rfl⟩⟩

theorem alike_check (actual expected : Source) (w : Workspace) :
    w.Alike (check actual expected w).workspace := by
  obtain ⟨given, wanted, between, -, -, expectedOpens, actualOpens⟩ :=
    compareWith_effect actual expected w
  have alike := expectedOpens.alike.trans actualOpens.alike
  rw [check_eq]
  exact ⟨alike.files, by simpa using alike.name, by simpa using alike.refusal⟩

end Source

end Reconcile
