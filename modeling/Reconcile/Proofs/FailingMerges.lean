import Reconcile.Merging
import Reconcile.Proofs.FaithfulSorting

/-!
# Failing merges

A merge gives the records that can be read from its runs in the stable order.  If some run cannot be
read to its end, the merge stops in front of the last record that could be read of such a run: in its
place stands the fault, under the path of that run, and nothing follows.
-/

namespace Reconcile

namespace Sorting

variable {order : Order}

/-! ## Files -/

namespace OpenRun

/-- The first failure of a run is the first fault of its file. -/
theorem untilFailure_run (file : OpenRun) :
    file.run.rest.untilFailure = (file.records, file.fault?.map (.access file.path)) := by
  obtain ⟨path, items⟩ := file
  induction items with
  | nil => rfl
  | cons item items ih =>
      cases item with
      | error fault => rfl
      | ok r =>
          change Feed.untilFailure (.ok r :: (run ⟨path, items⟩).rest) = _
          rw [Feed.untilFailure, ih]
          rfl

/-- What a file holds: the records that can be read, and the failure behind them, if there is one. -/
def content (file : OpenRun) : List Record × Option Failure :=
  (file.records, file.fault?.map (.access file.path))

/-- A file whose first item is no fault is read up to its first record. -/
theorem exists_advance_run {file : OpenRun}
    (first : ∀ fault, file.items.head? ≠ some (.error fault)) :
    ∃ run, file.run.advance = .ok run := by
  obtain ⟨path, items⟩ := file
  cases items with
  | nil => exact ⟨_, rfl⟩
  | cons item items =>
      cases item with
      | error fault => exact absurd rfl (first fault)
      | ok r => exact ⟨_, rfl⟩

end OpenRun

/-! ## Runs that have been read up to a head -/

namespace Run

/-- Nothing is left behind the end of a run. -/
def IsRead (run : Run) : Prop := run.head = none → run.rest = []

/-- The failure in front of which a run can be read. -/
def failure? (run : Run) : Option Failure := run.rest.untilFailure.2

/-- What is to come of a run: the records that can be read, and the failure behind them. -/
def content (run : Run) : List Record × Option Failure := (run.readable, run.failure?)

theorem isSound_iff {run : Run} : run.IsSound ↔ run.failure? = none := Iff.rfl

theorem isRead_of_advance {run next : Run} (advanced : run.advance = .ok next) : next.IsRead :=
  rest_of_advance advanced

/-- Reading on does not change where the run fails. -/
theorem failure?_of_advance {run next : Run} (advanced : run.advance = .ok next) :
    next.failure? = run.failure? := by
  unfold advance at advanced
  split at advanced
  · rename_i nothing
    cases advanced
    rw [failure?, failure?, nothing]
  · rename_i r rest more
    cases advanced
    rw [failure?, failure?, more]
    rfl
  · cases advanced

theorem content_of_advance {file : OpenRun} {run : Run} (advanced : file.run.advance = .ok run) :
    run.content = file.content := by
  rw [content, readable_advance advanced, failure?_of_advance advanced, failure?,
    OpenRun.untilFailure_run]
  rfl

/-- A run that cannot be read on fails right behind its head. -/
theorem of_advance_eq_error {run : Run} {e : Failure} (failed : run.advance = .error e) :
    run.rest.untilFailure = ([], some e) := by
  unfold advance at failed
  split at failed
  · cases failed
  · cases failed
  · rename_i e' rest fault
    cases failed
    rw [fault]
    rfl

end Run

/-! ## What is given -/

section

variable (order) in
/-- The items that a merge gives: all records that can be read from its runs, or those in front of
the last one of a run that fails, and then that failure. -/
inductive Gives (runs : List Run) : Feed → Prop where
  | all (sound : ∀ run ∈ runs, run.IsSound) :
      Gives runs (.ofRecords (mergeLists order (runs.map Run.readable)))
  | failing {run : Run} {e : Failure} {r : Record} {front behind : List Record}
      (member : run ∈ runs) (fails : run.failure? = some e)
      (last : run.readable.getLast? = some r)
      (split : mergeLists order (runs.map Run.readable) = front ++ r :: behind) :
      Gives runs (Feed.ofRecords front ++ [.error e])

/-- What a merge gives once it has given a head, together with that head. -/
theorem Gives.cons {runs : List Run} {number : Nat} {run next : Run} {r : Record} {items : Feed}
    (inRuns : runs[number]? = some run) (head : run.head = some r)
    (advanced : run.advance = .ok next)
    (merged : mergeLists order (runs.map Run.readable) =
      r :: mergeLists order ((runs.set number next).map Run.readable))
    (gives : Gives order (runs.set number next) items) : Gives order runs (.ok r :: items) := by
  cases gives with
  | all sound =>
      rw [show Except.ok r :: Feed.ofRecords _ = Feed.ofRecords (r :: _) from rfl, ← merged]
      refine .all fun other member => ?_
      obtain ⟨place, found⟩ := List.mem_iff_getElem?.mp member
      by_cases here : number = place
      · subst here
        obtain rfl : run = other := Option.some.inj (inRuns.symm.trans found)
        have inside : number < runs.length := (List.getElem?_eq_some_iff.mp found).1
        exact Run.isSound_of_advance advanced (sound next (List.mem_set inside next))
      · refine sound other (List.mem_iff_getElem?.mpr ⟨place, ?_⟩)
        rw [List.getElem?_set_ne here, found]
  | @failing failing e last front behind member fails isLast split =>
      have whole : mergeLists order (runs.map Run.readable) = (r :: front) ++ last :: behind := by
        rw [merged, split]
        rfl
      change Gives order runs (Feed.ofRecords (r :: front) ++ [.error e])
      rcases List.mem_or_eq_of_mem_set member with before | rfl
      · exact .failing before fails isLast whole
      · -- The run that fails is the one that was read on: the same run, without its head.
        refine .failing (List.mem_of_getElem? inRuns) ?_ ?_ whole
        · rw [← Run.failure?_of_advance advanced, fails]
        · rw [Run.readable_of_some head, ← Run.readable_advance advanced, List.getLast?_cons, isLast]
          rfl

variable [Std.TransCmp order]

/-- Merging runs that have been read up to their heads. -/
theorem gives_merge {runs : List Run} (read : ∀ run ∈ runs, run.IsRead) {fuel : Nat}
    (enough : (mergeLists order (runs.map Run.readable)).length < fuel) :
    Gives order runs (merge order fuel runs) := by
  -- Each step takes one record off the merge, so the fuel outlasts it.
  induction fuel generalizing runs with
  | zero => exact absurd enough (Nat.not_lt_zero _)
  | succ fuel ih =>
      unfold merge
      cases given : least order runs with
      | none =>
          have nothing := mergeLists_of_least_eq_none given
          have sound : ∀ run ∈ runs, run.IsSound := by
            intro run member
            rw [Run.IsSound, read run member (head_eq_none_of_least given run member)]
            rfl
          have gives : Gives order runs (.ofRecords (mergeLists order (runs.map Run.readable))) :=
            .all sound
          rwa [nothing] at gives
      | some choice =>
          obtain ⟨number, r⟩ := choice
          obtain ⟨run, inRuns, head, merged⟩ := mergeLists_of_least given
          simp only [inRuns]
          cases advanced : run.advance with
          | error e =>
              have ends := Run.of_advance_eq_error advanced
              have fails : run.failure? = some e := by rw [Run.failure?, ends]
              have last : run.readable.getLast? = some r := by
                rw [Run.readable_of_some head, ends]
                rfl
              have gives : Gives order runs (Feed.ofRecords [] ++ [.error e]) :=
                .failing (List.mem_of_getElem? inRuns) fails last merged
              exact gives
          | ok next =>
              have nextReadable : (runs.set number next).map Run.readable =
                  (runs.map Run.readable).set number run.rest.untilFailure.1 := by
                rw [List.map_set, Run.readable_advance advanced]
              rw [← nextReadable] at merged
              rw [merged] at enough
              have stillRead : ∀ run ∈ runs.set number next, run.IsRead := by
                intro other member
                rcases List.mem_or_eq_of_mem_set member with before | rfl
                · exact read other before
                · exact Run.isRead_of_advance advanced
              exact .cons inRuns head advanced merged (ih stillRead (Nat.lt_of_succ_lt_succ enough))

/-! ## One request after another -/

namespace Merge

omit [Std.TransCmp order] in
/-- A request that leaves the merge as it was is answered in the same way ever after. -/
theorem answer_of_fixed {m : Merge} (fixed : (m.next order).2 = m) (requests : Nat) :
    m.answer order requests = (m.next order).1 := by
  induction requests with
  | zero => rfl
  | succ requests ih =>
      rw [← ih, answer, answer, after, fixed]

omit [Std.TransCmp order] in
/-- Nothing follows on a failure. -/
theorem answer_of_failed (runs : List Run) (requests : Nat) :
    (mk runs true).answer order requests = none :=
  answer_of_fixed rfl requests

/-- The answers to requests are the items of the merge, one after another, and then nothing. -/
theorem answer_eq_merge {runs : List Run} {fuel : Nat}
    (enough : (mergeLists order (runs.map Run.readable)).length < fuel) (requests : Nat) :
    (mk runs false).answer order requests = (merge order fuel runs)[requests]? := by
  induction fuel generalizing runs requests with
  | zero => exact absurd enough (Nat.not_lt_zero _)
  | succ fuel ih =>
      have step := next.eq_def order (mk runs false)
      simp only [Bool.false_eq_true, if_false] at step
      unfold merge
      cases given : least order runs with
      | none =>
          rw [given] at step
          have fixed : ((mk runs false).next order).2 = mk runs false := congrArg Prod.snd step
          rw [answer_of_fixed fixed, step]
          rfl
      | some choice =>
          obtain ⟨number, r⟩ := choice
          obtain ⟨run, inRuns, head, merged⟩ := mergeLists_of_least given
          simp only [given, inRuns] at step ⊢
          cases advanced : run.advance with
          | error e =>
              simp only [advanced] at step ⊢
              cases requests with
              | zero => exact congrArg Prod.fst step
              | succ requests =>
                  rw [answer, after, step]
                  exact answer_of_failed _ requests
          | ok next =>
              simp only [advanced] at step ⊢
              cases requests with
              | zero => exact congrArg Prod.fst step
              | succ requests =>
                  rw [merged, ← Run.readable_advance advanced, ← List.map_set] at enough
                  rw [answer, after, step]
                  exact ih (Nat.lt_of_succ_lt_succ enough) requests

end Merge

/-! ## Files -/

/-- Lists that are in order are merged into the stable sort of all of them. -/
theorem mergeLists_eq_stable {lists : List (List Record)}
    (ordered : ∀ list ∈ lists, IsOrdered order list) :
    mergeLists order lists = stable order lists.flatten := by
  refine eq_stable_of_tied (isOrdered_mergeLists ordered) fun r => ?_
  rw [tied_mergeLists r ordered, tied, List.filter_flatten, List.flatMap_def]
  rfl

/-- Files whose first items can be read are opened, and each run is left with what its file holds. -/
theorem exists_started {files : List OpenRun}
    (firsts : ∀ file ∈ files, ∀ fault, file.items.head? ≠ some (.error fault)) :
    ∃ runs, (files.map OpenRun.run).mapM Run.advance = .ok runs ∧ (∀ run ∈ runs, run.IsRead) ∧
      runs.map Run.content = files.map OpenRun.content := by
  induction files with
  | nil => exact ⟨[], rfl, by simp, rfl⟩
  | cons file files ih =>
      obtain ⟨first, others⟩ := List.forall_mem_cons.mp firsts
      obtain ⟨run, advanced⟩ := OpenRun.exists_advance_run first
      obtain ⟨runs, started, read, same⟩ := ih others
      refine ⟨run :: runs, ?_, ?_, ?_⟩
      · rw [List.map_cons, List.mapM_cons, advanced, started]
        rfl
      · exact List.forall_mem_cons.mpr ⟨Run.isRead_of_advance advanced, read⟩
      · rw [List.map_cons, List.map_cons, same, Run.content_of_advance advanced]

/-- Without a failure on opening, the records that a merge gives are a first part of the stable merge
of all that can be read, whatever follows: all of it if every file can be read to its end, and
otherwise what comes before the last record of a file with a fault.  That fault is the next answer,
under the path of its file; nothing is given after it, as after the end. -/
theorem merge_prefix {files : List OpenRun}
    (ordered : ∀ file ∈ files, IsOrdered order file.records)
    (firsts : ∀ file ∈ files, ∀ fault, file.items.head? ≠ some (.error fault)) :
    let merged := stable order (files.flatMap OpenRun.records)
    ∃ m items, Merge.start (files.map OpenRun.run) = .ok m ∧
      mergeRuns order (files.map OpenRun.run) = .ok items ∧
      (∀ requests, m.answer order requests = items[requests]?) ∧
      ((∀ file ∈ files, file.fault? = none) ∧ items = .ofRecords merged ∨
        ∃ file ∈ files, ∃ fault r front behind, file.fault? = some fault ∧
          file.records.getLast? = some r ∧ merged = front ++ r :: behind ∧
          items = Feed.ofRecords front ++ [.error (.access file.path fault)]) := by
  obtain ⟨runs, started, read, same⟩ := exists_started firsts
  have readable : runs.map Run.readable = files.map OpenRun.records := by
    have records := congrArg (List.map Prod.fst) same
    rwa [List.map_map, List.map_map] at records
  have merges : mergeLists order (runs.map Run.readable) =
      stable order (files.flatMap OpenRun.records) := by
    rw [readable, mergeLists_eq_stable, List.flatMap_def]
    exact List.forall_mem_map.mpr ordered
  have enough : (mergeLists order (runs.map Run.readable)).length <
      runs.foldr (fun run count => run.size + count) 1 := length_mergeLists_lt runs
  refine ⟨⟨runs, false⟩, merge order (runs.foldr (fun run count => run.size + count) 1) runs, ?_, ?_,
    Merge.answer_eq_merge enough, ?_⟩
  · rw [Merge.start, started]
    rfl
  · rw [mergeRuns, started]
    rfl
  · have gives := gives_merge read enough
    generalize merge order _ runs = items at gives
    cases gives with
    | all sound =>
        refine .inl ⟨fun file member => ?_, congrArg _ merges⟩
        obtain ⟨run, inRuns, contents⟩ :=
          List.mem_map.mp (same ▸ List.mem_map_of_mem (f := OpenRun.content) member)
        have failures : run.failure? = file.fault?.map (.access file.path) :=
          congrArg Prod.snd contents
        rw [Run.isSound_iff.mp (sound run inRuns)] at failures
        exact Option.map_eq_none_iff.mp failures.symm
    | failing inRuns fails last split =>
        obtain ⟨file, member, contents⟩ :=
          List.mem_map.mp (same ▸ List.mem_map_of_mem (f := Run.content) inRuns)
        obtain ⟨records, failures⟩ := Prod.mk.inj contents
        rw [fails] at failures
        obtain ⟨fault, faults, rfl⟩ := Option.map_eq_some_iff.mp failures
        exact .inr ⟨file, member, fault, _, _, _, faults, records ▸ last, merges ▸ split, rfl⟩

/-- The second of two files ends in a fault: the record in front of the fault is not given, although
it was read, and neither is what the first file still holds. -/
theorem merge_prefix_unreadable :
    let order := Key.compare (.ofIndices [0])
    let one : OpenRun := ⟨"one", [.ok ⟨[.int 1, .text "a"]⟩, .ok ⟨[.int 4]⟩]⟩
    let two : OpenRun := ⟨"two", [.ok ⟨[.int 1, .text "b"]⟩, .ok ⟨[.int 3]⟩, .error .invalidData]⟩
    ∃ m, Merge.start ([one, two].map OpenRun.run) = .ok m ∧
      m.answer order 0 = some (.ok ⟨[.int 1, .text "a"]⟩) ∧
      m.answer order 1 = some (.ok ⟨[.int 1, .text "b"]⟩) ∧
      m.answer order 2 = some (.error (.access "two" .invalidData)) ∧
      ∀ more, m.answer order (3 + more) = none := by
  intro order one two
  have ordered : ∀ file ∈ [one, two], IsOrdered order file.records := by
    unfold IsOrdered
    decide
  have firsts : ∀ file ∈ [one, two], ∀ fault, file.items.head? ≠ some (.error fault) := by
    simp [one, two]
  obtain ⟨m, items, started, -, answers, gives⟩ := merge_prefix ordered firsts
  have merged : stable order ([one, two].flatMap OpenRun.records) =
      [⟨[.int 1, .text "a"]⟩, ⟨[.int 1, .text "b"]⟩, ⟨[.int 3]⟩, ⟨[.int 4]⟩] := by
    rw [stable_eq_insertionSort]
    decide
  refine ⟨m, started, ?_⟩
  simp only [answers]
  rcases gives with ⟨sound, -⟩ | ⟨file, member, fault, r, front, behind, fails, last, split, rfl⟩
  · cases sound two (by simp)
  · obtain rfl | rfl : file = one ∨ file = two := by simpa using member
    · cases fails
    · cases fails
      have third : two.records.getLast? = some ⟨[.int 3]⟩ := rfl
      obtain rfl : ⟨[.int 3]⟩ = r := Option.some.inj (third.symm.trans last)
      -- the record in question stands at one place of the merge only
      have places : [⟨[.int 1, .text "a"]⟩, ⟨[.int 1, .text "b"]⟩] ++ ⟨[.int 3]⟩ :: [⟨[.int 4]⟩] =
          front ++ ⟨[.int 3]⟩ :: behind := merged.symm.trans split
      rw [List.append_cons_inj_of_notMem (by decide) (by decide)] at places
      obtain ⟨rfl, -⟩ := places
      refine ⟨rfl, rfl, rfl, fun more => ?_⟩
      exact List.getElem?_eq_none (Nat.le_add_right 3 more)

end

end Sorting

end Reconcile
