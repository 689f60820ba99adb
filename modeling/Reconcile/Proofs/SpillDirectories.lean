import Reconcile.Proofs.ListPasses
import Reconcile.Proofs.SortedInSteps

/-!
# What a sort leaves behind

A sort that is stopped tells the first failure that it met, and the directory that it made is gone.
A sort that is not stopped leaves its directory to the handle, and the first closing removes it.
-/

namespace Reconcile

open Sorting

/-! ## Files that are read again -/

theorem Serializer.head?_read (serializer : Serializer) (octets : List UInt8) :
    (serializer.read octets).head? = (serializer.next? octets).map Prod.fst := by
  rw [read]
  split <;> rename_i next <;> simp [next]

theorem Sorting.Run.advance_eq_error_iff {run : Run} {e : Failure} :
    run.advance = .error e ↔ run.rest.head? = some (.error e) := by
  unfold advance
  split <;> rename_i rest <;> simp [rest]

namespace RunFile

variable {serializer : Serializer} {disk : Disk} {root : SpillRoot} {file : RunFile} {e : Failure}

/-- Why a file cannot be opened again. -/
def unopened? (serializer : Serializer) (disk : Disk) (root : SpillRoot) (file : RunFile) :
    Option Failure :=
  match disk.reopen file.name (serializer.writeAll file.records) with
  | .error fault => some (.access (file.path root) fault)
  | .ok _ => none

/-- Why the first record of a file that has been opened cannot be read. -/
def unread? (serializer : Serializer) (disk : Disk) (root : SpillRoot) (file : RunFile) :
    Option Failure :=
  match disk.reopen file.name (serializer.writeAll file.records) with
  | .error _ => none
  | .ok octets =>
      match serializer.next? octets with
      | some (.error fault, _) => some (.access (file.path root) fault)
      | _ => none

theorem reopen_eq_error_iff :
    file.reopen serializer disk root = .error e ↔ file.unopened? serializer disk root = some e := by
  unfold reopen unopened?
  cases disk.reopen file.name (serializer.writeAll file.records) <;> simp

theorem advance_eq_error_iff {run : Run} (opened : file.reopen serializer disk root = .ok run) :
    run.advance = .error e ↔ file.unread? serializer disk root = some e := by
  unfold reopen at opened
  unfold unread?
  cases content : disk.reopen file.name (serializer.writeAll file.records) with
  | error fault =>
      rw [content] at opened
      cases opened
  | ok octets =>
      rw [content] at opened
      cases opened
      simp only
      rw [Run.advance_eq_error_iff, List.head?_map, Serializer.head?_read, Option.map_map]
      rcases serializer.next? octets with _ | ⟨fault | r, rest⟩ <;> simp [Except.mapError]

theorem reopen_congr {root' : SpillRoot} (name : root'.name = root.name) :
    file.reopen serializer disk root' = file.reopen serializer disk root := by
  rw [reopen, reopen, path, path, name]

end RunFile

namespace Sorting

theorem mergeRuns_eq_error_iff {order : Order} {runs : List Run} {e : Failure} :
    mergeRuns order runs = .error e ↔ runs.mapM Run.advance = .error e := by
  rw [mergeRuns]
  cases runs.mapM Run.advance <;> simp [bind, Except.bind, pure, Except.pure]

end Sorting

namespace Spill

variable {serializer : Serializer} {order : Order} {budget : Nat} {disk : Disk} {root : SpillRoot}
  {s : Spill} {e : Failure}

/-- What stops the merging of files: the first that cannot be opened or, if there is none, the first
that cannot be read. -/
def mergeFailure? (serializer : Serializer) (disk : Disk) (root : SpillRoot)
    (files : List RunFile) : Option Failure :=
  (files.findSome? (RunFile.unopened? serializer disk root)).or
    (files.findSome? (RunFile.unread? serializer disk root))

theorem Owns.sorted_eq_error_iff (owns : s.Owns root) :
    s.sorted serializer order disk = .error e ↔
      mergeFailure? serializer disk root s.files = some e := by
  have same : RunFile.reopen serializer disk s.root = RunFile.reopen serializer disk root :=
    funext fun _ => RunFile.reopen_congr owns.name_eq
  rw [sorted, same]
  by_cases nothing : s.files = []
  · rw [nothing]
    exact iff_of_false (fun failed => by cases failed) (by simp [mergeFailure?])
  · rw [if_neg (by simpa using nothing)]
    have opening : ∀ e, s.files.mapM (RunFile.reopen serializer disk root) = .error e ↔
        s.files.findSome? (RunFile.unopened? serializer disk root) = some e := fun e =>
      mapM_eq_error_iff (List.forall₂_same.mpr fun _ _ _ => RunFile.reopen_eq_error_iff)
    cases opened : s.files.mapM (RunFile.reopen serializer disk root) with
    | error e' =>
        rw [mergeFailure?, (opening e').mp opened, Option.some_or]
        simp [bind, Except.bind]
    | ok runs =>
        rw [mergeFailure?, eq_none_of_tells opening opened, Option.none_or]
        have reading := (forall₂_of_mapM_eq_ok opened).imp fun _ _ run e =>
          RunFile.advance_eq_error_iff (e := e) run
        rw [← mapM_eq_error_iff reading, ← mergeRuns_eq_error_iff]
        rfl

/-- What stops a sort. -/
def firstFailure? (serializer : Serializer) (order : Order) (disk : Disk) (root : SpillRoot)
    (chunks : List (List Record)) (left : List Record) (input : Feed) : Option Failure :=
  (fillFailure? disk root chunks left input).or
    (mergeFailure? serializer disk root (filesOf order (spilled chunks left)))

end Spill

/-! ## The directory goes -/

theorem SpillRoot.directories_release_grown {root : SpillRoot}
    (fresh : root.made ∉ root.directories) {h : Handle} (own : h.directory = some root.made) :
    (root.grown.release h).directories = root.directories := by
  rw [release, own]
  change (root.made :: root.directories).filter (· ≠ root.made) = root.directories
  rw [List.filter_cons_of_neg (by simp), List.filter_eq_self]
  exact fun number inside => decide_eq_true fun same => fresh (same ▸ inside)

theorem Spill.handle_of_nothing {s : Spill} (nothing : s.directory = none) :
    s.handle = ⟨Sorted.inMemory, none, none⟩ := by
  rw [handle, nothing]
  rfl

theorem Spill.handle_of_own {s : Spill} {number : Nat} (own : s.directory = some number) :
    s.handle = ⟨Sorted.spilled, some number, none⟩ := by
  rw [handle, own]
  rfl

theorem Spill.Owns.directories_abandon {root : SpillRoot} {s : Spill} (owns : s.Owns root)
    (fresh : root.made ∉ root.directories) : s.abandon.directories = root.directories := by
  rcases owns with ⟨nothing, same⟩ | ⟨own, same⟩
  · rw [abandon, SpillRoot.release, handle, nothing, same]
  · rw [abandon, same]
    exact SpillRoot.directories_release_grown fresh own

namespace Feed

variable {order : Order} {budget : Nat} {root : SpillRoot} {input : Feed} {serializer : Serializer}
  {disk : Disk}

/-- A sort that fails tells what stopped it and gives its directory up. -/
theorem spill_error (order : Order) (serializer : Serializer) (budget : Nat) (disk : Disk)
    (root : SpillRoot) (input : Feed) :
    ∃ chunks left, IsCut serializer budget input.untilFailure.1 chunks left ∧
      ∀ e, (input.spill order budget root serializer disk).1 = .error e ↔
        Spill.firstFailure? serializer order disk root chunks left input = some e := by
  obtain ⟨chunks, left, cut, writes⟩ :=
    Spill.fill_start serializer order budget disk root input
  refine ⟨chunks, left, cut, fun e => ?_⟩
  rcases filled : (Spill.start root).fill serializer order budget disk input with ⟨ended, s⟩
  rw [filled] at writes
  rw [Spill.firstFailure?]
  cases ended with
  | error e' =>
      rw [spill_of_stopped filled, Spill.outcome_eq_error_iff.mp writes.ends.symm]
      simp
  | ok _ =>
      have files : s.files = _ := writes.all rfl
      have owns : s.Owns root := writes.owns
      have merging : s.sorted serializer order disk = .error e ↔ _ := owns.sorted_eq_error_iff
      rw [spill_of_filled filled, Spill.outcome_eq_ok_iff.mp writes.ends.symm, Option.none_or,
        ← files, ← merging, Spill.deliver]
      cases s.sorted serializer order disk <;> simp

theorem spill_eq_error {e : Failure} {after : SpillRoot}
    (failed : input.spill order budget root serializer disk = (.error e, after)) :
    ∃ s : Spill, s.Owns root ∧ after = s.abandon := by
  obtain ⟨chunks, left, -, writes⟩ := Spill.fill_start serializer order budget disk root input
  rcases filled : (Spill.start root).fill serializer order budget disk input with ⟨ended, s⟩
  rw [filled] at writes
  refine ⟨s, writes.owns, ?_⟩
  cases ended with
  | error e' =>
      rw [spill_of_stopped filled] at failed
      cases failed
      rfl
  | ok _ =>
      rw [spill_of_filled filled, Spill.deliver] at failed
      cases ordered : s.sorted serializer order disk with
      | error e' =>
          rw [ordered] at failed
          cases failed
          rfl
      | ok records =>
          rw [ordered] at failed
          cases failed

/-- A sort leaves no directory behind.  If it fails, it tells the first failure that it met, and
there are the directories that were there before.  If it succeeds, there is one directory more just
if runs were spilled, the first closing of its handle removes that, and no further closing changes
anything. -/
theorem spill_tidy (order : Order) (serializer : Serializer) (budget : Nat) (disk : Disk)
    {root : SpillRoot} (fresh : root.made ∉ root.directories) (input : Feed) :
    (∃ chunks left, IsCut serializer budget input.untilFailure.1 chunks left ∧
      ∀ e, (input.spill order budget root serializer disk).1 = .error e ↔
        Spill.firstFailure? serializer order disk root chunks left input = some e) ∧
    match input.spill order budget root serializer disk with
    | (.error _, after) => after.directories = root.directories
    | (.ok sorted, after) =>
        (if sorted.runs = [] then after.directories = root.directories
          else ∃ number, number ∉ root.directories ∧
            after.directories = number :: root.directories) ∧
        ∃ closed left, after.close sorted.handle = (.ok (), closed, left) ∧
          left.directories = root.directories ∧
          ∀ later : SpillRoot, later.close closed = (.ok (), closed, later) := by
  refine ⟨spill_error order serializer budget disk root input, ?_⟩
  rcases result : input.spill order budget root serializer disk with ⟨e | sorted, after⟩
  · obtain ⟨s, owns, rfl⟩ := spill_eq_error result
    exact owns.directories_abandon fresh
  · obtain ⟨s, filled, runs, handle, rfl⟩ := spill_eq_ok result
    obtain ⟨chunks, left, -, writes⟩ :=
      Spill.fill_start serializer order budget disk root input
    rw [filled] at writes
    have settled : s.IsSettled root := writes.settled rfl
    simp only [runs, handle, List.map_eq_nil_iff]
    rcases settled.cases with ⟨nothing, none_, same⟩ | ⟨some_, own, same⟩
    · rw [if_pos nothing, Spill.handle_of_nothing none_, same]
      exact ⟨rfl, ⟨Sorted.inMemory, none, none⟩, root, rfl, rfl, fun _ => rfl⟩
    · rw [if_neg some_, Spill.handle_of_own own, same]
      refine ⟨⟨root.made, fresh, rfl⟩, ⟨Sorted.inMemory, none, none⟩, _, rfl, ?_, fun _ => rfl⟩
      exact SpillRoot.directories_release_grown fresh rfl

/-- With no budget every record is written at once.  Where the second file is refused, the first of
the two goes with its directory, and the one that was there before stays. -/
theorem spill_tidy_refused :
    let order := Key.compare (.ofIndices [0])
    let root : SpillRoot :=
      ⟨"spill", [0], 1, fun number => if number = 1 then some .isADirectory else none⟩
    let input : Feed := .ofRecords [⟨[.int 2]⟩, ⟨[.int 1]⟩]
    root.made ∉ root.directories ∧
      (input.spill order 0 root .jsonLines).1 =
        .error (.access "spill/run-00001.jsonl" .isADirectory) ∧
      (input.spill order 0 root .jsonLines).2.directories = [0] := by
  intro order root input
  have fresh : root.made ∉ root.directories := by decide
  have failed : (input.spill order 0 root .jsonLines).1.map (fun _ => ()) =
      .error (.access "spill/run-00001.jsonl" .isADirectory) := by decide +kernel
  obtain ⟨-, tidy⟩ := spill_tidy order .jsonLines 0 .sound fresh input
  rcases result : input.spill order 0 root .jsonLines with ⟨e | sorted, after⟩
  · rw [result] at failed tidy
    exact ⟨fresh, congrArg Except.error (Except.error.inj failed), tidy⟩
  · rw [result] at failed
    cases failed

end Feed

end Reconcile
