import Reconcile.Proofs.BudgetedSort
import Reconcile.Proofs.SpilledChunks

/-!
# Files that a sort writes

A sort writes the chunks into which the budget cuts its records, in order and one after another,
until something stops it.
-/

namespace Reconcile

namespace SpillRoot

@[simp] theorem grown_name (root : SpillRoot) : root.grown.name = root.name := rfl

@[simp] theorem grown_refusal (root : SpillRoot) : root.grown.refusal = root.refusal := rfl

end SpillRoot

namespace Disk

/-- Why the file of a number cannot be written: before the first one a directory is made. -/
def refused? (disk : Disk) (root : SpillRoot) (number : Nat) : Option Failure :=
  (if number = 0 then disk.full.map (.access Sorted.spilled) else none).or
    ((root.refusal number).map (.access (Sorting.runPath root number)))

/-- The failure of the first file that cannot be written, among so many. -/
def firstRefusal? (disk : Disk) (root : SpillRoot) (count : Nat) : Option Failure :=
  (List.range count).findSome? (disk.refused? root)

variable {disk : Disk} {root : SpillRoot} {number count : Nat}

theorem refused?_of_full {fault : AccessFault} (full : disk.full = some fault)
    (first : number = 0) : disk.refused? root number = some (.access Sorted.spilled fault) := by
  rw [refused?, if_pos first, full]
  rfl

theorem refused?_of_not_full (notFull : number = 0 → disk.full = none) :
    disk.refused? root number =
      (root.refusal number).map (.access (Sorting.runPath root number)) := by
  rw [refused?]
  split
  · rename_i first
    rw [notFull first]
    rfl
  · rfl

theorem firstRefusal?_eq_none_iff :
    disk.firstRefusal? root count = none ↔ ∀ number < count, disk.refused? root number = none := by
  simp only [firstRefusal?, List.findSome?_eq_none_iff, List.mem_range]

theorem firstRefusal?_succ (disk : Disk) (root : SpillRoot) (count : Nat) :
    disk.firstRefusal? root (count + 1) =
      (disk.firstRefusal? root count).or (disk.refused? root count) := by
  rw [firstRefusal?, List.range_succ, List.findSome?_append, List.findSome?_singleton]
  rfl

theorem firstRefusal?_of_le {e : Failure} (refused : disk.firstRefusal? root number = some e)
    (inside : number ≤ count) : disk.firstRefusal? root count = some e := by
  induction inside with
  | refl => exact refused
  | step _ ih => rw [firstRefusal?_succ, ih, Option.some_or]

theorem firstRefusal?_of_first {e : Failure} (taken : disk.firstRefusal? root number = none)
    (refused : disk.refused? root number = some e) (inside : number < count) :
    disk.firstRefusal? root count = some e := by
  refine firstRefusal?_of_le ?_ inside
  rw [firstRefusal?_succ, taken, Option.none_or, refused]

end Disk

namespace Spill

open Sorting

variable {serializer : Serializer} {order : Order} {budget : Nat} {disk : Disk} {root : SpillRoot}
  {s : Spill}

/-- How a step ends that may meet a failure. -/
def outcome (failure : Option Failure) : Except Failure Unit :=
  match failure with
  | none => .ok ()
  | some e => .error e

theorem outcome_eq_ok_iff {failure : Option Failure} :
    outcome failure = .ok () ↔ failure = none := by
  cases failure <;> simp [outcome]

theorem outcome_eq_error_iff {failure : Option Failure} {e : Failure} :
    outcome failure = .error e ↔ failure = some e := by
  cases failure <;> simp [outcome]

/-! ## The directory of a sort -/

/-- At the root nothing is new but the directory of the sort, if it has one. -/
def Owns (root : SpillRoot) (s : Spill) : Prop :=
  s.directory = none ∧ s.root = root ∨ s.directory = some root.made ∧ s.root = root.grown

/-- The directory is there just if there are files in it. -/
structure IsSettled (root : SpillRoot) (s : Spill) : Prop where
  owns : s.Owns root
  filled : s.directory = none ↔ s.files = []

theorem isSettled_start (root : SpillRoot) : (start root).IsSettled root :=
  ⟨Or.inl ⟨rfl, rfl⟩, iff_of_true rfl rfl⟩

theorem Owns.name_eq (owns : s.Owns root) : s.root.name = root.name := by
  rcases owns with ⟨-, same⟩ | ⟨-, same⟩ <;> simp [same]

theorem Owns.refusal_eq (owns : s.Owns root) : s.root.refusal = root.refusal := by
  rcases owns with ⟨-, same⟩ | ⟨-, same⟩ <;> simp [same]

theorem IsSettled.cases (settled : s.IsSettled root) :
    (s.files = [] ∧ s.directory = none ∧ s.root = root) ∨
      (s.files ≠ [] ∧ s.directory = some root.made ∧ s.root = root.grown) := by
  rcases settled.owns with ⟨nothing, same⟩ | ⟨own, same⟩
  · exact Or.inl ⟨settled.filled.mp nothing, nothing, same⟩
  · refine Or.inr ⟨fun empty => ?_, own, same⟩
    rw [settled.filled.mpr empty] at own
    cases own

theorem IsSettled.push (settled : s.IsSettled root) (serializer : Serializer) (r : Record) :
    (s.push serializer r).IsSettled root :=
  ⟨settled.owns, settled.filled⟩

/-- Without files there is no directory yet, and it may be impossible to make one. -/
theorem IsSettled.makeDirectory_cases (settled : s.IsSettled root) (disk : Disk) :
    (∃ fault, s.files = [] ∧ disk.full = some fault ∧
      s.makeDirectory disk = (.error (.access Sorted.spilled fault), s)) ∨
    ∃ made : Spill, (s.files = [] → disk.full = none) ∧ s.makeDirectory disk = (.ok (), made) ∧
      made.Owns root ∧ made.directory ≠ none ∧ made.files = s.files ∧ made.buffer = s.buffer := by
  unfold makeDirectory
  rcases settled.owns with ⟨nothing, same⟩ | ⟨own, same⟩
  · rw [nothing]
    cases full : disk.full with
    | some fault => exact Or.inl ⟨fault, settled.filled.mp nothing, rfl, rfl⟩
    | none =>
        refine Or.inr ⟨_, fun _ => rfl, rfl, Or.inr ?_, Option.some_ne_none _, rfl, rfl⟩
        exact ⟨congrArg (some ·.made) same, congrArg SpillRoot.grown same⟩
  · have exists_ : s.directory ≠ none := own ▸ Option.some_ne_none _
    rw [own]
    refine Or.inr ⟨s, fun empty => ?_, rfl, Or.inr ⟨own, same⟩, exists_, rfl, rfl⟩
    exact absurd (settled.filled.mpr empty) exists_

/-! ## Writing a file -/

/-- The file that is written next. -/
def nextFile (order : Order) (s : Spill) : RunFile :=
  ⟨runName s.files.length, stable order s.buffer.reverse⟩

theorem Owns.writeFile_of_refused (owns : s.Owns root) {fault : AccessFault}
    (refused : root.refusal s.files.length = some fault) :
    s.writeFile order = (.error (.access (runPath root s.files.length) fault), s) := by
  rw [writeFile, owns.refusal_eq, refused, runPath, runPath, owns.name_eq]

theorem Owns.writeFile_of_taken (owns : s.Owns root)
    (taken : root.refusal s.files.length = none) :
    s.writeFile order =
      (.ok (), { s with files := s.files ++ [s.nextFile order], buffer := [], size := 0 }) := by
  rw [writeFile, owns.refusal_eq, taken]
  rfl

theorem IsSettled.spill_of_refused (settled : s.IsSettled root) (order : Order) {e : Failure}
    (refused : disk.refused? root s.files.length = some e) :
    ∃ s', s.spill order disk = (.error e, s') ∧ s'.Owns root ∧ s'.files = s.files := by
  rcases settled.makeDirectory_cases disk with
    ⟨fault, empty, full, failed⟩ | ⟨made, notFull, done, owns, -, files, -⟩
  · rw [Disk.refused?_of_full full (List.length_eq_zero_iff.mpr empty)] at refused
    cases refused
    exact ⟨s, by rw [Spill.spill, failed], settled.owns, rfl⟩
  · rw [Disk.refused?_of_not_full fun first => notFull (List.length_eq_zero_iff.mp first)]
      at refused
    obtain ⟨fault, refusal, rfl⟩ := Option.map_eq_some_iff.mp refused
    refine ⟨made, ?_, owns, files⟩
    rw [← files] at refusal ⊢
    rw [Spill.spill, done]
    exact owns.writeFile_of_refused refusal

theorem IsSettled.spill_of_taken (settled : s.IsSettled root) (order : Order)
    (taken : disk.refused? root s.files.length = none) :
    ∃ s', s.spill order disk = (.ok (), s') ∧ s'.IsSettled root ∧
      s'.files = s.files ++ [s.nextFile order] ∧ s'.buffer = [] ∧ s'.size = 0 := by
  rcases settled.makeDirectory_cases disk with
    ⟨fault, empty, full, failed⟩ | ⟨made, notFull, done, owns, own, files, buffer⟩
  · rw [Disk.refused?_of_full full (List.length_eq_zero_iff.mpr empty)] at taken
    cases taken
  · rw [Disk.refused?_of_not_full fun first => notFull (List.length_eq_zero_iff.mp first),
      Option.map_eq_none_iff, ← files] at taken
    refine ⟨{ made with files := made.files ++ [made.nextFile order], buffer := [], size := 0 },
      ?_, ⟨owns, iff_of_false own (List.concat_ne_nil _ _)⟩, ?_, rfl, rfl⟩
    · rw [Spill.spill, done]
      exact owns.writeFile_of_taken taken
    · rw [nextFile, nextFile, files, buffer]

/-! ## Taking records -/

/-- What a sort that began at a root has made of the records that it took: files of the chunks that
the budget cuts them into, and the rest in memory. -/
structure Holds (serializer : Serializer) (order : Order) (budget : Nat) (disk : Disk)
    (root : SpillRoot) (records : List Record) (chunks : List (List Record)) (s : Spill) :
    Prop where
  settled : s.IsSettled root
  cut : IsCut serializer budget records chunks s.buffer.reverse
  size : s.size = serializer.sizeOf s.buffer.reverse
  files : s.files = filesOf order chunks
  taken : disk.firstRefusal? root chunks.length = none

theorem holds_start (serializer : Serializer) (order : Order) (budget : Nat) (disk : Disk)
    (root : SpillRoot) : Holds serializer order budget disk root [] [] (start root) where
  settled := isSettled_start root
  cut := isCut_nil
  size := rfl
  files := rfl
  taken := rfl

namespace Holds

variable {records : List Record} {chunks : List (List Record)}

theorem length_files (holds : Holds serializer order budget disk root records chunks s) :
    s.files.length = chunks.length := by
  rw [holds.files, length_filesOf]

theorem size_push (holds : Holds serializer order budget disk root records chunks s) (r : Record) :
    (s.push serializer r).size = serializer.sizeOf (s.buffer.reverse ++ [r]) := by
  rw [Serializer.sizeOf_append, Serializer.sizeOf_singleton, ← holds.size]
  rfl

theorem take_of_fits (holds : Holds serializer order budget disk root records chunks s)
    {r : Record} (fits : serializer.sizeOf (s.buffer.reverse ++ [r]) ≤ budget) :
    s.take serializer order budget disk r = (.ok (), s.push serializer r) ∧
      Holds serializer order budget disk root (records ++ [r]) chunks (s.push serializer r) := by
  have reversed : (s.push serializer r).buffer.reverse = s.buffer.reverse ++ [r] :=
    List.reverse_cons
  constructor
  · rw [take]
    simp only [holds.size_push, Nat.not_lt_of_le fits, if_false]
  · refine ⟨⟨holds.settled.owns, holds.settled.filled⟩, ?_, ?_, holds.files, holds.taken⟩
    · rw [reversed]
      exact holds.cut.keep fits
    · rw [reversed, holds.size_push]

/-- A record that exceeds the budget leads to a file being written, unless that is refused. -/
theorem take_of_exceeds (holds : Holds serializer order budget disk root records chunks s)
    {r : Record} (exceeds : budget < serializer.sizeOf (s.buffer.reverse ++ [r])) :
    s.take serializer order budget disk r = (s.push serializer r).spill order disk := by
  rw [take]
  simp only [holds.size_push, exceeds, if_true]

theorem take_of_refused (holds : Holds serializer order budget disk root records chunks s)
    {r : Record} {e : Failure} (exceeds : budget < serializer.sizeOf (s.buffer.reverse ++ [r]))
    (refused : disk.refused? root chunks.length = some e) :
    ∃ s', s.take serializer order budget disk r = (.error e, s') ∧ s'.Owns root ∧
      s'.files = filesOf order chunks := by
  rw [holds.take_of_exceeds exceeds, ← holds.files]
  rw [← holds.length_files] at refused
  exact (holds.settled.push serializer r).spill_of_refused order refused

theorem take_of_taken (holds : Holds serializer order budget disk root records chunks s)
    {r : Record} (exceeds : budget < serializer.sizeOf (s.buffer.reverse ++ [r]))
    (taken : disk.refused? root chunks.length = none) :
    ∃ s', s.take serializer order budget disk r = (.ok (), s') ∧
      Holds serializer order budget disk root (records ++ [r])
        (chunks ++ [s.buffer.reverse ++ [r]]) s' := by
  have number : (s.push serializer r).files.length = chunks.length := holds.length_files
  have pushed : (s.push serializer r).buffer.reverse = s.buffer.reverse ++ [r] := List.reverse_cons
  rw [holds.take_of_exceeds exceeds]
  obtain ⟨s', spilled, settled, files, buffer, size⟩ :=
    (holds.settled.push serializer r).spill_of_taken order (number ▸ taken)
  refine ⟨s', spilled, settled, ?_, ?_, ?_, ?_⟩
  · rw [buffer]
    exact holds.cut.close exceeds
  · rw [size, buffer]
    rfl
  · rw [files, nextFile, number, pushed, filesOf_concat, ← holds.files]
    rfl
  · rw [List.length_append, List.length_singleton, Disk.firstRefusal?_succ, holds.taken, taken]
    rfl

end Holds

/-! ## Taking a feed -/

/-- A sort at a root has written chunks as files, all of them unless it was stopped by a failure. -/
structure Writes (order : Order) (root : SpillRoot) (chunks : List (List Record))
    (failure : Option Failure) (result : Except Failure Unit × Spill) : Prop where
  ends : result.1 = outcome failure
  owns : result.2.Owns root
  files : result.2.files <+: filesOf order chunks
  settled : result.1 = .ok () → result.2.IsSettled root
  all : result.1 = .ok () → result.2.files = filesOf order chunks

theorem Writes.of_failure {chunks : List (List Record)} {e : Failure} (owns : s.Owns root)
    (files : s.files <+: filesOf order chunks) :
    Writes order root chunks (some e) (.error e, s) where
  ends := rfl
  owns := owns
  files := files
  settled done := by cases done
  all done := by cases done

/-- What stops the taking of a feed: the first file that cannot be written or, if there is none, the
first failure in the feed. -/
def takeFailure? (disk : Disk) (root : SpillRoot) (chunks : List (List Record)) (input : Feed) :
    Option Failure :=
  (disk.firstRefusal? root chunks.length).or input.untilFailure.2

/-- What there is once a feed has been taken, the records of which are cut into chunks and a
rest. -/
structure Takes (serializer : Serializer) (order : Order) (budget : Nat) (disk : Disk)
    (root : SpillRoot) (input : Feed) (records : List Record) (chunks : List (List Record))
    (left : List Record) (result : Except Failure Unit × Spill) : Prop extends
    Writes order root chunks (takeFailure? disk root chunks input) result where
  cut : IsCut serializer budget records chunks left
  buffer : result.1 = .ok () → result.2.buffer.reverse = left
  holds : result.1 = .ok () →
    Holds serializer order budget disk root records chunks result.2

/-- What stops the spilling of a feed: at the end there may be one file more. -/
def fillFailure? (disk : Disk) (root : SpillRoot) (chunks : List (List Record))
    (left : List Record) (input : Feed) : Option Failure :=
  (takeFailure? disk root chunks input).or
    (disk.firstRefusal? root (spilled chunks left).length)

namespace Holds

variable {records : List Record} {chunks : List (List Record)}

theorem writes (holds : Holds serializer order budget disk root records chunks s)
    (failure : Option Failure) : Writes order root chunks failure (outcome failure, s) where
  ends := rfl
  owns := holds.settled.owns
  files := holds.files ▸ List.prefix_rfl
  settled _ := holds.settled
  all _ := holds.files

/-- A feed that gives no record has been taken at once. -/
theorem takes (holds : Holds serializer order budget disk root records chunks s) {input : Feed}
    (none_ : input.untilFailure.1 = []) :
    Takes serializer order budget disk root input (records ++ input.untilFailure.1) (chunks ++ [])
      s.buffer.reverse (outcome input.untilFailure.2, s) := by
  have stops : takeFailure? disk root chunks input = input.untilFailure.2 := by
    rw [takeFailure?, holds.taken, Option.none_or]
  rw [none_, List.append_nil, List.append_nil]
  exact {
    toWrites := stops.symm ▸ holds.writes input.untilFailure.2
    cut := holds.cut
    buffer := fun _ => rfl
    holds := fun _ => holds }

/-- The records behind a file that is refused are never taken, but they have their chunks. -/
theorem takes_of_refused (holds : Holds serializer order budget disk root records chunks s)
    {r : Record} {e : Failure} (exceeds : budget < serializer.sizeOf (s.buffer.reverse ++ [r]))
    (refused : disk.refused? root chunks.length = some e) {s' : Spill} (owns : s'.Owns root)
    (files : s'.files = filesOf order chunks) (rest : Feed) :
    ∃ later left, Takes serializer order budget disk root (.ok r :: rest)
      (records ++ [r] ++ rest.untilFailure.1) (chunks ++ later) left (.error e, s') := by
  obtain ⟨later, left, cut⟩ := (holds.cut.close exceeds).extend rest.untilFailure.1
  rw [← List.append_cons chunks] at cut
  refine ⟨(s.buffer.reverse ++ [r]) :: later, left, ?_⟩
  have inside : chunks.length < (chunks ++ (s.buffer.reverse ++ [r]) :: later).length := by simp
  have stops : takeFailure? disk root (chunks ++ (s.buffer.reverse ++ [r]) :: later)
      (.ok r :: rest) = some e := by
    rw [takeFailure?, Disk.firstRefusal?_of_first holds.taken refused inside, Option.some_or]
  exact {
    toWrites := stops ▸
      .of_failure owns (files ▸ isPrefix_filesOf (List.prefix_append chunks _) order)
    cut := cut
    buffer := fun done => by cases done
    holds := fun done => by cases done }

/-- A sort takes a feed to its end. -/
theorem takeAll (holds : Holds serializer order budget disk root records chunks s) (input : Feed) :
    ∃ later left, Takes serializer order budget disk root input (records ++ input.untilFailure.1)
      (chunks ++ later) left (s.takeAll serializer order budget disk input) := by
  induction input generalizing records chunks s with
  | nil => exact ⟨[], s.buffer.reverse, holds.takes rfl⟩
  | cons item rest ih =>
      cases item with
      | error e => exact ⟨[], s.buffer.reverse, holds.takes rfl⟩
      | ok r =>
          have given : records ++ (Feed.untilFailure (.ok r :: rest)).1 =
              records ++ [r] ++ (Feed.untilFailure rest).1 := List.append_cons _ _ _
          rw [given, Spill.takeAll]
          by_cases fits : serializer.sizeOf (s.buffer.reverse ++ [r]) ≤ budget
          · obtain ⟨step, next⟩ := holds.take_of_fits fits
            obtain ⟨later, left, taken⟩ := ih next
            rw [step]
            exact ⟨later, left, { taken with }⟩
          · have exceeds := Nat.lt_of_not_le fits
            cases here : disk.refused? root chunks.length with
            | none =>
                obtain ⟨s', step, next⟩ := holds.take_of_taken exceeds here
                obtain ⟨later, left, taken⟩ := ih next
                rw [← List.append_cons chunks] at taken
                rw [step]
                exact ⟨(s.buffer.reverse ++ [r]) :: later, left, { taken with }⟩
            | some e =>
                obtain ⟨s', step, owns, files⟩ := holds.take_of_refused exceeds here
                rw [step]
                exact holds.takes_of_refused exceeds here owns files rest

/-- What is left is written as the last file, if there are files at all. -/
theorem finish (holds : Holds serializer order budget disk root records chunks s) :
    Writes order root (spilled chunks s.buffer.reverse)
      (disk.firstRefusal? root (spilled chunks s.buffer.reverse).length) (s.finish order) := by
  have empty : (s.files.isEmpty || s.buffer.isEmpty) =
      (chunks.isEmpty || s.buffer.reverse.isEmpty) := by
    rw [holds.files, Bool.eq_iff_iff]
    simp [filesOf_eq_nil_iff]
  unfold Spill.finish spilled
  rw [empty]
  split
  · rw [holds.taken]
    exact holds.writes none
  · rename_i both
    have some_ : chunks ≠ [] := by
      rintro rfl
      exact both rfl
    have number : s.files.length ≠ 0 := by
      rw [holds.length_files]
      exact fun none_ => some_ (List.length_eq_zero_iff.mp none_)
    have all : filesOf order (chunks ++ [s.buffer.reverse]) = s.files ++ [s.nextFile order] := by
      rw [filesOf_concat, ← holds.files, ← holds.length_files]
      rfl
    rw [List.length_append, List.length_singleton, Disk.firstRefusal?_succ, holds.taken,
      Option.none_or, ← holds.length_files,
      Disk.refused?_of_not_full fun first => absurd first number]
    cases here : root.refusal s.files.length with
    | some fault =>
        rw [holds.settled.owns.writeFile_of_refused here]
        exact .of_failure holds.settled.owns (all ▸ List.prefix_append s.files _)
    | none =>
        rw [holds.settled.owns.writeFile_of_taken here]
        have own : s.directory ≠ none := fun nothing => by
          simp [holds.settled.filled.mp nothing] at number
        exact {
          ends := rfl
          owns := holds.settled.owns
          files := all ▸ List.prefix_rfl
          settled := fun _ => ⟨holds.settled.owns, iff_of_false own (List.concat_ne_nil _ _)⟩
          all := fun _ => all.symm }

end Holds

/-- A sort spills the chunks of what its input gives until the first failure. -/
theorem fill_start (serializer : Serializer) (order : Order) (budget : Nat) (disk : Disk)
    (root : SpillRoot) (input : Feed) :
    ∃ chunks left, IsCut serializer budget input.untilFailure.1 chunks left ∧
      Writes order root (spilled chunks left) (fillFailure? disk root chunks left input)
        ((start root).fill serializer order budget disk input) := by
  obtain ⟨chunks, left, taken⟩ := (holds_start serializer order budget disk root).takeAll input
  rw [List.nil_append, List.nil_append] at taken
  refine ⟨chunks, left, taken.cut, ?_⟩
  rw [fill, fillFailure?]
  rcases result : (start root).takeAll serializer order budget disk input with ⟨ended, s⟩
  rw [result] at taken
  cases ended with
  | error e =>
      rw [outcome_eq_error_iff.mp taken.ends.symm, Option.some_or]
      exact .of_failure taken.owns (taken.files.trans (isPrefix_filesOf (prefix_spilled _ _) order))
  | ok _ =>
      rw [outcome_eq_ok_iff.mp taken.ends.symm, Option.none_or]
      cases taken.buffer rfl
      exact (taken.holds rfl).finish

end Spill

end Reconcile
