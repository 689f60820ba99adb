import Reconcile.Proofs.SpilledRuns

/-!
# A sort step by step

Sorting in one piece is what the steps of a sort come to.  So what is known about the steps holds of
the runs that sorting gives: they are the parts into which the budget cuts the records.
-/

namespace Reconcile

open Sorting

namespace Disk

theorem refused?_sound (root : SpillRoot) (number : Nat) :
    Disk.sound.refused? root number =
      (root.refusal number).map (.access (runPath root number)) :=
  refused?_of_not_full fun _ => rfl

end Disk

namespace Spill

variable {serializer : Serializer} {order : Order} {budget : Nat} {disk : Disk} {root : SpillRoot}
  {s : Spill}

/-! ## The sort in one piece -/

/-- `Sorting.cut` gives what the files hold that are written while a feed is taken. -/
theorem IsSettled.exists_cut_eq (settled : s.IsSettled root) (serializer : Serializer)
    (order : Order) (budget : Nat) (input : Feed) :
    ∃ more, (s.takeAll serializer order budget .sound input).2.files = s.files ++ more ∧
      cut serializer order budget root s.files.length s.buffer s.size input =
        (s.takeAll serializer order budget .sound input).1.map fun _ =>
          (more.map RunFile.records,
            (s.takeAll serializer order budget .sound input).2.buffer.reverse) := by
  induction input generalizing s with
  | nil => exact ⟨[], (List.append_nil _).symm, rfl⟩
  | cons item rest ih =>
      cases item with
      | error e => exact ⟨[], (List.append_nil _).symm, rfl⟩
      | ok r =>
          rw [takeAll, take, cut]
          simp only
          by_cases exceeds : budget < s.size + serializer.size r
          · have number : (s.push serializer r).files.length = s.files.length := rfl
            rw [if_pos exceeds, if_pos (show budget < (s.push serializer r).size from exceeds)]
            cases refusal : root.refusal s.files.length with
            | some fault =>
                have refused := Disk.refused?_sound root s.files.length
                rw [refusal] at refused
                obtain ⟨s', spilled, -, files⟩ :=
                  (settled.push serializer r).spill_of_refused order refused
                rw [spilled]
                exact ⟨[], by rw [List.append_nil]; exact files, rfl⟩
            | none =>
                have taken := Disk.refused?_sound root s.files.length
                rw [refusal] at taken
                obtain ⟨s', spilled, settled', files, buffer, size⟩ :=
                  (settled.push serializer r).spill_of_taken order taken
                obtain ⟨more, written, cutting⟩ := ih settled'
                rw [files, List.length_append, List.length_singleton, number, buffer, size]
                  at cutting
                rw [spilled]
                refine ⟨(s.push serializer r).nextFile order :: more, ?_, ?_⟩
                · rw [written, files, List.append_assoc]
                  rfl
                · simp only [cutting]
                  cases (takeAll serializer order budget .sound s' rest).1 <;> rfl
          · rw [if_neg exceeds, if_neg (show ¬ budget < (s.push serializer r).size from exceeds)]
            exact ih (settled.push serializer r)

theorem IsSettled.closeRuns_eq (settled : s.IsSettled root) (some_ : s.files ≠ []) :
    closeRuns order root (s.files.map RunFile.records) s.buffer.reverse =
      (s.finish order).1.map fun _ => (s.finish order).2.files.map RunFile.records := by
  rw [closeRuns, finish, List.isEmpty_reverse, List.length_map, List.isEmpty_eq_false_iff.mpr some_,
    Bool.false_or]
  split
  · rfl
  · cases refusal : root.refusal s.files.length with
    | some fault =>
        rw [settled.owns.writeFile_of_refused refusal]
        rfl
    | none =>
        rw [settled.owns.writeFile_of_taken refusal]
        simp [Except.map, nextFile]

/-- The files of chunks are opened as the runs that they are. -/
theorem mapM_reopen {root' : SpillRoot} (name : root'.name = root.name)
    (chunks : List (List Record)) :
    (filesOf order chunks).mapM (RunFile.reopen serializer .sound root') =
      .ok (((filesOf order chunks).map RunFile.records).zipIdx.map fun (records, number) =>
        Run.ofRecords serializer root number records) := by
  have opened (file : RunFile) : file.reopen serializer .sound root' =
      pure ⟨none, (serializer.read (serializer.writeAll file.records)).map fun item =>
        item.mapError fun fault => .access (file.path root) fault⟩ := by
    rw [RunFile.reopen, RunFile.path, name]
    rfl
  rw [funext opened, List.mapM_pure]
  refine congrArg Except.ok ?_
  rw [map_records_filesOf, List.zipIdx_map, filesOf, List.map_map, List.map_map]
  rfl

/-! ## The end of a sort -/

theorem finish_of_nothing (nothing : s.files = []) : s.finish order = (.ok (), s) := by
  rw [finish, nothing]
  rfl

theorem deliver_of_nothing (nothing : s.files = []) (none_ : s.directory = none) :
    s.deliver serializer order disk =
      (.ok ⟨.ofRecords (stable order s.buffer.reverse), [], ⟨Sorted.inMemory, none, none⟩⟩,
        s.root) := by
  rw [deliver, sorted, handle, nothing, none_]
  rfl

theorem deliver_of_runs (settled : s.IsSettled root) (some_ : s.files ≠ []) {runs : List Run}
    (opened : s.files.mapM (RunFile.reopen serializer disk s.root) = .ok runs) :
    s.deliver serializer order disk =
      match mergeRuns order runs with
      | .error e => (.error e, s.abandon)
      | .ok records => (.ok ⟨records, s.files.map RunFile.records,
          ⟨Sorted.spilled, some root.made, none⟩⟩, root.grown) := by
  rcases settled.cases with ⟨nothing, -, -⟩ | ⟨-, own, same⟩
  · exact absurd nothing some_
  · rw [deliver, sorted, handle, own, List.isEmpty_eq_false_iff.mpr some_, opened, same]
    rfl

/-- A sort that has written all its files merges them as the runs that they hold. -/
theorem Holds.deliver_finish {records : List Record} {chunks : List (List Record)}
    (holds : Holds serializer order budget .sound root records chunks s) (some_ : s.files ≠ [])
    {s' : Spill} (finished : s.finish order = (.ok (), s')) :
    s'.deliver serializer order .sound =
      match mergeRuns order ((s'.files.map RunFile.records).zipIdx.map fun (records, number) =>
        .ofRecords serializer root number records) with
      | .error e => (.error e, s'.abandon)
      | .ok records => (.ok ⟨records, s'.files.map RunFile.records,
          ⟨Sorted.spilled, some root.made, none⟩⟩, root.grown) := by
  have writes := holds.finish
  rw [finished] at writes
  have settled : s'.IsSettled root := writes.settled rfl
  have files : s'.files = _ := writes.all rfl
  have someFiles : s'.files ≠ [] := by
    rw [holds.files, Ne, filesOf_eq_nil_iff] at some_
    rwa [files, Ne, filesOf_eq_nil_iff, spilled_eq_nil_iff]
  have opened : s'.files.mapM (RunFile.reopen serializer .sound s'.root) = .ok _ :=
    files ▸ mapM_reopen settled.owns.name_eq _
  exact deliver_of_runs settled someFiles opened

/-! ## Feeds without a failure -/

theorem fillFailure?_ofRecords (disk : Disk) (root : SpillRoot) (chunks : List (List Record))
    (left records : List Record) :
    fillFailure? disk root chunks left (.ofRecords records) =
      disk.firstRefusal? root (spilled chunks left).length := by
  rw [fillFailure?, takeFailure?, Feed.untilFailure_ofRecords, Option.or_none]
  cases refused : disk.firstRefusal? root chunks.length with
  | none => rfl
  | some e => exact (Disk.firstRefusal?_of_le refused (prefix_spilled chunks left).length_le).symm

/-- A sort that has taken one feed goes on with the next. -/
theorem takeAll_append {s' : Spill} {first : Feed}
    (taken : s.takeAll serializer order budget disk first = (.ok (), s')) (rest : Feed) :
    s.takeAll serializer order budget disk (first ++ rest) =
      s'.takeAll serializer order budget disk rest := by
  induction first generalizing s with
  | nil =>
      cases taken
      rfl
  | cons item first ih =>
      cases item with
      | error e => cases taken
      | ok r =>
          rw [takeAll] at taken
          rw [List.cons_append, takeAll]
          cases step : s.take serializer order budget disk r with
          | mk ended next =>
              rw [step] at taken
              cases ended with
              | error e => cases taken
              | ok _ => exact ih taken

/-- Between two records what is in memory fits into the budget. -/
theorem size_buffer_le {records : List Record}
    (taken : (start root).takeAll serializer order budget disk (.ofRecords records) =
      (.ok (), s)) :
    s.size = serializer.sizeOf s.buffer ∧ serializer.sizeOf s.buffer ≤ budget := by
  obtain ⟨chunks, left, takes⟩ :=
    (holds_start serializer order budget disk root).takeAll (.ofRecords records)
  rw [taken] at takes
  have holds := takes.holds rfl
  rw [← Serializer.sizeOf_reverse]
  exact ⟨holds.size, holds.cut.rest⟩

end Spill

namespace Feed

variable {order : Order} {budget : Nat} {root : SpillRoot} {input : Feed} {serializer : Serializer}
  {s : Spill}

theorem sort_of_nothing {left : List Record}
    (cutting : cut serializer order budget root 0 [] 0 input = .ok ([], left)) :
    input.sort order budget root serializer =
      .ok (⟨.ofRecords (stable order left), [], ⟨Sorted.inMemory, none, none⟩⟩, root) := by
  rw [Feed.sort, cutting]
  rfl

theorem sort_of_runs {runs : List (List Record)} {left : List Record} (some_ : runs ≠ [])
    (cutting : cut serializer order budget root 0 [] 0 input = .ok (runs, left)) :
    input.sort order budget root serializer =
      (closeRuns order root runs left).bind fun runs =>
        (mergeRuns order (runs.zipIdx.map fun (records, number) =>
          .ofRecords serializer root number records)).map fun records =>
            (⟨records, runs, ⟨Sorted.spilled, some root.made, none⟩⟩, root.grown) := by
  rw [Feed.sort, cutting]
  simp only [bind, Except.bind, List.isEmpty_eq_false_iff.mpr some_]
  rfl

theorem spill_of_stopped {e : Failure} {disk : Disk}
    (stopped : (Spill.start root).fill serializer order budget disk input = (.error e, s)) :
    input.spill order budget root serializer disk = (.error e, s.abandon) := by
  rw [Feed.spill, stopped]

theorem spill_of_filled {disk : Disk}
    (filled : (Spill.start root).fill serializer order budget disk input = (.ok (), s)) :
    input.spill order budget root serializer disk = s.deliver serializer order disk := by
  rw [Feed.spill, filled]

/-- A sort in one piece is the sort step by step, if directories can be made and files are read as
they were written. -/
theorem sort_eq_spill (order : Order) (budget : Nat) (root : SpillRoot) (input : Feed)
    (serializer : Serializer) :
    input.sort order budget root serializer =
      (input.spill order budget root serializer).1.map fun sorted =>
        (sorted, (input.spill order budget root serializer).2) := by
  obtain ⟨more, files, cutting⟩ :=
    (Spill.isSettled_start root).exists_cut_eq serializer order budget input
  obtain ⟨chunks, left, taken⟩ :=
    (Spill.holds_start serializer order budget .sound root).takeAll input
  have filling := Spill.fill.eq_def serializer order budget .sound (Spill.start root) input
  rcases result : (Spill.start root).takeAll serializer order budget .sound input with ⟨ended, s⟩
  rw [result] at files cutting taken filling
  cases files
  replace cutting : cut serializer order budget root 0 [] 0 input =
    ended.map fun _ => (s.files.map RunFile.records, s.buffer.reverse) := cutting
  cases ended with
  | error e =>
      rw [Feed.sort, cutting, spill_of_stopped filling]
      rfl
  | ok _ =>
      have settled : s.IsSettled root := taken.settled rfl
      have holds := taken.holds rfl
      rcases settled.cases with ⟨nothing, none_, same⟩ | ⟨some_, -, -⟩
      · rw [nothing] at cutting
        have filled := filling.trans (Spill.finish_of_nothing nothing)
        rw [sort_of_nothing cutting, spill_of_filled filled,
          Spill.deliver_of_nothing nothing none_, same]
        rfl
      · have someRuns : s.files.map RunFile.records ≠ [] := by simpa using some_
        rw [sort_of_runs someRuns cutting, settled.closeRuns_eq some_]
        rcases finished : s.finish order with ⟨closed, s'⟩
        cases closed with
        | error e =>
            rw [spill_of_stopped (filling.trans finished)]
            rfl
        | ok _ =>
            rw [spill_of_filled (filling.trans finished), holds.deliver_finish some_ finished]
            simp only [Except.map, Except.bind]
            cases mergeRuns order ((s'.files.map RunFile.records).zipIdx.map
              fun (records, number) => .ofRecords serializer root number records) <;> rfl

theorem sort_eq_ok_iff {sorted : Sorted} {root' : SpillRoot} :
    input.sort order budget root serializer = .ok (sorted, root') ↔
      input.spill order budget root serializer = (.ok sorted, root') := by
  rw [sort_eq_spill]
  rcases input.spill order budget root serializer with ⟨e | _, _⟩ <;> simp [Except.map]

theorem spill_eq_ok {disk : Disk} {sorted : Sorted} {root' : SpillRoot}
    (done : input.spill order budget root serializer disk = (.ok sorted, root')) :
    ∃ s, (Spill.start root).fill serializer order budget disk input = (.ok (), s) ∧
      sorted.runs = s.files.map RunFile.records ∧ sorted.handle = s.handle ∧ root' = s.root := by
  unfold Feed.spill at done
  split at done
  · cases done
  · rename_i s filled
    unfold Spill.deliver at done
    split at done
    · cases done
    · cases done
      exact ⟨s, filled, rfl, rfl, rfl⟩

/-- The runs of a sort are the parts that its records are cut into. -/
theorem runs_of_spill {disk : Disk} {chunks : List (List Record)} {left : List Record}
    (cut : IsCut serializer budget input.untilFailure.1 chunks left) {sorted : Sorted}
    {root' : SpillRoot}
    (done : input.spill order budget root serializer disk = (.ok sorted, root')) :
    sorted.runs = (spilled chunks left).map (stable order) := by
  obtain ⟨s, filled, runs, -⟩ := spill_eq_ok done
  obtain ⟨chunks', left', cut', writes⟩ :=
    Spill.fill_start serializer order budget disk root input
  obtain ⟨rfl, rfl⟩ := cut.unique cut'
  rw [filled] at writes
  have files : s.files = _ := writes.all rfl
  rw [runs, files, map_records_filesOf]

/-- A sort spills its records in parts, each in order and under a name of its own: nothing at all if
the records fit into the budget, and otherwise all of them, every part but the last above the budget
and only so by its last record.  Between two records what is in memory fits into the budget. -/
theorem spill_parts (order : Order) (serializer : Serializer) (budget : Nat) (disk : Disk)
    (root : SpillRoot) (records : List Record) :
    ∃ parts : List (List Record), IsSpilling serializer budget records parts ∧
      ((filesOf order parts).map RunFile.name).Nodup ∧
      (∀ ended s, (Spill.start root).fill serializer order budget disk (.ofRecords records) =
          (ended, s) →
        s.files <+: filesOf order parts ∧
        (ended = .ok () → s.files = filesOf order parts) ∧
        (disk.full = none → (∀ number < parts.length, root.refusal number = none) →
          ended = .ok ()) ∧
        (parts = [] → ended = .ok () ∧ s.directory = none ∧ s.root = root)) ∧
      (∀ front back, front ++ back = records → ∀ s,
        (Spill.start root).takeAll serializer order budget disk (.ofRecords front) = (.ok (), s) →
          (Spill.start root).takeAll serializer order budget disk (.ofRecords records) =
            s.takeAll serializer order budget disk (.ofRecords back) ∧
          s.size = serializer.sizeOf s.buffer ∧ serializer.sizeOf s.buffer ≤ budget) ∧
      (∀ sorted root', Feed.spill order budget root (.ofRecords records) serializer disk =
        (.ok sorted, root') → sorted.runs = parts.map (stable order)) ∧
      ∀ sorted root', Feed.sort order budget root (.ofRecords records) serializer =
        .ok (sorted, root') → sorted.runs = parts.map (stable order) := by
  obtain ⟨chunks, left, cut, writes⟩ :=
    Spill.fill_start serializer order budget disk root (.ofRecords records)
  rw [Spill.fillFailure?_ofRecords] at writes
  have spilling := cut.isSpilling
  rw [untilFailure_ofRecords] at spilling
  refine ⟨spilled chunks left, spilling, nodup_filesOf order _, ?_, ?_, ?_, ?_⟩
  · intro ended s filled
    rw [filled] at writes
    have ends : ended = Spill.outcome (disk.firstRefusal? root (spilled chunks left).length) :=
      writes.ends
    refine ⟨writes.files, writes.all, fun notFull takes => ?_, fun nothing => ?_⟩
    · rw [ends, Spill.outcome_eq_ok_iff, Disk.firstRefusal?_eq_none_iff]
      intro number inside
      rw [Disk.refused?_of_not_full fun _ => notFull, takes number inside]
      rfl
    · rw [nothing] at ends writes
      refine ⟨ends, ?_⟩
      have settled : s.IsSettled root := writes.settled ends
      rcases settled.cases with ⟨-, none_, same⟩ | ⟨some_, -, -⟩
      · exact ⟨none_, same⟩
      · exact absurd (writes.all ends) some_
  · rintro front back rfl s taken
    refine ⟨?_, Spill.size_buffer_le taken⟩
    rw [Feed.ofRecords, List.map_append]
    exact Spill.takeAll_append taken (.ofRecords back)
  · exact fun sorted root' done => runs_of_spill cut done
  · exact fun sorted root' done => runs_of_spill cut (sort_eq_ok_iff.mp done)

/-- Each of these records counts 27 octets: two of them are too many for a budget of 40. -/
example :
    ((Spill.start (.ofName "spill")).fill .jsonLines (Key.compare (.ofIndices [0])) 40 .sound
      (.ofRecords [⟨[.int 2]⟩, ⟨[.int 1]⟩, ⟨[.int 3]⟩])).2.files =
        [⟨"run-00000.jsonl", [⟨[.int 1]⟩, ⟨[.int 2]⟩]⟩, ⟨"run-00001.jsonl", [⟨[.int 3]⟩]⟩] := by
  cbv

end Feed

end Reconcile
