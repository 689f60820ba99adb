import Mathlib.Data.List.Permutation
import Reconcile.Proofs.FixtureRecords
import Reconcile.Proofs.MergedRuns

/-!
# Sorting within a budget

However the budget cuts the input into runs, sorting, spilling and merging them gives the stable
sort of the whole input, as far as the records are read back from the runs.
-/

namespace Reconcile

namespace Sorting

variable {serializer : Serializer} {order : Order} {budget : Nat} {root : SpillRoot}

/-! ## Cutting -/

/-- The runs are sorted pieces of the input, and what is left is the last piece. -/
theorem pieces_of_cut {records buffer left : List Record} {runs : List (List Record)}
    {number size : Nat}
    (done : cut serializer order budget root number buffer size (.ofRecords records) =
      .ok (runs, left)) :
    ∃ pieces : List (List Record), runs = pieces.map (stable order) ∧
      pieces.flatten ++ left = buffer.reverse ++ records := by
  -- What is buffered stands in front of the records that are still to come.
  induction records generalizing number buffer size runs with
  | nil =>
      cases done
      exact ⟨[], rfl, by simp⟩
  | cons r records ih =>
      rw [Feed.ofRecords, List.map_cons, cut, ← Feed.ofRecords] at done
      simp only at done
      split at done
      · split at done
        · cases done
        · obtain ⟨⟨later, last⟩, more, same⟩ := exists_of_bind_eq_ok done
          cases same
          obtain ⟨pieces, rfl, joined⟩ := ih more
          refine ⟨(r :: buffer).reverse :: pieces, rfl, ?_⟩
          rw [List.flatten_cons, List.append_assoc, joined]
          simp
      · obtain ⟨pieces, same, joined⟩ := ih done
        exact ⟨pieces, same, by simpa using joined⟩

theorem exists_cut (takes : ∀ number, root.refusal number = none) (records buffer : List Record)
    (number size : Nat) :
    ∃ result, cut serializer order budget root number buffer size (.ofRecords records) =
      .ok result := by
  induction records generalizing number buffer size with
  | nil => exact ⟨_, rfl⟩
  | cons r records ih =>
      rw [Feed.ofRecords, List.map_cons, cut, ← Feed.ofRecords]
      simp only [takes]
      split
      · obtain ⟨result, more⟩ := ih [] (number + 1) 0
        rw [more]
        exact ⟨_, rfl⟩
      · exact ih (r :: buffer) number _

/-- What is left becomes a piece of its own. -/
theorem pieces_of_closeRuns {pieces runs : List (List Record)} {left : List Record}
    (done : closeRuns order root (pieces.map (stable order)) left = .ok runs) :
    ∃ all : List (List Record), runs = all.map (stable order) ∧
      all.flatten = pieces.flatten ++ left := by
  unfold closeRuns at done
  split at done
  · rename_i empty
    cases done
    exact ⟨pieces, rfl, by rw [List.isEmpty_iff.mp empty, List.append_nil]⟩
  · split at done
    · cases done
    · cases done
      exact ⟨pieces ++ [left], by simp, by simp⟩

theorem exists_closeRuns (takes : ∀ number, root.refusal number = none)
    (runs : List (List Record)) (left : List Record) :
    ∃ all, closeRuns order root runs left = .ok all := by
  unfold closeRuns
  split
  · exact ⟨_, rfl⟩
  · rw [takes]
    exact ⟨_, rfl⟩

/-! ## Merging -/

/-- A run is read as it was written. -/
theorem rest_ofRecords {written : List Record}
    (gives : serializer.Gives (serializer.writeAll written) written) (number : Nat) :
    (Run.ofRecords serializer root number written).rest = .ofRecords written := by
  rw [Run.ofRecords, gives.read_eq, List.map_map]
  rfl

variable [Std.TransCmp order]

/-- Sorted pieces that are read as they were written are merged into the stable sort of the
whole. -/
theorem mergeRuns_pieces {pieces : List (List Record)}
    (gives : ∀ run ∈ pieces.map (stable order), serializer.Gives (serializer.writeAll run) run) :
    mergeRuns order ((pieces.map (stable order)).zipIdx.map fun (records, number) =>
        Run.ofRecords serializer root number records) =
      .ok (.ofRecords (stable order pieces.flatten)) := by
  have given : (((pieces.map (stable order)).zipIdx.map fun (records, number) =>
      Run.ofRecords serializer root number records).map Run.rest) =
        (pieces.map (stable order)).map Feed.ofRecords := by
    have first : (pieces.map (stable order)).map Feed.ofRecords =
        (pieces.map (stable order)).zipIdx.map fun pair => Feed.ofRecords pair.1 := by
      conv => lhs; rw [← List.zipIdx_map_fst 0 (pieces.map (stable order)), List.map_map]
      rfl
    rw [first, List.map_map]
    refine List.map_congr_left fun pair member => ?_
    have inRuns : pair.1 ∈ pieces.map (stable order) := List.fst_mem_of_mem_zipIdx member
    exact rest_ofRecords (gives pair.1 inRuns) pair.2
  rw [mergeRuns_eq given, mergeLists_map_stable]

omit [Std.TransCmp order] in
theorem gives_of_readsBack {pieces : List (List Record)}
    (reads : serializer.ReadsBack pieces.flatten) :
    ∀ run ∈ pieces.map (stable order), serializer.Gives (serializer.writeAll run) run := by
  intro run member
  obtain ⟨piece, inPieces, rfl⟩ := List.mem_map.mp member
  refine reads _ fun r inRun => ?_
  exact List.mem_flatten.mpr ⟨piece, inPieces, (Key.stable_perm order piece).mem_iff.mp inRun⟩

end Sorting

namespace Feed

open Sorting

section

variable {serializer : Serializer} {order : Order} [Std.TransCmp order] {budget : Nat}
  {root root' : SpillRoot} {records : List Record} {sorted : Sorted}

omit [Std.TransCmp order] in
/-- What fits into the budget is sorted at once.  Otherwise sorted pieces are written as runs, and
these are merged. -/
theorem sort_cases
    (done : Feed.sort order budget root (.ofRecords records) serializer = .ok (sorted, root')) :
    sorted.records = .ofRecords (stable order records) ∨
      ∃ pieces : List (List Record), pieces.flatten = records ∧
        mergeRuns order ((pieces.map (stable order)).zipIdx.map fun (records, number) =>
          Run.ofRecords serializer root number records) = .ok sorted.records := by
  unfold Feed.sort at done
  obtain ⟨⟨runs, left⟩, cutting, done⟩ := exists_of_bind_eq_ok done
  obtain ⟨pieces, rfl, joined⟩ := pieces_of_cut cutting
  rw [List.reverse_nil, List.nil_append] at joined
  simp only at done
  split at done
  · rename_i none_
    cases done
    have noPieces : pieces = [] := by simpa using none_
    rw [noPieces, List.flatten_nil, List.nil_append] at joined
    rw [joined]
    exact Or.inl rfl
  · obtain ⟨all, closing, done⟩ := exists_of_bind_eq_ok done
    obtain ⟨pieces, rfl, whole⟩ := pieces_of_closeRuns closing
    obtain ⟨merged, merging, same⟩ := exists_of_bind_eq_ok done
    cases same
    exact Or.inr ⟨pieces, whole.trans joined, merging⟩

/-- Whatever is sorted comes out in the stable order. -/
theorem records_of_sort (reads : serializer.ReadsBack records)
    (done : Feed.sort order budget root (.ofRecords records) serializer = .ok (sorted, root')) :
    sorted.records = .ofRecords (stable order records) := by
  rcases sort_cases done with atOnce | ⟨pieces, rfl, merging⟩
  · exact atOnce
  · rw [mergeRuns_pieces (gives_of_readsBack reads)] at merging
    exact (Except.ok.inj merging).symm

/-- Where every run can be written, sorting succeeds. -/
theorem exists_sort (reads : serializer.ReadsBack records)
    (takes : ∀ number, root.refusal number = none) :
    ∃ sorted root', Feed.sort order budget root (.ofRecords records) serializer =
      .ok (sorted, root') := by
  unfold Feed.sort
  obtain ⟨⟨runs, left⟩, cutting⟩ :
      ∃ result, cut serializer order budget root 0 [] 0 (.ofRecords records) = .ok result :=
    exists_cut takes records [] 0 0
  obtain ⟨pieces, rfl, joined⟩ := pieces_of_cut cutting
  rw [List.reverse_nil, List.nil_append] at joined
  simp only [cutting, bind, Except.bind]
  split
  · exact ⟨_, _, rfl⟩
  · obtain ⟨runs, closing⟩ :
        ∃ runs, closeRuns order root (pieces.map (stable order)) left = .ok runs :=
      exists_closeRuns takes _ left
    obtain ⟨all, rfl, whole⟩ := pieces_of_closeRuns closing
    rw [joined] at whole
    rw [closing]
    simp only
    rw [mergeRuns_pieces (gives_of_readsBack (whole ▸ reads))]
    exact ⟨_, _, rfl⟩

end

/-- At every budget sorting gives the stable sort of its input: each record as often as it came, in
order, and records that the order does not tell apart as they came. -/
theorem sort_stable (order : Order) [Std.TransCmp order] {serializer : Serializer}
    {records : List Record} (reads : serializer.ReadsBack records) {root : SpillRoot}
    (takes : ∀ number, root.refusal number = none) :
    (stable order records).Perm records ∧ IsOrdered order (stable order records) ∧
      (∀ r, tied order r (stable order records) = tied order r records) ∧
      ∀ budget, ∃ sorted root',
        Feed.sort order budget root (.ofRecords records) serializer = .ok (sorted, root') ∧
          sorted.records = .ofRecords (stable order records) := by
  refine ⟨Key.stable_perm order records, isOrdered_stable records,
    fun r => tied_stable r records, fun budget => ?_⟩
  obtain ⟨sorted, root', done⟩ :
      ∃ sorted root', Feed.sort order budget root (.ofRecords records) serializer =
        .ok (sorted, root') := exists_sort reads takes
  exact ⟨sorted, root', done, records_of_sort reads done⟩

/-- With no budget every record is a run of its own, and the first of two equal ones stays first. -/
theorem sort_stable_spilled :
    let order := Key.compare (.ofIndices [0])
    let records : List Record := [⟨[.int 2, .text "b"]⟩, ⟨[.int 1]⟩, ⟨[.int 2, .text "a"]⟩]
    Serializer.jsonLines.ReadsBack records ∧ ∃ sorted root',
      Feed.sort order 0 (.ofName "spill") (.ofRecords records) .jsonLines = .ok (sorted, root') ∧
        sorted.records =
          .ofRecords [⟨[.int 1]⟩, ⟨[.int 2, .text "b"]⟩, ⟨[.int 2, .text "a"]⟩] := by
  intro order records
  have reads : Serializer.jsonLines.ReadsBack records :=
    Serializer.readsBack_jsonLines (by decide)
  have takes (number : Nat) : (SpillRoot.ofName "spill").refusal number = none := rfl
  obtain ⟨-, -, -, sorts⟩ := sort_stable order reads takes
  obtain ⟨sorted, root', done, given⟩ := sorts 0
  have inOrder : stable order records =
      [⟨[.int 1]⟩, ⟨[.int 2, .text "b"]⟩, ⟨[.int 2, .text "a"]⟩] := by
    rw [Sorting.stable_eq_insertionSort]
    decide
  exact ⟨reads, sorted, root', done, given.trans (congrArg Feed.ofRecords inOrder)⟩

end Feed

end Reconcile
