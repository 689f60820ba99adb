import Reconcile.Proofs.BudgetedSort
import Reconcile.Proofs.ReadersInTurn
import Reconcile.Proofs.StoreWrites
import Reconcile.Source.Viewing

/-!
# Sorted views

The sorted view of a source is the stable sort of its records, wherever these come from: memory, a
file, the files of a directory or a reader.
-/

namespace Reconcile

namespace Source

open Sorting (stable)

/-! ## Records in memory -/

/-- A way of adding records to those in memory. -/
inductive Addition where
  | add (r : Record)
  | addAll (records : List Record)
  | addValues (values : List Value)

namespace Addition

def records : Addition → List Record
  | add r => [r]
  | addAll records => records
  | addValues values => [⟨values⟩]

def apply (s : Source) : Addition → Source
  | add r => s.add r
  | addAll records => s.addAll records
  | addValues values => s.addValues values

theorem apply_eq_addAll (s : Source) (addition : Addition) :
    apply s addition = s.addAll addition.records := by
  cases addition with
  | add r => rfl
  | addAll records => rfl
  | addValues values => rfl

theorem origin_foldl_apply {s : Source} {before : List Record} (origin : s.origin = .records before)
    (additions : List Addition) :
    (additions.foldl apply s).origin = .records (before ++ additions.flatMap records) := by
  induction additions generalizing s before with
  | nil => rw [List.flatMap_nil, List.append_nil]; exact origin
  | cons addition additions ih =>
      have added : (apply s addition).origin = .records (before ++ addition.records) := by
        rw [apply_eq_addAll, Source.addAll, origin]
      rw [List.foldl_cons, ih added, List.flatMap_cons, List.append_assoc]

end Addition

/-! ## What a source provides -/

/-- The records that can be read from a file. -/
def FileGives (files : Store) (serializer : Serializer) (path : String)
    (records : List Record) : Prop :=
  ∃ octets, files.read path = .ok octets ∧ serializer.Gives octets records

/-- The records that a source provides: those that were added to a new one or are held in memory,
none if it is said to be empty, those of its file, those of the files of its directory by name, or
those of its reader. -/
inductive Provides (files : Store) (serializer : Serializer) : Source → List Record → Prop where
  | added {start : Source} (fresh : start.origin = .unset) (additions : List Addition) :
      Provides files serializer (additions.foldl Addition.apply start)
        (additions.flatMap Addition.records)
  | held {s : Source} {records : List Record} (origin : s.origin = .records records) :
      Provides files serializer s records
  | empty {s : Source} (origin : s.origin = .empty) : Provides files serializer s []
  | file {s : Source} {path : String} {records : List Record} (origin : s.origin = .files path)
      (gives : FileGives files serializer path records) : Provides files serializer s records
  | directory {s : Source} {path : String} {parts : List (List Record)}
      (origin : s.origin = .files path) (isDirectory : files.isDirectory path = true)
      (contents : List.Forall₂ (fun name part =>
        FileGives files serializer (Store.join path name) part) (files.fileNames path) parts) :
      Provides files serializer s parts.flatten
  | reader {s : Source} {reader : Reader} {records : List Record}
      (origin : s.origin = .reader reader) (yields : reader.Yields files records) :
      Provides files serializer s records

variable {c : Comparison} {files : Store}

/-- Files that can be read are opened, and give what is read from them. -/
theorem mapM_openFile {paths : List String} {parts : List (List Record)}
    (contents : List.Forall₂ (FileGives files c.serializer) paths parts) :
    ∃ readers, paths.mapM (openFile c files) = .ok readers ∧
      List.Forall₂ (Reader.Yields files) readers parts := by
  induction contents with
  | nil => exact ⟨[], rfl, List.Forall₂.nil⟩
  | @cons path part paths parts first _ ih =>
      obtain ⟨octets, content, gives⟩ := first
      obtain ⟨readers, opened, yields⟩ := ih
      refine ⟨Reader.ofFile c.serializer path :: readers, ?_,
        List.Forall₂.cons (Reader.yields_ofFile content gives) yields⟩
      rw [List.mapM_cons, opened, openFile, Store.read_eq_ok_iff.mp content]
      rfl

theorem FileGives.inputPaths_eq {serializer : Serializer} {path : String} {records : List Record}
    (gives : FileGives files serializer path records) : inputPaths files path = [path] := by
  obtain ⟨octets, content, -⟩ := gives
  rw [inputPaths, Store.isDirectory, Store.read_eq_ok_iff.mp content]
  rfl

/-- Whatever is not in memory is read from readers in turn. -/
theorem Provides.cases_memory {s : Source} {records : List Record}
    (provides : s.Provides files c.serializer records) :
    s.origin = .records records ∨ (∀ before, s.origin ≠ .records before) ∧
      ∃ readers lists, s.openReaders c files = .ok readers ∧
        List.Forall₂ (Reader.Yields files) readers lists ∧ lists.flatten = records := by
  cases provides with
  | @added start fresh additions =>
      cases additions with
      | nil =>
          -- Without additions the source is as new, and there is nothing to read.
          refine Or.inr ⟨?_, [], [], ?_, List.Forall₂.nil, rfl⟩
          · intro before origin
            cases fresh.symm.trans origin
          · rw [openReaders, List.foldl_nil, fresh]
      | cons addition additions =>
          have added : (Addition.apply start addition).origin = .records addition.records := by
            rw [Addition.apply_eq_addAll, addAll, fresh]
          exact Or.inl (Addition.origin_foldl_apply added additions)
  | held origin => exact Or.inl origin
  | @empty s origin =>
      refine Or.inr ⟨?_, [], [], ?_, List.Forall₂.nil, rfl⟩
      · intro before other
        cases origin.symm.trans other
      · rw [openReaders, origin]
  | @file s path records origin gives =>
      obtain ⟨readers, opened, yields⟩ := mapM_openFile (List.Forall₂.cons gives List.Forall₂.nil)
      refine Or.inr ⟨?_, readers, [records], ?_, yields, List.append_nil records⟩
      · intro before other
        cases origin.symm.trans other
      · rw [openReaders, origin, ← opened]
        simp only [gives.inputPaths_eq]
  | @directory s path parts origin isDirectory contents =>
      have paths : inputPaths files path = (files.fileNames path).map (Store.join path) :=
        if_pos isDirectory
      obtain ⟨readers, opened, yields⟩ := mapM_openFile (List.forall₂_map_left_iff.mpr contents)
      refine Or.inr ⟨?_, readers, parts, ?_, yields, rfl⟩
      · intro before other
        cases origin.symm.trans other
      · rw [openReaders, origin, ← opened]
        simp only [paths]
  | @reader s reader records origin yields =>
      refine Or.inr ⟨?_, [reader], [records], ?_, List.Forall₂.cons yields List.Forall₂.nil,
        List.append_nil records⟩
      · intro before other
        cases origin.symm.trans other
      · rw [openReaders, origin]

/-! ## Views -/

/-- The sorted view by any comparison whose serializer reads the records back.  It fails only where
a run cannot be written. -/
theorem Provides.sortedViewWith_cases {s : Source} {records : List Record} {w : Workspace}
    (provides : s.Provides w.files c.serializer records)
    (reads : c.serializer.ReadsBack records) :
    (s.sortedViewWith c w).result = .ok (.ofRecords (stable c.compare records)) ∨
      (∃ e, (s.sortedViewWith c w).result = .error e) ∧
        ¬ ∀ number, w.temp.refusal number = none := by
  rcases provides.cases_memory with origin | ⟨elsewhere, readers, lists, opened, yields, rfl⟩
  · left
    unfold sortedViewWith
    rw [origin]
  · unfold sortedViewWith
    split
    · rename_i before origin
      exact absurd origin (elsewhere before)
    · rw [opened]
      cases readers with
      | nil =>
          cases yields
          rw [List.flatten_nil, stable, List.mergeSort_nil]
          exact Or.inl rfl
      | cons reader readers =>
          simp only [sortReaders, Input.feed_ofReaders yields]
          cases done : Feed.sort c.compare s.budget w.temp (.ofRecords lists.flatten)
              c.serializer with
          | ok result =>
              exact Or.inl (congrArg Except.ok (Feed.records_of_sort reads done))
          | error e =>
              refine Or.inr ⟨⟨e, rfl⟩, fun takes => ?_⟩
              obtain ⟨sorted, temp, sorts⟩ : ∃ sorted temp, Feed.sort c.compare s.budget w.temp
                  (.ofRecords lists.flatten) c.serializer = .ok (sorted, temp) :=
                Feed.exists_sort reads takes
              cases done.symm.trans sorts

/-- A source that counts as having no records provides none. -/
theorem Provides.eq_nil {s : Source} {records : List Record}
    (provides : s.Provides files c.serializer records)
    (unknown : ¬ (s.isInitialized = true ∧ ¬ s.isMarkedEmpty = true)) : records = [] := by
  have noReaders {readers : List Reader} {lists : List (List Record)}
      (yields : List.Forall₂ (Reader.Yields files) readers lists) (none_ : readers = []) :
      lists.flatten = [] := by
    subst none_
    cases yields
    rfl
  rcases provides.cases_memory with origin | ⟨elsewhere, readers, lists, opened, yields, rfl⟩
  · simpa [isInitialized, isMarkedEmpty, origin] using unknown
  · cases origin : s.origin with
    | records before => exact absurd origin (elsewhere before)
    | files path => simp [isInitialized, isMarkedEmpty, origin] at unknown
    | reader reader => simp [isInitialized, isMarkedEmpty, origin] at unknown
    | unset =>
        rw [openReaders, origin] at opened
        exact noReaders yields (Except.ok.inj opened).symm
    | empty =>
        rw [openReaders, origin] at opened
        exact noReaders yields (Except.ok.inj opened).symm

theorem Provides.sortedView_cases {s : Source} {records : List Record} {w : Workspace}
    (provides : s.Provides w.files c.serializer records)
    (reads : c.serializer.ReadsBack records) (configured : s.comparison = some c) :
    (s.sortedView w).result = .ok (.ofRecords (stable c.compare records)) ∨
      (∃ e, (s.sortedView w).result = .error e) ∧
        ¬ ∀ number, w.temp.refusal number = none := by
  unfold sortedView
  split
  · rw [required, configured]
    exact provides.sortedViewWith_cases reads
  · rename_i unknown
    rw [provides.eq_nil unknown, stable, List.mergeSort_nil]
    exact Or.inl rfl

/-- However records are provided, and at whatever budget, their sorted view is their stable sort:
by a given comparison as well as by the source's own. -/
theorem sortedView_stable {c : Comparison} {records : List Record}
    (reads : c.serializer.ReadsBack records) {w : Workspace}
    (takes : ∀ number, w.temp.refusal number = none) {s : Source}
    (provides : s.Provides w.files c.serializer records) :
    (s.sortedViewWith c w).result = .ok (.ofRecords (stable c.compare records)) ∧
      (s.comparison = some c →
        (s.sortedView w).result = .ok (.ofRecords (stable c.compare records))) := by
  constructor
  · exact (provides.sortedViewWith_cases reads).resolve_right fun failed => failed.2 takes
  · intro configured
    exact (provides.sortedView_cases reads configured).resolve_right fun failed => failed.2 takes

/-- Two files of a directory, the second of which begins with a blank line, and no budget. -/
theorem sortedView_stable_directory :
    let c := Comparison.ofSchema (.ofTypes "pairs" [.int, .text])
    let first : List Record := [⟨[.int 2, .text "b"]⟩]
    let second : List Record := [⟨[.int 1, .null]⟩, ⟨[.int 2, .text "b", .bool true]⟩]
    let files : Store := ⟨[], [(["d"], .directory),
      (["d", "b"], .file (Fixture.lineFeed :: Fixture.write second)),
      (["d", "a"], .file (Fixture.write first))]⟩
    let s := ((Source.ofComparison c).withBudget 0).load "d"
    c.serializer.ReadsBack (first ++ second) ∧
      s.Provides files c.serializer (first ++ second) ∧
      (s.sortedView (.ofFiles files (.ofName "spill"))).result = .ok (.ofRecords
        [⟨[.int 1, .null]⟩, ⟨[.int 2, .text "b"]⟩, ⟨[.int 2, .text "b", .bool true]⟩]) := by
  intro c first second files s
  have reads : c.serializer.ReadsBack (first ++ second) :=
    Serializer.readsBack_jsonLines (by decide)
  have layout (octets octets' : List UInt8) :
      let files : Store := ⟨[], [(["d"], .directory), (["d", "b"], .file octets'),
        (["d", "a"], .file octets)]⟩
      files.isDirectory "d" = true ∧ files.fileNames "d" = ["a", "b"] ∧
        files.read (Store.join "d" "a") = .ok octets ∧
        files.read (Store.join "d" "b") = .ok octets' := by
    intro files
    have leads : files.Leads "d" ["d"] := rfl
    refine ⟨rfl, ?_, rfl, rfl⟩
    rw [Store.fileNames_eq_insertionSort leads]
    rfl
  obtain ⟨isDirectory, names, contentFirst, contentSecond⟩ :=
    layout (Fixture.write first) (Fixture.lineFeed :: Fixture.write second)
  have givesFirst : c.serializer.Gives (Fixture.write first) first :=
    Serializer.gives_writeAll_iff.mpr (by decide)
  have givesSecond : c.serializer.Gives (Fixture.lineFeed :: Fixture.write second) second :=
    Serializer.gives_cons_lineFeed.mpr (Serializer.gives_writeAll_iff.mpr (by decide))
  have provides : s.Provides files c.serializer (first ++ second) := by
    change s.Provides files c.serializer [first, second].flatten
    refine Provides.directory rfl isDirectory ?_
    rw [names]
    exact List.Forall₂.cons ⟨_, contentFirst, givesFirst⟩
      (List.Forall₂.cons ⟨_, contentSecond, givesSecond⟩ List.Forall₂.nil)
  have takes (number : Nat) : (SpillRoot.ofName "spill").refusal number = none := rfl
  let w := Workspace.ofFiles files (.ofName "spill")
  obtain ⟨-, view⟩ := sortedView_stable (w := w) reads takes provides
  have inOrder : stable c.compare (first ++ second) =
      [⟨[.int 1, .null]⟩, ⟨[.int 2, .text "b"]⟩, ⟨[.int 2, .text "b", .bool true]⟩] := by
    rw [Sorting.stable_eq_insertionSort]
    decide
  rw [inOrder] at view
  exact ⟨reads, provides, view rfl⟩

end Source

end Reconcile
