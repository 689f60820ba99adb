import Reconcile.Proofs.FaithfulSorting
import Reconcile.Proofs.FileFeeds
import Reconcile.Proofs.KeptFixtures
import Reconcile.Proofs.SortedViews
import Reconcile.Proofs.ViewEffects

/-!
# Unreadable lines

A line of a fixture that is no record fails a check, wherever it stands: both sides are read to
their ends before the first records are compared, and of the lines that cannot be read the first one
is told, those of the expected source before those of the actual one.
-/

namespace Reconcile

namespace Fixture

/-! ## Lines -/

/-- A line that is no text, or whose text is neither blank nor a record. -/
def IsUnreadable (line : List UInt8) : Prop :=
  decode? line = none ∨ ∃ text, decode? line = some text ∧ Text.trim text ≠ [] ∧
    ∀ r, recordOfText (Text.trim text) ≠ .ok r

theorem isUnreadable_iff {line : List UInt8} :
    IsUnreadable line ↔ ∃ fault, readLine? line = some (.error fault) := by
  unfold IsUnreadable readLine?
  cases decode? line with
  | none => exact iff_of_true (Or.inl rfl) ⟨.malformed, rfl⟩
  | some text =>
      constructor
      · rintro (impossible | ⟨_, same, inside, noRecord⟩)
        · cases impossible
        · obtain rfl := Option.some.inj same
          simp only [List.isEmpty_eq_false_iff.mpr inside, Bool.false_eq_true, if_false]
          cases read : recordOfText (Text.trim text) with
          | error fault => exact ⟨fault, rfl⟩
          | ok r => exact absurd read (noRecord r)
      · rintro ⟨fault, given⟩
        simp only at given
        split at given
        · cases given
        · rename_i inside
          refine Or.inr ⟨text, rfl, fun blank => inside (List.isEmpty_iff.mpr blank),
            fun r read => ?_⟩
          cases read.symm.trans (Option.some.inj given)

theorem exists_isUnreadable_iff {octets : List UInt8} :
    (∃ line ∈ lines octets, IsUnreadable line) ↔ ∃ fault, .error fault ∈ read octets := by
  simp only [isUnreadable_iff, read, List.mem_filterMap]
  constructor
  · rintro ⟨line, member, fault, given⟩
    exact ⟨fault, line, member, given⟩
  · rintro ⟨fault, line, member, given⟩
    exact ⟨line, member, fault, given⟩

end Fixture

theorem Serializer.exists_of_next?_jsonLines_eq_error {octets rest : List UInt8}
    {fault : AccessFault} (next : jsonLines.next? octets = some (.error fault, rest)) :
    ∃ fault, Fixture.next? octets = some (.error fault, rest) := by
  obtain ⟨⟨item, after⟩, taken, same⟩ := Option.map_eq_some_iff.mp next
  obtain ⟨first, rfl⟩ := Prod.mk.inj same
  cases item with
  | ok r => cases first
  | error fault => exact ⟨fault, taken⟩

/-- Whether a path leads to a file in which some line cannot be read. -/
def Store.HasUnreadableLine (files : Store) (path : String) : Prop :=
  ∃ octets, files.read path = .ok octets ∧ ∃ line ∈ Fixture.lines octets, Fixture.IsUnreadable line

/-- Of written records that are kept every line can be read. -/
theorem Store.not_hasUnreadableLine_of_write {files : Store} {path : String} {records : List Record}
    (content : files.read path = .ok (Fixture.write records))
    (kept : ∀ r ∈ records, r.isKept = true) : ¬ files.HasUnreadableLine path := by
  rintro ⟨octets, same, unreadable⟩
  obtain rfl := Except.ok.inj (content.symm.trans same)
  obtain ⟨fault, member⟩ := Fixture.exists_isUnreadable_iff.mp unreadable
  rw [Fixture.read_write] at member
  obtain ⟨r, inRecords, failed⟩ := List.mem_map.mp member
  rw [Fixture.readBackRecord_eq_ok_iff.mpr (kept r inRecords)] at failed
  cases failed

/-! ## Files -/

namespace Reader

/-- A file of fixtures fails under its name if it has an unreadable line, and else not at all. -/
theorem failure_fileItems (path : String) (octets : List UInt8) :
    (∃ line ∈ Fixture.lines octets, Fixture.IsUnreadable line) ∧
        (∃ fault, (fileItems .jsonLines path octets).untilFailure.2 = some (.access path fault)) ∨
      (¬ ∃ line ∈ Fixture.lines octets, Fixture.IsUnreadable line) ∧
        (fileItems .jsonLines path octets).untilFailure.2 = none := by
  rw [Fixture.exists_isUnreadable_iff, fileItems]
  fun_induction Serializer.read .jsonLines octets with
  | case1 octets last =>
      have blank := Fixture.read_of_next?_none (Serializer.next?_jsonLines_eq_none.mp last)
      exact Or.inr ⟨by simp [blank], rfl⟩
  | case2 octets fault rest next =>
      obtain ⟨first, taken⟩ := Serializer.exists_of_next?_jsonLines_eq_error next
      refine Or.inl ⟨⟨first, ?_⟩, fault, rfl⟩
      rw [Fixture.read_of_next?_some taken]
      exact List.mem_cons_self
  | case3 octets r rest next _ ih =>
      rw [Fixture.read_of_next?_some (Serializer.next?_jsonLines_eq_some.mp next)]
      simp only [List.mem_cons, reduceCtorEq, false_or]
      exact ih

/-- What the files of paths give in turn. -/
def filesItems (files : Store) (paths : List String) : Feed :=
  paths.flatMap fun path => (ofFile .jsonLines path).items files

variable {files : Store} {paths : List String}

/-- Files fail with the first one that has an unreadable line. -/
theorem failure_filesItems (readable : ∀ path ∈ paths, ∃ octets, files.read path = .ok octets)
    (unreadable : ∃ path ∈ paths, files.HasUnreadableLine path) :
    ∃ before path after fault, paths = before ++ path :: after ∧
      (∀ earlier ∈ before, ¬ files.HasUnreadableLine earlier) ∧ files.HasUnreadableLine path ∧
      (filesItems files paths).untilFailure.2 = some (.access path fault) := by
  induction paths with
  | nil => simp at unreadable
  | cons path paths ih =>
      obtain ⟨⟨octets, content⟩, readableLater⟩ := List.forall_mem_cons.mp readable
      have items : (ofFile .jsonLines path).items files = fileItems .jsonLines path octets :=
        items_ofFile content
      have here : files.HasUnreadableLine path ↔
          ∃ line ∈ Fixture.lines octets, Fixture.IsUnreadable line := by
        simp [Store.HasUnreadableLine, content]
      rw [filesItems, List.flatMap_cons, ← filesItems, Feed.failure_append, items]
      rcases failure_fileItems path octets with ⟨bad, fault, failed⟩ | ⟨sound, goesOn⟩
      · rw [failed]
        exact ⟨[], path, paths, fault, rfl, List.forall_mem_nil _, here.mpr bad, rfl⟩
      · rw [← here] at sound
        have later : ∃ path ∈ paths, files.HasUnreadableLine path := by
          obtain ⟨bad, member, has⟩ := unreadable
          rcases List.mem_cons.mp member with rfl | inRest
          · exact absurd has sound
          · exact ⟨bad, inRest, has⟩
        obtain ⟨before, bad, after, fault, rfl, earlier, has, failed⟩ := ih readableLater later
        rw [goesOn, Option.none_or]
        exact ⟨path :: before, bad, after, fault, rfl,
          List.forall_mem_cons.mpr ⟨sound, earlier⟩, has, failed⟩

theorem isKept_of_mem_filesItems {r : Record} (member : .ok r ∈ filesItems files paths) :
    r.isKept = true := by
  obtain ⟨path, -, inFile⟩ := List.mem_flatMap.mp member
  exact isKept_of_mem_items ⟨path, _, _, _, rfl⟩ inFile

end Reader

/-! ## Sorting -/

/-- A failure in what is to be sorted is found at every budget. -/
theorem Sorting.cut_of_failure {serializer : Serializer} {order : Order} {budget : Nat}
    {root : SpillRoot} (takes : ∀ number, root.refusal number = none) {input : Feed} {e : Failure}
    (failed : input.untilFailure.2 = some e) (number : Nat) (buffer : List Record) (size : Nat) :
    cut serializer order budget root number buffer size input = .error e := by
  induction input generalizing number buffer size with
  | nil => cases failed
  | cons item rest ih =>
      cases item with
      | error other => exact congrArg Except.error (Option.some.inj failed)
      | ok r =>
          simp only [cut, takes, ih failed]
          split <;> rfl

theorem Feed.sort_of_failure {serializer : Serializer} {order : Sorting.Order} {budget : Nat}
    {root : SpillRoot} (takes : ∀ number, root.refusal number = none) {input : Feed} {e : Failure}
    (failed : input.untilFailure.2 = some e) :
    Feed.sort order budget root input serializer = .error e := by
  rw [Feed.sort, Sorting.cut_of_failure takes failed]
  rfl

/-! ## Checks -/

namespace Source

variable {actual expected s : Source} {c : Comparison} {w : Workspace} {path wanted given : String}

theorem mapM_openFile_eq {files : Store} {paths : List String}
    (readable : ∀ path ∈ paths, ∃ octets, files.read path = .ok octets) :
    paths.mapM (openFile c files) = .ok (paths.map (Reader.ofFile c.serializer)) := by
  induction paths with
  | nil => rfl
  | cons path paths ih =>
      obtain ⟨⟨octets, content⟩, later⟩ := List.forall_mem_cons.mp readable
      rw [List.mapM_cons, ih later, openFile, Store.read_eq_ok_iff.mp content]
      rfl

/-- What readers give is sorted unless there is a failure in it, and the first one is told then. -/
theorem exists_sortReaders {readers : List Reader} {input : Feed}
    (feed : (Input.ofReaders readers).feed w.files = input)
    (takes : ∀ number, w.temp.refusal number = none)
    (reads : c.serializer.ReadsBack input.untilFailure.1) :
    ∃ sorted, (s.sortReaders c readers w).result =
      match input.untilFailure.2 with
      | some e => .error e
      | none => .ok sorted := by
  unfold sortReaders
  rw [feed]
  cases failure : input.untilFailure.2 with
  | some e =>
      refine ⟨[], ?_⟩
      simp only [Feed.sort_of_failure takes failure]
  | none =>
      obtain ⟨sorted, temp, sorts⟩ : ∃ sorted temp, Feed.sort c.compare s.budget w.temp input
          c.serializer = .ok (sorted, temp) := by
        rw [Feed.eq_ofRecords_of_untilFailure failure]
        exact Feed.exists_sort reads takes
      refine ⟨sorted.records, ?_⟩
      simp only [sorts]

/-- A view of files fails with the first failure in them, and else gives something. -/
theorem exists_checkedView (origin : s.origin = .files path) (lines : c.serializer = .jsonLines)
    (takes : ∀ number, w.temp.refusal number = none)
    (readable : ∀ p ∈ inputPaths w.files path, ∃ octets, w.files.read p = .ok octets) :
    ∃ feed, (s.checkedView c w).result =
      match (Reader.filesItems w.files (inputPaths w.files path)).untilFailure.2 with
      | some e => .error e
      | none => .ok feed := by
  have known : s.isInitialized = true ∧ ¬ s.isMarkedEmpty = true := by
    simp [isInitialized, isMarkedEmpty, origin]
  rw [checkedView, if_pos known, sortedViewWith, openReaders, origin]
  simp only [mapM_openFile_eq readable, lines]
  generalize inputPaths w.files path = paths at readable
  cases paths with
  | nil => exact ⟨[], rfl⟩
  | cons first others =>
      have feed :
          (Input.ofReaders ((first :: others).map (Reader.ofFile .jsonLines))).feed w.files =
            (Reader.filesItems w.files (first :: others)).throughFailure := by
        rw [Input.feed_eq_inTurn, Reader.inTurn, List.flatMap_map]
        rfl
      have reads : c.serializer.ReadsBack
          (Reader.filesItems w.files (first :: others)).throughFailure.untilFailure.1 := by
        rw [lines]
        refine Serializer.readsBack_jsonLines fun r member => ?_
        rw [Feed.untilFailure_throughFailure] at member
        exact Reader.isKept_of_mem_filesItems (Feed.mem_of_mem_untilFailure member)
      have sorts := exists_sortReaders (s := s) feed takes reads
      rwa [Feed.untilFailure_throughFailure] at sorts

theorem compareWith_of_failure {e : Failure} (configured : expected.comparison = some c)
    (lines : c.serializer = .jsonLines) (wantedFrom : expected.origin = .files wanted)
    (givenFrom : actual.origin = .files given) (takes : ∀ number, w.temp.refusal number = none)
    (readable : ∀ path ∈ inputPaths w.files wanted ++ inputPaths w.files given,
      ∃ octets, w.files.read path = .ok octets)
    (failed : (Reader.filesItems w.files
      (inputPaths w.files wanted ++ inputPaths w.files given)).untilFailure.2 = some e) :
    (compareWith actual expected w).result = .error e := by
  obtain ⟨wantedReadable, givenReadable⟩ := List.forall_mem_append.mp readable
  obtain ⟨wantedFeed, wantedView⟩ := exists_checkedView wantedFrom lines takes wantedReadable
  rw [Reader.filesItems, List.flatMap_append, ← Reader.filesItems, ← Reader.filesItems,
    Feed.failure_append] at failed
  have known : expected.isInitialized = true := by simp [isInitialized, wantedFrom]
  rw [compareWith, if_pos known, required, configured]
  simp only
  cases failure : (Reader.filesItems w.files (inputPaths w.files wanted)).untilFailure.2 with
  | some first =>
      obtain rfl : first = e := by
        rw [failure] at failed
        exact Option.some.inj failed
      rw [failure] at wantedView
      rw [wantedView]
  | none =>
      rw [failure, Option.none_or] at failed
      rw [failure] at wantedView
      -- The actual side finds the same files, and runs are taken as before.
      obtain ⟨opened, -, opens⟩ := checkedView_effect expected c w
      have alike := opens.alike
      obtain ⟨givenFeed, givenView⟩ :=
        exists_checkedView (w := (expected.checkedView c w).workspace) givenFrom lines
          (alike.refusal ▸ takes) (alike.files ▸ givenReadable)
      rw [alike.files, failed] at givenView
      rw [wantedView]
      simp only [givenView]
      rfl

/-- If a line of any file that is compared is unreadable, a check fails with the first file that has
such a line, those of the expected source coming first: at every budget, and whatever the records
that can be read are. -/
theorem check_unreadable (configured : expected.comparison = some c)
    (lines : c.serializer = .jsonLines) (wantedFrom : expected.origin = .files wanted)
    (givenFrom : actual.origin = .files given) (takes : ∀ number, w.temp.refusal number = none)
    (readable : ∀ path ∈ inputPaths w.files wanted ++ inputPaths w.files given,
      ∃ octets, w.files.read path = .ok octets)
    (unreadable : ∃ path ∈ inputPaths w.files wanted ++ inputPaths w.files given,
      w.files.HasUnreadableLine path) :
    ∃ before path after fault,
      inputPaths w.files wanted ++ inputPaths w.files given = before ++ path :: after ∧
      (∀ earlier ∈ before, ¬ w.files.HasUnreadableLine earlier) ∧
      w.files.HasUnreadableLine path ∧
      (check actual expected w).result = .error (.access path fault) := by
  obtain ⟨before, path, after, fault, split, earlier, has, failed⟩ :=
    Reader.failure_filesItems readable unreadable
  refine ⟨before, path, after, fault, split, earlier, has, ?_⟩
  have compared :=
    compareWith_of_failure configured lines wantedFrom givenFrom takes readable failed
  rw [check_eq, compared]
  rfl

/-- The last file of a directory ends in an open bracket.  It is told, although the first records
differ already. -/
theorem check_unreadable_directory :
    let c := Comparison.ofSchema (.ofTypes "numbers" [.int])
    let files : Store := ⟨[], [(["w"], .file (Fixture.write [⟨[.int 1]⟩])), (["g"], .directory),
      (["g", "a"], .file (Fixture.write [⟨[.int 2]⟩])), (["g", "b"], .file [91])]⟩
    let expected := ((Source.ofComparison c).withBudget 0).load "w"
    let actual := Source.new.load "g"
    ∃ fault, (check actual expected (.ofFiles files (.ofName "spill"))).result =
      .error (.access "g/b" fault) := by
  intro c files expected actual
  have layout (octets octets' : List UInt8) :
      let files : Store := ⟨[], [(["w"], .file octets), (["g"], .directory),
        (["g", "a"], .file octets'), (["g", "b"], .file [91])]⟩
      inputPaths files "w" ++ inputPaths files "g" = ["w", "g/a", "g/b"] ∧
        files.read "w" = .ok octets ∧ files.read "g/a" = .ok octets' ∧
        files.read "g/b" = .ok [91] := by
    intro files
    have leads : files.Leads "g" ["g"] := rfl
    have inside : inputPaths files "g" = ["g/a", "g/b"] := by
      rw [inputPaths, Store.fileNames_eq_insertionSort leads]
      rfl
    refine ⟨?_, rfl, rfl, rfl⟩
    rw [inside]
    rfl
  obtain ⟨paths, wantedContent, givenContent, badContent⟩ :
      inputPaths files "w" ++ inputPaths files "g" = ["w", "g/a", "g/b"] ∧
        files.read "w" = .ok (Fixture.write [⟨[.int 1]⟩]) ∧
        files.read "g/a" = .ok (Fixture.write [⟨[.int 2]⟩]) ∧ files.read "g/b" = .ok [91] :=
    layout _ _
  have configured : expected.comparison = some c := rfl
  have wantedFrom : expected.origin = .files "w" := rfl
  have givenFrom : actual.origin = .files "g" := rfl
  have readable : ∀ path ∈ inputPaths files "w" ++ inputPaths files "g",
      ∃ octets, files.read path = .ok octets := by
    rw [paths]
    simp [wantedContent, givenContent, badContent]
  have wantedSound : ¬ files.HasUnreadableLine "w" :=
    Store.not_hasUnreadableLine_of_write wantedContent (by decide)
  have givenSound : ¬ files.HasUnreadableLine "g/a" :=
    Store.not_hasUnreadableLine_of_write givenContent (by decide)
  have bad : files.HasUnreadableLine "g/b" := by
    refine ⟨[91], badContent, [91], by decide +kernel, ?_⟩
    exact Fixture.isUnreadable_iff.mpr ⟨.truncated, by decide +kernel⟩
  have unreadable : ∃ path ∈ inputPaths files "w" ++ inputPaths files "g",
      files.HasUnreadableLine path := by
    rw [paths]
    exact ⟨"g/b", by simp, bad⟩
  obtain ⟨before, path, after, fault, split, -, has, failed⟩ :=
    check_unreadable (w := .ofFiles files (.ofName "spill")) configured rfl wantedFrom givenFrom
      (fun _ => rfl) readable unreadable
  have member : path ∈ inputPaths files "w" ++ inputPaths files "g" :=
    split ▸ List.mem_append_cons_self
  rw [paths] at member
  simp only [List.mem_cons, List.not_mem_nil, or_false] at member
  obtain rfl | rfl | rfl := member
  · exact absurd has wantedSound
  · exact absurd has givenSound
  · exact ⟨fault, failed⟩

end Source

end Reconcile
