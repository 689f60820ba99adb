import Reconcile.Proofs.ListPasses
import Reconcile.Proofs.SortedViews

/-!
# Remaining records

What a source provides once a file was emptied or made: what it provided before, less what it read
from that file.
-/

namespace Reconcile

namespace Reader

variable {files files' : Store}

/-- The file that a reader reads. -/
def file? (r : Reader) : Option String :=
  match r.source with
  | .file _ path _ _ _ => some path
  | _ => none

/-- A reader keeps to its file. -/
theorem file?_next (files : Store) (reader : Reader) :
    (reader.next files).2.file? = reader.file? := by
  obtain ⟨name, source, problem⟩ := reader
  unfold next
  split
  · rfl
  · cases source with
    | records rest => cases rest <;> rfl
    | script rest announced => cases rest <;> rfl
    | generation g remaining =>
        cases remaining with
        | zero => rfl
        | succ remaining =>
            simp only [read]
            split <;> rfl
    | file serializer path position ahead ended =>
        simp only [read, readFile]
        repeat' split
        all_goals rfl

/-- What a reader gives depends on no file but its own. -/
theorem next_of_agrees {reader last : Reader} {reading : Reading}
    (agrees : ∀ path octets, reader.file? = some path → files.read path = .ok octets →
      files'.read path = .ok octets)
    (given : reader.next files = (reading, last)) (sound : ∀ fault, reading ≠ .fault fault) :
    reader.next files' = (reading, last) := by
  obtain ⟨name, source, problem⟩ := reader
  cases source with
  | records rest => cases rest <;> exact given
  | script rest announced => cases rest <;> exact given
  | generation g remaining => cases remaining <;> exact given
  | file serializer path position ahead ended =>
      cases content : files.read path with
      | ok octets =>
          rw [← given]
          simp only [next, read, readFile, content, agrees path octets rfl content]
      | error fault =>
          cases ended with
          | true => exact given
          | false =>
              simp only [next, reachedEnd, read, readFile, content, Bool.false_eq_true,
                if_false] at given ⊢
              cases taken : serializer.next? ahead with
              | none =>
                  simp only [taken, Prod.mk.injEq] at given
                  exact absurd given.1.symm (sound fault)
              | some pair => simpa only [taken] using given

theorem Yields.of_agrees {reader : Reader} {records : List Record}
    (yields : Yields files reader records)
    (agrees : ∀ path octets, reader.file? = some path → files.read path = .ok octets →
      files'.read path = .ok octets) : Yields files' reader records := by
  induction yields with
  | ended nothing closes =>
      have sound (fault : AccessFault) : Reading.nothing ≠ .fault fault := Reading.noConfusion
      exact Yields.ended (next_of_agrees agrees nothing sound) closes
  | @record reader next r others given _ ih =>
      have sound (fault : AccessFault) : Reading.record r ≠ .fault fault := Reading.noConfusion
      have own : next.file? = reader.file? := by
        rw [← file?_next files reader, given]
      exact Yields.record (next_of_agrees agrees given sound) (ih (own ▸ agrees))

/-- A reader of a file has come to the end or has taken all records, so that it loses none if the
file is emptied. -/
def HasTaken (files : Store) (r : Reader) : Prop :=
  match r.source with
  | .file serializer path position _ ended =>
      ended = true ∨ ∀ octets, files.read path = .ok octets →
        serializer.next? (octets.drop position) = none
  | _ => True

/-- A reader is closed as it was made to be. -/
theorem problem_next (files : Store) (reader : Reader) :
    (reader.next files).2.problem = reader.problem := by
  unfold next
  split <;> rfl

theorem Yields.problem_eq_none {reader : Reader} {records : List Record}
    (yields : Yields files reader records) : reader.problem = none := by
  induction yields with
  | @ended reader last nothing closes =>
      rw [← closes, ← problem_next files reader, nothing]
  | @record reader next r others given _ ih =>
      rw [← ih, ← problem_next files reader, given]

/-- Once all of an emptied file was taken, nothing comes. -/
theorem next_of_emptied {name path : String} {serializer : Serializer} {position : Nat}
    {ahead : List UInt8} {problem : Option String} (used : serializer.next? ahead = none)
    (emptied : files.read path = .ok []) :
    next files ⟨name, .file serializer path position ahead false, problem⟩ =
      (.nothing, ⟨name, .file serializer path 0 [] true, problem⟩) := by
  simp [next, reachedEnd, read, readFile, used, emptied, serializer.next?_nil]

/-- Nothing comes of a file only once all of it was taken. -/
theorem exists_of_readFile_nothing {serializer : Serializer} {path : String} {position : Nat}
    {ahead : List UInt8}
    (nothing : (readFile serializer files path position ahead).1 = .nothing) :
    serializer.next? ahead = none ∧ ∃ octets, files.read path = .ok octets ∧
      serializer.next? (octets.drop position) = none := by
  have given (item : Except AccessFault Record) : readFile.ofItem item ≠ .nothing := by
    cases item <;> exact Reading.noConfusion
  unfold readFile at nothing
  split at nothing
  · rename_i item rest taken
    exact absurd nothing (given item)
  · rename_i used
    split at nothing
    · cases nothing
    · rename_i octets content
      split at nothing
      · rename_i item rest taken
        exact absurd nothing (given item)
      · rename_i last
        exact ⟨used, octets, content, last⟩

/-- Once its file is emptied, a reader gives what it had taken, and that is all it gave if it had
taken all. -/
theorem Yields.exists_left {reader : Reader} {records : List Record}
    (yields : Yields files reader records) {path : String} (own : reader.file? = some path)
    (emptied : ∀ octets, files.read path = .ok octets → files'.read path = .ok []) :
    ∃ left, Yields files' reader left ∧ left.Sublist records ∧
      (left = records ↔ reader.HasTaken files) := by
  induction yields with
  | @ended reader last nothing closes =>
      obtain ⟨name, source, problem⟩ := reader
      cases source with
      | file serializer path position ahead ended =>
          obtain rfl := Option.some.inj own
          cases ended with
          | true =>
              exact ⟨[], Yields.ended nothing closes, List.Sublist.refl [],
                iff_of_true rfl (Or.inl rfl)⟩
          | false =>
              obtain ⟨first, rfl⟩ := Prod.mk.inj nothing
              obtain ⟨used, octets, content, last⟩ := exists_of_readFile_nothing first
              refine ⟨[], Yields.ended (next_of_emptied used (emptied octets content)) closes,
                List.Sublist.refl [], iff_of_true rfl (Or.inr fun octets' content' => ?_)⟩
              rwa [← Except.ok.inj (content.symm.trans content')]
      | _ => cases own
  | @record reader after r others given later ih =>
      obtain ⟨name, source, problem⟩ := reader
      cases source with
      | file serializer path position ahead ended =>
          obtain rfl := Option.some.inj own
          obtain ⟨rfl, source, read_, rfl⟩ := exists_of_next_file given
          obtain ⟨rest, taken, rfl⟩ | ⟨used, octets, rest, content, taken, rfl⟩ :=
            exists_of_readFile read_
          · obtain ⟨left, gives, inside, all⟩ := ih rfl
            refine ⟨r :: left, Yields.record ?_ gives, inside.cons_cons r, ?_⟩
            · simp [next, reachedEnd, read, readFile, taken, readFile.ofItem]
            · rw [List.cons_inj_right]
              exact all
          · have closes : problem = none := later.problem_eq_none
            refine ⟨[], Yields.ended (next_of_emptied used (emptied octets content)) closes,
              List.nil_sublist (r :: others), iff_of_false (List.cons_ne_nil r others).symm ?_⟩
            rintro (ended | nothing)
            · cases ended
            · cases taken.symm.trans (nothing octets content)
      | _ => cases own

end Reader

namespace Source

/-! ## What is left -/

variable {s : Source} {before files : Store} {serializer : Serializer} {path : String}
  {records : List Record}

/-- Of what the source reads from the file at a path no record could be lost: the files that it
loads hold none there, and a reader has taken all. -/
structure Spares (s : Source) (before after : Store) (serializer : Serializer)
    (path : String) : Prop where
  loaded : ∀ own, s.origin = .files own → ∀ other ∈ inputPaths before own,
    after.SamePlace other path → FileGives before serializer other []
  taken : ∀ reader, s.origin = .reader reader → ∀ own, reader.file? = some own →
    after.SamePlace own path → reader.HasTaken before

theorem spares_iff_loaded {own : String} (origin : s.origin = .files own) :
    s.Spares before files serializer path ↔ ∀ other ∈ inputPaths before own,
      files.SamePlace other path → FileGives before serializer other [] := by
  constructor
  · intro spares
    exact spares.loaded own origin
  · intro spares
    refine ⟨fun other same => ?_, fun reader same => ?_⟩
    · cases origin.symm.trans same
      exact spares
    · cases origin.symm.trans same

theorem spares_iff_taken {reader : Reader} (origin : s.origin = .reader reader) :
    s.Spares before files serializer path ↔ ∀ own, reader.file? = some own →
      files.SamePlace own path → reader.HasTaken before := by
  constructor
  · intro spares
    exact spares.taken reader origin
  · intro spares
    refine ⟨fun other same => ?_, fun other same => ?_⟩
    · cases origin.symm.trans same
    · cases origin.symm.trans same
      exact spares

theorem spares_of_unread (noFiles : ∀ own, s.origin ≠ .files own)
    (noReader : ∀ reader, s.origin ≠ .reader reader) :
    s.Spares before files serializer path :=
  ⟨fun own origin => absurd origin (noFiles own),
    fun reader origin => absurd origin (noReader reader)⟩

/-- After emptying a path a file gives what it gave, or nothing if it is at that path. -/
theorem FileGives.exists_left (emptied : before.write path [] = .ok files) {other : String}
    (gives : FileGives before serializer other records) :
    ∃ left, FileGives files serializer other left ∧ left.Sublist records ∧
      (left = records ↔
        (files.SamePlace other path → FileGives before serializer other [])) := by
  obtain ⟨octets, content, given⟩ := gives
  by_cases same : files.SamePlace other path
  · refine ⟨[], ⟨[], Store.read_samePlace emptied content same, serializer.gives_nil⟩,
      List.nil_sublist records, ?_⟩
    constructor
    · rintro rfl -
      exact ⟨octets, content, given⟩
    · intro spared
      obtain ⟨octets', content', nothing⟩ := spared same
      obtain rfl := Except.ok.inj (content.symm.trans content')
      exact nothing.unique given
  · exact ⟨records, ⟨octets, Store.read_apart emptied content same, given⟩,
      List.Sublist.refl records, fun _ here => absurd here same, fun _ => rfl⟩

theorem exists_lists_left (emptied : before.write path [] = .ok files) {paths : List String}
    {parts : List (List Record)}
    (contents : List.Forall₂ (FileGives before serializer) paths parts) :
    ∃ left, List.Forall₂ (FileGives files serializer) paths left ∧
      left.flatten.Sublist parts.flatten ∧ (left.flatten = parts.flatten ↔
        ∀ other ∈ paths, files.SamePlace other path → FileGives before serializer other []) := by
  induction contents with
  | nil => exact ⟨[], List.Forall₂.nil, List.Sublist.refl _, by simp⟩
  | @cons other part paths parts first _ ih =>
      obtain ⟨rest, gives, inside, spared⟩ := ih
      obtain ⟨left, givesFirst, insideFirst, sparedFirst⟩ := first.exists_left emptied
      refine ⟨left :: rest, List.Forall₂.cons givesFirst gives, insideFirst.append inside, ?_⟩
      rw [List.forall_mem_cons, ← sparedFirst, ← spared, List.flatten_cons, List.flatten_cons]
      constructor
      · intro same
        have lengths := congrArg List.length same
        rw [List.length_append, List.length_append] at lengths
        have short := insideFirst.length_le
        have shortRest := inside.length_le
        exact ⟨insideFirst.eq_of_length (by omega), inside.eq_of_length (by omega)⟩
      · rintro ⟨rfl, same⟩
        rw [same]

/-- A source that was only added to reads nothing. -/
theorem origin_foldl_of_fresh {start : Source} (fresh : start.origin = .unset)
    (additions : List Addition) :
    (additions.foldl Addition.apply start).origin = .unset ∨
      ∃ records, (additions.foldl Addition.apply start).origin = .records records := by
  cases additions with
  | nil => exact Or.inl fresh
  | cons addition additions =>
      have added : (Addition.apply start addition).origin = .records addition.records := by
        rw [Addition.apply_eq_addAll, addAll, fresh]
      exact Or.inr ⟨_, Addition.origin_foldl_apply added additions⟩

/-- After emptying a path the source provides what is left of its records. -/
theorem Provides.exists_left (provides : s.Provides before serializer records)
    (stands : before.Stands before.base) (emptied : before.write path [] = .ok files) :
    ∃ left, s.Provides files serializer left ∧ left.Sublist records ∧
      (left = records ↔ s.Spares before files serializer path) := by
  cases provides with
  | @added start fresh additions =>
      refine ⟨_, Provides.added fresh additions, List.Sublist.refl _,
        iff_of_true rfl (spares_of_unread (fun own same => ?_) fun reader same => ?_)⟩
      all_goals
        obtain origin | ⟨held, origin⟩ := origin_foldl_of_fresh fresh additions
        · cases origin.symm.trans same
        · cases origin.symm.trans same
  | @held s records origin =>
      exact ⟨_, Provides.held origin, List.Sublist.refl _,
        iff_of_true rfl (spares_of_unread (by simp [origin]) (by simp [origin]))⟩
  | @empty s origin =>
      exact ⟨_, Provides.empty origin, List.Sublist.refl _,
        iff_of_true rfl (spares_of_unread (by simp [origin]) (by simp [origin]))⟩
  | @file s own records origin gives =>
      obtain ⟨left, givesLeft, inside, spared⟩ := gives.exists_left emptied
      refine ⟨left, Provides.file origin givesLeft, inside, ?_⟩
      rw [spared, spares_iff_loaded origin, gives.inputPaths_eq]
      simp
  | @directory s directory parts origin isDirectory contents =>
      obtain ⟨left, givesLeft, inside, spared⟩ :=
        exists_lists_left emptied (List.forall₂_map_left_iff.mpr contents)
      have paths : inputPaths before directory =
          (before.fileNames directory).map (Store.join directory) := if_pos isDirectory
      rw [← paths, ← spares_iff_loaded origin] at spared
      have gives := List.forall₂_map_left_iff.mp givesLeft
      obtain ⟨others, given, same⟩ : ∃ others, List.Forall₂ (fun name part =>
          FileGives files serializer (Store.join directory name) part)
          (files.fileNames directory) others ∧ others.flatten = left.flatten := by
        rcases Store.fileNames_write emptied stands isDirectory with same | ⟨name, content, same⟩
        · exact ⟨left, same ▸ gives, rfl⟩
        · -- The file that was emptied gives nothing wherever its name comes in order.
          have only (part : List Record)
              (given : FileGives files serializer (Store.join directory name) part) :
              part = [] := by
            obtain ⟨octets, content', gives⟩ := given
            obtain rfl := Except.ok.inj (content.symm.trans content')
            exact gives.unique serializer.gives_nil
          obtain ⟨others, given, flat⟩ := exists_forall₂_filter gives only
          rw [← same] at given
          obtain ⟨all, givenAll, flatAll⟩ :=
            exists_forall₂_of_filter given ⟨[], content, serializer.gives_nil⟩
          exact ⟨all, givenAll, flatAll.trans flat⟩
      rw [← same] at inside spared
      exact ⟨_, Provides.directory origin (Store.isDirectory_write emptied isDirectory) given,
        inside, spared⟩
  | @reader s reader records origin yields =>
      by_cases reads : ∃ own, reader.file? = some own ∧ files.SamePlace own path
      · obtain ⟨own, readsOwn, same⟩ := reads
        obtain ⟨left, gives, inside, all⟩ := yields.exists_left readsOwn
          fun octets content => Store.read_samePlace emptied content same
        refine ⟨left, Provides.reader origin gives, inside, ?_⟩
        rw [all, spares_iff_taken origin]
        constructor
        · intro taken _ _ _
          exact taken
        · intro taken
          exact taken own readsOwn same
      · have apart (own : String) (readsOwn : reader.file? = some own) :
            ¬ files.SamePlace own path := fun same => reads ⟨own, readsOwn, same⟩
        refine ⟨records, Provides.reader origin ?_, List.Sublist.refl _, iff_of_true rfl ?_⟩
        · exact yields.of_agrees fun own octets readsOwn content =>
            Store.read_apart emptied content (apart own readsOwn)
        · rw [spares_iff_taken origin]
          intro own readsOwn same
          exact absurd same (apart own readsOwn)

end Source

end Reconcile
