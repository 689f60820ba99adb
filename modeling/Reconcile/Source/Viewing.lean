import Reconcile.Preview
import Reconcile.Source.Basic

/-!
# Views of sources

The records of a source in the order of its origin, or sorted by key.  What a sorted view has
opened stays with the source until that is closed.
-/

namespace Reconcile

namespace Source

/-- How a use of a source ends, and what it leaves behind. -/
structure Outcome (α : Type) where
  result : Except Failure α
  source : Source
  workspace : Workspace

/-- Goes on with a result, unless it is a failure. -/
def Outcome.andThen {α β : Type} (o : Outcome α) (next : α → Source → Workspace → Outcome β) :
    Outcome β :=
  match o.result with
  | .ok a => next a o.source o.workspace
  | .error e => ⟨.error e, o.source, o.workspace⟩

/-! ## Readers -/

/-- The paths that are read for a path: those of the files of a directory, or the path itself. -/
def inputPaths (files : Store) (path : String) : List String :=
  if files.isDirectory path then (files.fileNames path).map (Store.join path) else [path]

/-- Opens the readers of records that are not in memory. -/
def openReaders (s : Source) (c : Comparison) (files : Store) : Except Failure (List Reader) :=
  match s.origin with
  | .files path format => (inputPaths files path).mapM (format c files)
  | .reader reader => .ok [reader]
  | _ => .ok []

/-- The records in the order of their origin. -/
def records (s : Source) (files : Store) : Except Failure Input :=
  match s.origin with
  | .unset => .ok (.ofReaders [])
  | .empty => .ok (.ofReaders [])
  | .records records => .ok (.ofReaders [.ofRecords "records" records])
  | _ => do
      let c ← s.required
      return .ofReaders (← s.openReaders c files)

/-! ## Sorted views -/

/-- Sorts what readers give, and keeps the handle. -/
def sortReaders (s : Source) (c : Comparison) (readers : List Reader) (w : Workspace) :
    Outcome Feed :=
  let input := (Input.ofReaders readers).feed w.files
  match Feed.sort c.compare s.budget w.temp input c.serializer with
  | .error e => ⟨.error e, s, w⟩
  | .ok (sorted, temp) =>
      let handle := match s.merger.problem s.merger.issued with
        | some problem => { sorted.handle with problem := some problem }
        | none => sorted.handle
      ⟨.ok sorted.records,
        { s with
          handles := s.handles.add handle
          merger := { s.merger with issued := s.merger.issued + 1 } },
        { w with temp := temp }⟩

/-- The records sorted by the key of a comparison.  Records in memory stay sorted. -/
def sortedViewWith (s : Source) (c : Comparison) (w : Workspace) : Outcome Feed :=
  match s.origin with
  | .records records =>
      let sorted := Sorting.stable c.compare records
      ⟨.ok (.ofRecords sorted), { s with origin := .records sorted }, w⟩
  | _ =>
      match s.openReaders c w.files with
      | .error e => ⟨.error e, s, w⟩
      | .ok [] => ⟨.ok [], s, w⟩
      | .ok readers => s.sortReaders c readers w

/-- The records sorted by the key of the source's own comparison. -/
def sortedView (s : Source) (w : Workspace) : Outcome Feed :=
  if s.isInitialized ∧ ¬ s.isMarkedEmpty then
    match s.required with
    | .ok c => s.sortedViewWith c w
    | .error e => ⟨.error e, s, w⟩
  else ⟨.ok [], s, w⟩

/-! ## Uses of the sorted view -/

/-- How many records the preview of a source shows. -/
def previewLimit : Nat := 25

/-- The first records as text. -/
def preview (s : Source) (w : Workspace) : Outcome String :=
  match s.required with
  | .error e => ⟨.error e, s, w⟩
  | .ok c =>
      (s.sortedView w).andThen fun feed s w =>
        ⟨(feed.upTo (previewLimit + 1)).map (Preview.text c.render "; " previewLimit), s, w⟩

/-- Writes the sorted records to a file and counts them.  The file is emptied first; what comes in
front of a failure stays in it. -/
def save (s : Source) (path : String) (w : Workspace) : Outcome Nat :=
  match s.required with
  | .error e => ⟨.error e, s, w⟩
  | .ok c =>
      match w.files.write path [] with
      | .error fault => ⟨.error (.access path fault), s, w⟩
      | .ok files =>
          (s.sortedView { w with files := files }).andThen fun feed s w =>
            let (records, failure) := feed.untilFailure
            match w.files.write path (c.serializer.writeAll records) with
            | .error fault => ⟨.error (.access path fault), s, w⟩
            | .ok files =>
                ⟨match failure with
                  | some e => .error e
                  | none => .ok records.length, s, { w with files := files }⟩

/-- Adds the sorted records of another source, which is then closed.  What is said of an empty
source is said of this one too.  After a failure this source is as it was. -/
def addSource (s other : Source) (w : Workspace) :
    Except Failure Unit × Source × Source × Workspace :=
  if other.isMarkedEmpty then (.ok (), s.markEmpty, other, w)
  else
    let view := other.sortedView w
    let (closed, other, w) := view.source.close view.workspace
    match view.result.bind Feed.all, closed with
    | .error e, _ => (.error e, s, other, w)
    | .ok _, .error e => (.error e, s, other, w)
    | .ok records, .ok () =>
        let s := { s with comparison := s.comparison.or other.comparison }
        (.ok (), s.addAll records, other, w)

end Source

end Reconcile
