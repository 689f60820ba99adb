import Reconcile.Spilling

/-!
# Merging

A merge as it goes on.  The first record of every run is read before anything is given; from then on
each request takes the least head and reads what is behind it.  A run that cannot be read any further
costs the merge the head that was taken from it, and ends it.
-/

namespace Reconcile

namespace Sorting

/-- The file of a run that is open: where it lies, and what reading gives, one item after another. -/
structure OpenRun where
  path : String
  items : List (Except AccessFault Record)

namespace OpenRun

/-- The run in front of its first record.  Its failures tell where the file lies. -/
def run (file : OpenRun) : Run :=
  ⟨none, file.items.map fun item => item.mapError fun fault => .access file.path fault⟩

/-- The records in front of the first fault. -/
def records (file : OpenRun) : List Record :=
  (file.items.takeWhile Except.isOk).filterMap Except.toOption

/-- The first fault, unless the file is read to its end. -/
def fault? (file : OpenRun) : Option AccessFault :=
  file.items.findSome? fun item =>
    match item with
    | .error fault => some fault
    | .ok _ => none

end OpenRun

/-- A merge between two requests. -/
structure Merge where
  runs : List Run
  /-- whether a run could not be read any further -/
  failed : Bool

namespace Merge

/-- Reads the first record of every run. -/
def start (runs : List Run) : Except Failure Merge := do
  return ⟨← runs.mapM Run.advance, false⟩

/-- The next record or failure, none at the end.  The head is taken off its run before what is behind
it is read. -/
def next (order : Order) (m : Merge) : Option (Except Failure Record) × Merge :=
  if m.failed then (none, m)
  else
    match least order m.runs with
    | none => (none, m)
    | some (number, r) =>
        match m.runs[number]? with
        | none => (none, m)
        | some run =>
            match run.advance with
            | .ok run => (some (.ok r), ⟨m.runs.set number run, false⟩)
            | .error e => (some (.error e), ⟨m.runs.set number { run with head := none }, true⟩)

/-- The merge after a number of requests. -/
def after (order : Order) : Nat → Merge → Merge
  | 0, m => m
  | requests + 1, m => after order requests (m.next order).2

/-- The answer to the request that follows on a number of others. -/
def answer (order : Order) (m : Merge) (requests : Nat) : Option (Except Failure Record) :=
  ((m.after order requests).next order).1

end Merge

end Sorting

/-- A file of a spill directory is opened as a run with the path of that file. -/
theorem RunFile.reopen_eq (serializer : Serializer) (disk : Disk) (root : SpillRoot)
    (file : RunFile) :
    file.reopen serializer disk root =
      match disk.reopen file.name (serializer.writeAll file.records) with
      | .error fault => .error (.access (file.path root) fault)
      | .ok octets =>
          .ok (Sorting.OpenRun.run ⟨file.path root, serializer.read octets⟩) := rfl

end Reconcile
