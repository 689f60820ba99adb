import Reconcile.Sorting

/-!
# Spilling

A sort as it goes on.  Records are taken into memory one after another; whenever they exceed the
budget they are written, in order, into a file of a directory that the sort makes for itself.  The
directory lasts until its handle is closed, and goes at once if the sort fails.
-/

namespace Reconcile

/-- The system below a sort: whether it makes a directory, and what it gives of a file that was
written. -/
structure Disk where
  /-- why no directory can be made, if none can -/
  full : Option AccessFault
  /-- the octets that are read of the file of a name, unless it cannot be opened -/
  reopen : String → List UInt8 → Except AccessFault (List UInt8)

namespace Disk

/-- Directories are made, and files are read as they were written. -/
def sound : Disk := ⟨none, fun _ octets => .ok octets⟩

end Disk

/-- A file of a spill directory, with the records that were written into it. -/
structure RunFile where
  name : String
  records : List Record
deriving DecidableEq

namespace RunFile

def path (root : SpillRoot) (file : RunFile) : String := root.name ++ "/" ++ file.name

/-- Opens the file again, as a run that is to be read. -/
def reopen (serializer : Serializer) (disk : Disk) (root : SpillRoot) (file : RunFile) :
    Except Failure Sorting.Run :=
  match disk.reopen file.name (serializer.writeAll file.records) with
  | .error fault => .error (.access (file.path root) fault)
  | .ok octets => .ok ⟨none, (serializer.read octets).map fun item =>
      item.mapError fun fault => .access (file.path root) fault⟩

end RunFile

/-- The root with one directory more. -/
def SpillRoot.grown (root : SpillRoot) : SpillRoot :=
  { root with directories := root.made :: root.directories, made := root.made + 1 }

/-- What a sort holds while it goes on. -/
structure Spill where
  root : SpillRoot
  /-- the number of its directory, once it has made one -/
  directory : Option Nat
  /-- the files in that directory, in the order in which they were written -/
  files : List RunFile
  /-- the records in memory, the last one first -/
  buffer : List Record
  /-- how many octets they count -/
  size : Nat

namespace Spill

open Sorting

/-- A sort that has not begun. -/
def start (root : SpillRoot) : Spill := ⟨root, none, [], [], 0⟩

/-- Takes a record into memory. -/
def push (serializer : Serializer) (s : Spill) (r : Record) : Spill :=
  { s with buffer := r :: s.buffer, size := s.size + serializer.size r }

/-- Makes the directory of the sort, unless there is one. -/
def makeDirectory (disk : Disk) (s : Spill) : Except Failure Unit × Spill :=
  match s.directory, disk.full with
  | some _, _ => (.ok (), s)
  | none, some fault => (.error (.access Sorted.spilled fault), s)
  | none, none => (.ok (), { s with root := s.root.grown, directory := some s.root.made })

/-- Writes what is in memory, in order, into the next file. -/
def writeFile (order : Order) (s : Spill) : Except Failure Unit × Spill :=
  let number := s.files.length
  match s.root.refusal number with
  | some fault => (.error (.access (runPath s.root number) fault), s)
  | none =>
      (.ok (), { s with
        files := s.files ++ [⟨runName number, stable order s.buffer.reverse⟩]
        buffer := []
        size := 0 })

/-- Writes the next file into the directory of the sort, which is made if there is none yet. -/
def spill (order : Order) (disk : Disk) (s : Spill) : Except Failure Unit × Spill :=
  match s.makeDirectory disk with
  | (.error e, s) => (.error e, s)
  | (.ok (), s) => s.writeFile order

/-- Takes a record, and spills what is in memory if that exceeds the budget. -/
def take (serializer : Serializer) (order : Order) (budget : Nat) (disk : Disk) (s : Spill)
    (r : Record) : Except Failure Unit × Spill :=
  let s := s.push serializer r
  if budget < s.size then s.spill order disk else (.ok (), s)

/-- Takes the records of a feed, up to the first failure. -/
def takeAll (serializer : Serializer) (order : Order) (budget : Nat) (disk : Disk) :
    Spill → Feed → Except Failure Unit × Spill
  | s, [] => (.ok (), s)
  | s, .error e :: _ => (.error e, s)
  | s, .ok r :: rest =>
      match s.take serializer order budget disk r with
      | (.error e, s) => (.error e, s)
      | (.ok (), s) => takeAll serializer order budget disk s rest

/-- What is left in memory becomes the last file, if there are files at all. -/
def finish (order : Order) (s : Spill) : Except Failure Unit × Spill :=
  if s.files.isEmpty || s.buffer.isEmpty then (.ok (), s) else s.writeFile order

/-- Takes a whole feed, and spills what has to be spilled of it. -/
def fill (serializer : Serializer) (order : Order) (budget : Nat) (disk : Disk) (s : Spill)
    (input : Feed) : Except Failure Unit × Spill :=
  match s.takeAll serializer order budget disk input with
  | (.error e, s) => (.error e, s)
  | (.ok (), s) => s.finish order

/-- The records in order: those in memory or, if there are files, those that the files give.  All
files are opened before the first of them is read. -/
def sorted (serializer : Serializer) (order : Order) (disk : Disk) (s : Spill) :
    Except Failure Feed := do
  if s.files.isEmpty then return .ofRecords (stable order s.buffer.reverse)
  else mergeRuns order (← s.files.mapM (RunFile.reopen serializer disk s.root))

/-- The handle with which the directory goes. -/
def handle (s : Spill) : Handle :=
  ⟨if s.directory.isSome then Sorted.spilled else Sorted.inMemory, s.directory, none⟩

/-- What becomes of the root when the sort is given up. -/
def abandon (s : Spill) : SpillRoot := s.root.release s.handle

/-- Gives the records in order with the handle, or gives the sort up. -/
def deliver (serializer : Serializer) (order : Order) (disk : Disk) (s : Spill) :
    Except Failure Sorted × SpillRoot :=
  match s.sorted serializer order disk with
  | .error e => (.error e, s.abandon)
  | .ok records => (.ok ⟨records, s.files.map RunFile.records, s.handle⟩, s.root)

end Spill

/-- Sorts a feed within a budget of octets, and tells what has become of the root, also after a
failure. -/
def Feed.spill (order : Sorting.Order) (budget : Nat) (root : SpillRoot) (input : Feed)
    (serializer : Serializer := .jsonLines) (disk : Disk := .sound) :
    Except Failure Sorted × SpillRoot :=
  match (Spill.start root).fill serializer order budget disk input with
  | (.error e, s) => (.error e, s.abandon)
  | (.ok (), s) => s.deliver serializer order disk

end Reconcile
