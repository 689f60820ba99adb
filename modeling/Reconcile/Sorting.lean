import Reconcile.Closing
import Reconcile.Serializer

/-!
# Sorting

A feed is sorted within a budget of memory.  What exceeds the budget is spilled as sorted runs
into a directory of its own, and the runs are merged again; equal records keep their order.
-/

namespace Reconcile

/-- Where spill directories are made. -/
structure SpillRoot where
  /-- the name of a spill directory in messages -/
  name : String
  /-- the numbers of the directories that exist -/
  directories : List Nat
  /-- how many directories have been made so far -/
  made : Nat
  /-- why the run of a number cannot be written, if it cannot -/
  refusal : Nat → Option AccessFault

namespace SpillRoot

/-- A root that takes every run. -/
def ofName (name : String) : SpillRoot := ⟨name, [], 0, fun _ => none⟩

/-- Removes the directory of a handle, if it has one. -/
def release (root : SpillRoot) (h : Handle) : SpillRoot :=
  match h.directory with
  | some number => { root with directories := root.directories.filter (· ≠ number) }
  | none => root

end SpillRoot

namespace Sorting

/-- The file name of a run. -/
def runName (number : Nat) : String := "run-" ++ String.ofList (Text.padded 5 number) ++ ".jsonl"

def runPath (root : SpillRoot) (number : Nat) : String := root.name ++ "/" ++ runName number

abbrev Order := Record → Record → Ordering

/-- The stable sort by an order. -/
def stable (order : Order) (records : List Record) : List Record :=
  records.mergeSort fun a b => (order a b).isLE

/-! ## Runs -/

/-- Cuts a feed into runs: whenever what is buffered exceeds the budget it becomes a sorted run.
Gives the runs and what is buffered at the end.  The buffer is held with the last record first. -/
def cut (serializer : Serializer) (order : Order) (budget : Nat) (root : SpillRoot) :
    Nat → List Record → Nat → Feed → Except Failure (List (List Record) × List Record)
  | _, buffer, _, [] => .ok ([], buffer.reverse)
  | _, _, _, .error e :: _ => .error e
  | number, buffer, size, .ok r :: rest =>
      let size := size + serializer.size r
      if budget < size then
        match root.refusal number with
        | some fault => .error (.access (runPath root number) fault)
        | none => do
            let (runs, left) ← cut serializer order budget root (number + 1) [] 0 rest
            return (stable order (r :: buffer).reverse :: runs, left)
      else cut serializer order budget root number (r :: buffer) size rest

/-- The runs with what is left, which becomes the last of them. -/
def closeRuns (order : Order) (root : SpillRoot) (runs : List (List Record)) (left : List Record) :
    Except Failure (List (List Record)) :=
  if left.isEmpty then .ok runs
  else
    match root.refusal runs.length with
    | some fault => .error (.access (runPath root runs.length) fault)
    | none => .ok (runs ++ [stable order left])

/-! ## Merging -/

/-- A run that is read back: its next record, and what follows it. -/
structure Run where
  head : Option Record
  rest : Feed

namespace Run

/-- Reads the next record in place of the head. -/
def advance (run : Run) : Except Failure Run :=
  match run.rest with
  | [] => .ok ⟨none, []⟩
  | .ok r :: rest => .ok ⟨some r, rest⟩
  | .error e :: _ => .error e

def size (run : Run) : Nat := run.head.toList.length + run.rest.length

/-- A run as written to its file. -/
def ofRecords (serializer : Serializer) (root : SpillRoot) (number : Nat) (records : List Record) :
    Run :=
  ⟨none, (serializer.read (serializer.writeAll records)).map fun item =>
    item.mapError fun fault => .access (runPath root number) fault⟩

end Run

/-- The number and the head of the run with the least head; of equal ones the first. -/
def least (order : Order) : List Run → Option (Nat × Record)
  | [] => none
  | run :: runs =>
      match run.head, least order runs with
      | none, none => none
      | none, some (number, r) => some (number + 1, r)
      | some head, none => some (0, head)
      | some head, some (number, r) =>
          if order r head = .lt then some (number + 1, r) else some (0, head)

/-- Merges runs.  A head is given out only once the record behind it has been read, so a fault
takes the place of the record in front of it. -/
def merge (order : Order) : Nat → List Run → Feed
  | 0, _ => []
  | fuel + 1, runs =>
      match least order runs with
      | none => []
      | some (number, r) =>
          match runs[number]? with
          | none => []
          | some run =>
              match run.advance with
              | .error e => [.error e]
              | .ok run => .ok r :: merge order fuel (runs.set number run)

/-- Merges runs after reading their first records. -/
def mergeRuns (order : Order) (runs : List Run) : Except Failure Feed := do
  let runs ← runs.mapM Run.advance
  return merge order (runs.foldr (fun run count => run.size + count) 1) runs

end Sorting

/-- What sorting gives: the records in order, the runs that were spilled, and the handle that
holds them. -/
structure Sorted where
  records : Feed
  runs : List (List Record)
  handle : Handle

namespace Sorted

def inMemory : String := "in-memory sort"

def spilled : String := "sort spill directory"

end Sorted

/-- Closes a handle.  A spill directory is removed with it, so closing it again changes nothing. -/
def SpillRoot.close (root : SpillRoot) (h : Handle) : Except String Unit × Handle × SpillRoot :=
  (match h.problem with
    | some problem => .error problem
    | none => .ok (),
    match h.directory with
    | some _ => { h with name := Sorted.inMemory, directory := none }
    | none => h,
    root.release h)

open Sorting in
/-- Sorts a feed within a budget of octets.  Nothing is spilled that fits into it. -/
def Feed.sort (order : Order) (budget : Nat) (root : SpillRoot) (input : Feed)
    (serializer : Serializer := .jsonLines) : Except Failure (Sorted × SpillRoot) := do
  let (runs, left) ← cut serializer order budget root 0 [] 0 input
  if runs.isEmpty then
    return (⟨.ofRecords (stable order left), [], ⟨Sorted.inMemory, none, none⟩⟩, root)
  else
    let runs ← closeRuns order root runs left
    let records ← mergeRuns order (runs.zipIdx.map fun (records, number) =>
      .ofRecords serializer root number records)
    return (⟨records, runs, ⟨Sorted.spilled, some root.made, none⟩⟩,
      { root with directories := root.made :: root.directories, made := root.made + 1 })

end Reconcile
