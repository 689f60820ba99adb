import Reconcile.Comparison
import Reconcile.Input
import Reconcile.Workspace

/-!
# Sources

A source holds one side of a comparison: a bag of records that are in memory, lie in files or are
read from elsewhere.  That a source is empty may be said of it, which is not the same as that
nothing has been said.
-/

namespace Reconcile

/-- How a file is opened for reading. -/
abbrev Format := Comparison → Store → String → Except Failure Reader

/-- Opens a file of records as the serializer of the comparison writes them. -/
def Source.openFile : Format := fun c files path =>
  match files.find path with
  | .ok _ => .ok (.ofFile c.serializer path)
  | .error fault => .error (.access path fault)

/-- Where the records of a source come from. -/
inductive Origin where
  /-- nothing has been said -/
  | unset
  /-- said to be empty -/
  | empty
  | records (records : List Record)
  /-- a file, or all files of a directory -/
  | files (path : String) (format : Format := Source.openFile)
  /-- a reader that is begun anew for each view -/
  | reader (reader : Reader)

/-- Sorts feeds for a source and hands out handles, of which some may not close well. -/
structure Merger where
  /-- how many handles have been handed out -/
  issued : Nat
  /-- what goes wrong when the handle of a number is closed -/
  problem : Nat → Option String

namespace Merger

/-- All handles close well. -/
def sound : Merger := ⟨0, fun _ => none⟩

/-- No handle closes well. -/
def leaking (problem : String) : Merger := ⟨0, fun _ => some problem⟩

end Merger

structure Source where
  origin : Origin
  comparison : Option Comparison
  /-- what the views have opened -/
  handles : HandleSet
  /-- how many octets are sorted in memory -/
  budget : Nat
  merger : Merger

namespace Source

/-- The budget of sources for which none is set. -/
def defaultBudget : Nat := 10 * 1024 * 1024

def new : Source := ⟨.unset, none, .empty, defaultBudget, .sound⟩

def ofComparison (c : Comparison) : Source := { new with comparison := some c }

/-! ## What is known of a source -/

/-- Whether the source has an origin.  Records that are none do not count as one. -/
def isInitialized (s : Source) : Bool :=
  match s.origin with
  | .unset => false
  | .records records => !records.isEmpty
  | _ => true

/-- Whether there are records in memory. -/
def isInMemory (s : Source) : Bool :=
  match s.origin with
  | .records records => !records.isEmpty
  | _ => false

/-- Whether the source is said to be empty. -/
def isMarkedEmpty (s : Source) : Bool :=
  match s.origin with
  | .empty => true
  | _ => false

/-- The comparison of the source, without which its records cannot be read or sorted. -/
def required (s : Source) : Except Failure Comparison :=
  match s.comparison with
  | some c => .ok c
  | none => .error (.configuration ("No type configuration given. Set a default configuration " ++
      "on the plan or specify one when accessing the source"))

/-! ## Settings -/

def withComparison (s : Source) (c : Comparison) : Source := { s with comparison := some c }

def withBudget (s : Source) (octets : Nat) : Source := { s with budget := octets }

def withMerger (s : Source) (merger : Merger) : Source := { s with merger := merger }

/-! ## Origins -/

/-- Adds records to those in memory.  They take the place of any other origin. -/
def addAll (s : Source) (records : List Record) : Source :=
  match s.origin with
  | .records before => { s with origin := .records (before ++ records) }
  | _ => { s with origin := .records records }

def add (s : Source) (record : Record) : Source := s.addAll [record]

def addValues (s : Source) (values : List Value) : Source := s.add ⟨values⟩

/-- Reads the records from files of a format. -/
def loadWith (s : Source) (format : Format) (path : String) : Source :=
  { s with origin := .files path format }

def load (s : Source) (path : String) : Source := s.loadWith openFile path

def generate (s : Source) (reader : Reader) : Source := { s with origin := .reader reader }

/-- Generates records of a schema, and compares them by it unless a comparison is set. -/
def generateFrom (s : Source) (schema : Schema) (seed : UInt64) (count : Nat) : Source :=
  { s with
    origin := .reader (.ofGeneration schema seed count)
    comparison := s.comparison.or (some (.ofSchema schema)) }

def markEmpty (s : Source) : Source := { s with origin := .empty }

/-! ## Closing -/

/-- Closes all that the views have opened. -/
def close (s : Source) (w : Workspace) : Except Failure Unit × Source × Workspace :=
  let (result, handles, w) := w.close s.handles
  (result, { s with handles := handles }, w)

/-- Gives the source up: what the views have opened is closed, as are the handles of the set that is
given up with it, and nobody learns of their problems. -/
def drop (s : Source) (w : Workspace) : Workspace :=
  let (_, s, w) := s.close w
  { w with closed := s.handles.drop w.closed }

end Source

end Reconcile
