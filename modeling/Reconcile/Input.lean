import Reconcile.Failure
import Reconcile.Sorting
import Reconcile.Store

/-!
# Input

Readers give records one after another, and several of them are read as one.  A reader that has
ended is closed before the next one is begun; after a failure all are closed and nothing follows.
-/

namespace Reconcile

/-- What a reader gives when it is asked. -/
inductive Reading where
  | record (r : Record)
  | fault (fault : AccessFault)
  /-- no record, although the end may not have been announced -/
  | nothing

/-- Where the records of a reader come from. -/
inductive ReaderSource where
  /-- records in memory -/
  | records (rest : List Record)
  /-- given readings; the end is announced in advance or only shows as nothing being read -/
  | script (rest : List Reading) (announced : Bool)
  /-- records to be generated, up to a number -/
  | generation (g : Generation) (remaining : Nat)
  /-- a file: how many octets of it were taken, those of them that are still ahead, and whether
  its end was reached -/
  | file (serializer : Serializer) (path : String) (position : Nat) (ahead : List UInt8)
      (ended : Bool)

structure Reader where
  name : String
  source : ReaderSource
  /-- what goes wrong when the reader is closed -/
  problem : Option String

namespace Reader

/-- A reader of the records that a schema and a seed give. -/
def ofGeneration (schema : Schema) (seed : UInt64) (count : Nat) : Reader :=
  let number (n : Nat) : String := String.ofList (Text.decimal n)
  ⟨"generator '" ++ schema.name ++ "' (seed " ++ number seed.toNat ++ ", " ++ number count ++
    " records)", .generation (.start schema seed) count, none⟩

/-- A reader of a file from its beginning. -/
def ofFile (serializer : Serializer) (path : String) : Reader :=
  ⟨path, .file serializer path 0 [] false, none⟩

/-- A reader of records in memory. -/
def ofRecords (name : String) (records : List Record) : Reader := ⟨name, .records records, none⟩

/-- Whether the reader knows that nothing follows. -/
def reachedEnd (r : Reader) : Bool :=
  match r.source with
  | .records rest => rest.isEmpty
  | .script rest announced => announced && rest.isEmpty
  | .generation _ remaining => remaining == 0
  | .file _ _ _ _ ended => ended

/-- Reads from a file.  Once what was taken from it is used up, everything behind is taken. -/
def readFile (serializer : Serializer) (files : Store) (path : String) (position : Nat)
    (ahead : List UInt8) : Reading × ReaderSource :=
  match serializer.next? ahead with
  | some (item, rest) => (ofItem item, .file serializer path position rest false)
  | none =>
      match files.read path with
      | .error fault => (.fault fault, .file serializer path position [] false)
      | .ok octets =>
          match serializer.next? (octets.drop position) with
          | some (item, rest) => (ofItem item, .file serializer path octets.length rest false)
          | none => (.nothing, .file serializer path octets.length [] true)
where
  ofItem : Except AccessFault Record → Reading
    | .ok r => .record r
    | .error fault => .fault fault

/-- Reads once. -/
def read (files : Store) (r : Reader) : Reading × Reader :=
  let (reading, source) :=
    match r.source with
    | .records [] => (.nothing, .records [])
    | .records (first :: rest) => (.record first, .records rest)
    | .script [] announced => (.nothing, .script [] announced)
    | .script (first :: rest) announced => (first, .script rest announced)
    | .generation g 0 => (.nothing, .generation g 0)
    | .generation g (remaining + 1) =>
        match g.next with
        | (.ok r, g) => (.record r, .generation g remaining)
        | (.error e, g) => (.fault (.other e.message), .generation g (remaining + 1))
    | .file serializer path position ahead ended =>
        if ended then (.nothing, .file serializer path position ahead ended)
        else readFile serializer files path position ahead
  (reading, { r with source := source })

/-- Reads once, unless it is known that nothing follows. -/
def next (files : Store) (r : Reader) : Reading × Reader :=
  if r.reachedEnd then (.nothing, r) else r.read files

/-- How often the reader can be asked before it ends or fails. -/
def size (files : Store) (r : Reader) : Nat :=
  match r.source with
  | .records rest => rest.length
  | .script rest _ => rest.length
  | .generation _ remaining => remaining
  | .file _ path position ahead _ =>
      match files.read path with
      | .ok octets => ahead.length + (octets.length - position)
      | .error _ => ahead.length

end Reader

/-- Readers that are read as one. -/
structure Input where
  current : Option Reader
  pending : List Reader
  failed : Bool
  /-- the readers that have been closed, in order -/
  closed : List Reader

namespace Input

def ofReaders (readers : List Reader) : Input := ⟨none, readers, false, []⟩

/-- Closes what is not closed yet. -/
def release (i : Input) : Input :=
  ⟨none, [], i.failed, i.closed ++ i.current.toList ++ i.pending⟩

/-- The state behind a failure of one reader: it and all others are closed. -/
def fail (closed : List Reader) (reader : Reader) (pending : List Reader) : Input :=
  ⟨none, [], true, closed ++ reader :: pending⟩

/-- Reads once from a reader: an item and the state behind it, or the reader at its end, which has
been closed without a problem. -/
def attempt (files : Store) (closed : List Reader) (reader : Reader) (pending : List Reader) :
    (Except Failure Record × Input) ⊕ Reader :=
  let (reading, reader) := reader.next files
  match reading, reader.problem with
  | .record r, _ => .inl (.ok r, ⟨some reader, pending, false, closed⟩)
  | .fault fault, _ => .inl (.error (.access reader.name fault), fail closed reader pending)
  | .nothing, some problem =>
      .inl (.error (.access reader.name (.other problem)), fail closed reader pending)
  | .nothing, none => .inr reader

/-- Reads from a reader, or from the first one behind it that has something to give. -/
def readFrom (files : Store) (closed : List Reader) (reader : Reader) :
    List Reader → Option (Except Failure Record) × Input
  | [] =>
      match attempt files closed reader [] with
      | .inl (item, i) => (some item, i)
      | .inr reader => (none, ⟨none, [], false, closed ++ [reader]⟩)
  | next :: pending =>
      match attempt files closed reader (next :: pending) with
      | .inl (item, i) => (some item, i)
      | .inr reader => readFrom files (closed ++ [reader]) next pending

/-- The next record or failure, none at the end. -/
def next (files : Store) (i : Input) : Option (Except Failure Record) × Input :=
  if i.failed then (none, i)
  else
    match i.current, i.pending with
    | some reader, pending => readFrom files i.closed reader pending
    | none, reader :: pending => readFrom files i.closed reader pending
    | none, [] => (none, i)

def size (files : Store) (i : Input) : Nat :=
  (i.current.toList ++ i.pending).foldr (fun r count => r.size files + count) 0

/-- Everything from here on, up to a number of items. -/
def take (files : Store) : Nat → Input → Feed × Input
  | 0, i => ([], i)
  | n + 1, i =>
      match i.next files with
      | (none, i) => ([], i)
      | (some item, i) =>
          let (items, i) := take files n i
          (item :: items, i)

/-- Everything from here on. -/
def feed (files : Store) (i : Input) : Feed := (i.take files (i.size files + 1)).1

end Input

end Reconcile
