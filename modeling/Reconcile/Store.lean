import Reconcile.AccessFault

/-!
# Stores

A tree of directories and files.  Paths are texts with slashes.  One that begins with a slash leads
from the root, any other from the directory where the work is done; one that ends in a slash names
a directory.
-/

namespace Reconcile

inductive Entry where
  | file (octets : List UInt8)
  | directory
deriving DecidableEq

/-- The entries below the root, by the names that lead to them. -/
structure Store where
  /-- where the work is done -/
  base : List String
  entries : List (List String × Entry)
deriving DecidableEq

namespace Store

def empty : Store := ⟨[], []⟩

def entryAt? (s : Store) (location : List String) : Option Entry :=
  if location.isEmpty then some .directory else s.entries.lookup location

def put (s : Store) (location : List String) (entry : Entry) : Store :=
  { s with entries := (location, entry) :: s.entries.filter fun (other, _) => other ≠ location }

/-- The parts of a text between slashes. -/
def parts : List Char → List (List Char)
  | [] => [[]]
  | c :: rest =>
      if c = '/' then [] :: parts rest
      else (c :: (parts rest).headD []) :: (parts rest).tail

/-- The names in a path. -/
def names (path : String) : List String :=
  ((parts path.toList).map String.ofList).filter fun name => name ≠ "" ∧ name ≠ "."

/-- Where a path begins. -/
def start (s : Store) (path : String) : List String :=
  if path.toList.head? == some '/' then [] else s.base

def endsInSlash (path : String) : Bool := path.toList.getLast? == some '/'

/-- Where names lead to from a location.  All names but the last must lead through directories. -/
def locate (s : Store) (location : List String) : List String → Except AccessFault (List String)
  | [] => .ok location
  | name :: rest =>
      match s.entryAt? location with
      | none => .error .notFound
      | some (.file _) => .error .notADirectory
      | some .directory =>
          s.locate (if name = ".." then location.dropLast else location ++ [name]) rest

/-- What stands at a path.  The empty path leads nowhere. -/
def find (s : Store) (path : String) : Except AccessFault Entry := do
  if path.isEmpty then .error .notFound
  let location ← s.locate (s.start path) (names path)
  match s.entryAt? location with
  | none => .error .notFound
  | some (.file octets) =>
      if endsInSlash path then .error .notADirectory else .ok (.file octets)
  | some .directory => .ok .directory

def isDirectory (s : Store) (path : String) : Bool :=
  match s.find path with
  | .ok .directory => true
  | _ => false

/-- The octets of a file. -/
def read (s : Store) (path : String) : Except AccessFault (List UInt8) := do
  match ← s.find path with
  | .file octets => .ok octets
  | .directory => .error .isADirectory

/-- The name of an entry that is a file directly at a location. -/
def fileAt? (location : List String) : List String × Entry → Option String
  | (other, .file _) => if other.dropLast = location then other.getLast? else none
  | (_, .directory) => none

/-- The names of the files directly in a directory, in order. -/
def fileNames (s : Store) (path : String) : List String :=
  match s.locate (s.start path) (names path) with
  | .error _ => []
  | .ok location => (s.entries.filterMap (fileAt? location)).mergeSort fun a b => a ≤ b

/-- The path of a name in a directory. -/
def join (path name : String) : String :=
  if endsInSlash path then path ++ name else path ++ "/" ++ name

/-! ## Writing -/

/-- Makes a directory where nothing stands yet. -/
def makeDirectory (s : Store) (start path : List String) : Except AccessFault Store := do
  let location ← s.locate start path
  if (s.entryAt? location).isSome then .error .alreadyExists else .ok (s.put location .directory)

/-- Whether names lead to a directory. -/
def leadsToDirectory (s : Store) (start path : List String) : Bool :=
  match s.locate start path with
  | .ok location => s.entryAt? location = some .directory
  | .error _ => false

/-- Makes a directory unless there is one. -/
def ensureDirectory (s : Store) (start path : List String) : Except AccessFault Store :=
  match s.makeDirectory start path with
  | .ok s => .ok s
  | .error fault => if s.leadsToDirectory start path then .ok s else .error fault

/-- Makes a directory with all directories on the way to it, given by its names from the last to
the first.  What is a directory already stays one. -/
def makeDirectories (s : Store) (start : List String) : List String → Except AccessFault Store
  | [] => .ok s
  | name :: before =>
      match s.ensureDirectory start (name :: before).reverse with
      | .ok s => .ok s
      | .error .notFound => do
          let s ← s.makeDirectories start before
          s.ensureDirectory start (name :: before).reverse
      | .error fault => .error fault

/-- Replaces the octets of a file, or makes it, together with the directories on the way. -/
def write (s : Store) (path : String) (octets : List UInt8) : Except AccessFault Store := do
  if path.isEmpty then .error .notFound
  let start := s.start path
  let s ← s.makeDirectories start (names path).reverse.tail
  let location ← s.locate start (names path)
  match s.entryAt? location with
  | some .directory => .error .isADirectory
  | _ =>
      if endsInSlash path then .error .isADirectory
      else .ok (s.put location (.file octets))

end Store

end Reconcile
