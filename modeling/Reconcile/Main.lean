import Reconcile.CommandLine

/-!
# The program

Reads what a command needs into a store, runs the command on it and writes what has changed.
-/

open Reconcile

/-- The paths that a command reads, and those that it writes. -/
def commandPaths : Command → List String × List String
  | .verify r => ([r.schema, r.expected, r.actual], [])
  | .generate r => ([r.schema], [r.output])
  | .sort r => ([r.schema, r.input], [r.output])

/-- The location that a path leads to. -/
def locationOf (s : Store) (path : String) : List String :=
  (Store.names path).foldl (fun location name =>
    if name = ".." then location.dropLast else location ++ [name]) (s.start path)

/-- The locations on the way to one, with itself. -/
def waysTo (location : List String) : List (List String) :=
  (List.range (location.length + 1)).map location.take

/-- Puts what stands at a location into a store. -/
def loadLocation (s : Store) (location : List String) : IO Store := do
  try
    let path ← IO.FS.realPath ("/" ++ "/".intercalate location)
    if ← path.isDir then return s.put location .directory
    else return s.put location (.file (← IO.FS.readBinFile path).toList)
  catch _ => return s

/-- Puts what stands at a path into a store, with what leads there and the files in it. -/
def loadPath (s : Store) (path : String) : IO Store := do
  let location := locationOf s path
  let s ← (waysTo location).foldlM loadLocation s
  try
    let directory ← IO.FS.realPath path
    if ← directory.isDir then
      (← directory.readDir).foldlM (fun s entry => loadLocation s (location ++ [entry.fileName])) s
    else return s
  catch _ => return s

/-- Writes the file that a store has at a path. -/
def storePath (s : Store) (path : String) : IO Unit := do
  match s.read path with
  | .error _ => return
  | .ok octets =>
      let location := locationOf s path
      IO.FS.createDirAll ("/" ++ "/".intercalate location.dropLast)
      IO.FS.writeBinFile path ⟨octets.toArray⟩

/-- Runs a command. -/
def runCommand (c : Command) (w : Workspace) : Except Command.Problem Unit × Workspace :=
  match c with
  | .verify r =>
      let (result, w) := r.run w
      (result.map fun _ => (), w)
  | .generate r =>
      let (result, w) := r.run w
      (result.map fun _ => (), w)
  | .sort r =>
      let (result, w) := r.run w
      (result.map fun _ => (), w)

/-- The variables that options fall back on, as far as they are set. -/
def readEnvironment : IO (List (String × String)) := do
  let names := ["RECORDCHECK_DOUBLE_DELTA", "RECORDCHECK_MEMORY_BUDGET"]
  return (← names.mapM fun name => return (← IO.getEnv name).map fun value => (name, value)).reduceOption

def main (words : List String) : IO UInt32 := do
  match CommandLine.read (← readEnvironment) words with
  | .error e =>
      IO.eprintln e.message
      return if e == .helpRequested then 0 else 2
  | .ok c =>
      let (reads, writes) := commandPaths c
      let base := Store.names (← IO.currentDir).toString
      let files ← (waysTo base).foldlM loadLocation ⟨base, []⟩
      let files ← (reads ++ writes).foldlM loadPath files
      let (result, w) := runCommand c (.ofFiles files (.ofName "spill"))
      writes.forM (storePath w.files)
      match result with
      | .ok () => return 0
      | .error problem =>
          IO.eprintln ("Error: " ++ problem.message)
          return 1
