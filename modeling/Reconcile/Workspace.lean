import Reconcile.Closing
import Reconcile.Sorting
import Reconcile.Store

/-!
# Workspaces

What sources work in: the files they read and write, the place for spill directories, and the
handles that have been closed so far.
-/

namespace Reconcile

structure Workspace where
  files : Store
  temp : SpillRoot
  /-- the handles that have been closed, in order -/
  closed : List Handle

namespace Workspace

/-- A workspace in which nothing has been done yet. -/
def ofFiles (files : Store) (temp : SpillRoot) : Workspace := ⟨files, temp, []⟩

/-- Closes a set of handles.  Their spill directories are removed, whatever goes wrong. -/
def close (w : Workspace) (handles : HandleSet) : Except Failure Unit × HandleSet × Workspace :=
  let (result, handles', closed) := handles.close w.closed
  (result, handles', { w with
    temp := handles.handles.foldl SpillRoot.release w.temp
    closed := closed })

end Workspace

end Reconcile
