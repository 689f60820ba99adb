import Reconcile.Failure

/-!
# Closing

Handles stand for what has to be released.  A set of handles is closed as a whole: each handle is
closed once, in the order in which they were added, whatever goes wrong with others.
-/

namespace Reconcile

structure Handle where
  name : String
  /-- the number of the spill directory that is removed with it -/
  directory : Option Nat
  /-- what goes wrong when it is closed -/
  problem : Option String
deriving DecidableEq

/-- The handles of a set, in the order in which they were added. -/
structure HandleSet where
  handles : List Handle
deriving DecidableEq

namespace HandleSet

def empty : HandleSet := ⟨[]⟩

def add (s : HandleSet) (h : Handle) : HandleSet := ⟨s.handles ++ [h]⟩

def length (s : HandleSet) : Nat := s.handles.length

/-- Closes handles one after another.  Gives the handles closed so far and the problems met. -/
def closeEach (closed : List Handle) (problems : List String) :
    List Handle → List Handle × List String
  | [] => (closed, problems)
  | h :: rest => closeEach (closed ++ [h]) (problems ++ h.problem.toList) rest

/-- Closes all handles, which leaves the set empty.  Any problem makes it fail with all of them. -/
def close (s : HandleSet) (closed : List Handle) :
    Except Failure Unit × HandleSet × List Handle :=
  let (closed, problems) := closeEach closed [] s.handles
  (if problems.isEmpty then .ok () else .error (.close problems), empty, closed)

/-- Gives the set up: all handles are closed, and nobody learns of their problems. -/
def drop (s : HandleSet) (closed : List Handle) : List Handle := (s.close closed).2.2

end HandleSet

end Reconcile
