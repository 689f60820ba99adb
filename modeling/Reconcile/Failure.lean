import Reconcile.Generation.Basic

/-!
# Failures

Why a verification did not succeed: records differ, or something stood in the way of comparing
them.
-/

namespace Reconcile

inductive Failure where
  | configuration (problem : String)
  | access (source : String) (fault : AccessFault)
  | schema (error : Schema.Error)
  | generation (error : Generation.Error)
  /-- no actual record has the key of an expected group -/
  | noValueForKey (key : String) (position : Nat) (expected actual : String)
  /-- the records at a position differ -/
  | valueMismatch (position : Nat) (expected actual : String)
  /-- records of a group are left over on both sides -/
  | unmatchedValues (key : String) (position : Nat) (expected actual : String)
  /-- expected records are left over, in the group of a key or at the end -/
  | moreElementsExpected (key : Option String) (remaining : String)
  /-- actual records are left over, in the group of a key or at the end -/
  | lessElementsExpected (key : Option String) (remaining : String)
  | close (problems : List String)
deriving DecidableEq

namespace AccessFault

/-- The text of a fault. -/
def text : AccessFault → String
  | notFound => "not found"
  | notADirectory => "not a directory"
  | isADirectory => "is a directory"
  | alreadyExists => "already exists"
  | invalidData => "invalid data"
  | unexpectedEnd => "unexpected end"
  | other text => text

end AccessFault

namespace Failure

def forKey (key : Option String) : String :=
  match key with
  | some key => " for key " ++ key
  | none => ""

def at_ (position : Nat) : String := " @ " ++ String.ofList (Text.decimal position)

def wanted (expected actual : String) : String :=
  ", expected: " ++ expected ++ ", but was: " ++ actual

def message : Failure → String
  | configuration problem => "Configuration error: " ++ problem
  | access source fault => "I/O error on " ++ source ++ ": " ++ fault.text
  | schema error => "Schema error: " ++ error.message
  | generation error => "Generator error: " ++ error.message
  | noValueForKey key position expected actual =>
      "No value for key " ++ key ++ at_ position ++ wanted expected actual
  | valueMismatch position expected actual => "Mismatch" ++ at_ position ++ wanted expected actual
  | unmatchedValues key position expected actual =>
      "Unmatched values for key " ++ key ++ at_ position ++ wanted expected actual
  | moreElementsExpected key remaining =>
      "More elements expected" ++ forKey key ++ ": " ++ remaining
  | lessElementsExpected key remaining =>
      "Less elements expected" ++ forKey key ++ ": " ++ remaining
  | close problems => "exception(s) while closing: [" ++ ", ".intercalate problems ++ "]"

/-- Whether records were found to differ. -/
def isMismatch : Failure → Bool
  | noValueForKey .. => true
  | valueMismatch .. => true
  | unmatchedValues .. => true
  | moreElementsExpected .. => true
  | lessElementsExpected .. => true
  | _ => false

def isConfiguration : Failure → Bool
  | configuration _ => true
  | _ => false

end Failure

/-- Records as they are read, with the failures among them. -/
abbrev Feed := List (Except Failure Record)

def Feed.ofRecords (records : List Record) : Feed := records.map .ok

/-- All records of a feed, unless there is a failure among them. -/
def Feed.all (feed : Feed) : Except Failure (List Record) := feed.mapM id

/-- The records in front of the first failure, and that failure. -/
def Feed.untilFailure : Feed → List Record × Option Failure
  | [] => ([], none)
  | .error e :: _ => ([], some e)
  | .ok r :: rest =>
      let (records, failure) := Feed.untilFailure rest
      (r :: records, failure)

/-- The next records of a feed, up to a number; the first failure among them ends it. -/
def Feed.upTo : Nat → Feed → Except Failure (List Record)
  | 0, _ => .ok []
  | _, [] => .ok []
  | _ + 1, .error e :: _ => .error e
  | n + 1, .ok r :: rest => do return r :: (← Feed.upTo n rest)

end Reconcile
