import Reconcile.Schema.Reading
import Reconcile.Source.Checking
import Reconcile.Text.Escaped

/-!
# Commands

The three uses of the program: verifying one set of records against another, generating records,
and sorting them.  Each works on files and tells at which step it failed.
-/

namespace Reconcile

namespace Command

structure VerifyRequest where
  schema : String
  expected : String
  actual : String
  doubleDelta : Option Binary64
  integerDelta : Option UInt64
  budget : Nat
deriving DecidableEq

structure GenerateRequest where
  schema : String
  seed : UInt64
  count : Nat
  start : UInt64
  output : String
deriving DecidableEq

structure SortRequest where
  schema : String
  input : String
  output : String
  budget : Nat
deriving DecidableEq

/-- Why a command did not succeed, and what it was doing. -/
structure Problem where
  context : Option String
  cause : Failure
deriving DecidableEq

def Problem.message (p : Problem) : String :=
  match p.context with
  | some context => context ++ ": " ++ p.cause.message
  | none => p.cause.message

/-- A failure in the course of something. -/
def inContext {α : Type} (context : String) (result : Except Failure α) : Except Problem α :=
  result.mapError fun cause => ⟨some context, cause⟩

def loading (path : String) : String := "Failed to load schema from " ++ Text.escapedText path

/-- The schema in a file. -/
def readSchema (files : Store) (path : String) : Except Failure Schema :=
  match files.read path with
  | .error fault => .error (.schema (.unreadable fault))
  | .ok octets =>
      match String.fromUTF8? ⟨octets.toArray⟩ with
      | none => .error (.schema (.unreadable .invalidData))
      | some text => (Schema.ofText text).mapError .schema

/-! ## Verifying -/

/-- A comparison with the tolerance for doubles, which is not negative. -/
def addDoubleDelta (c : Comparison) : Option Binary64 → Except Failure Comparison
  | none => .ok c
  | some delta =>
      if delta.isNaN || delta.lt .zero then
        .error (.configuration
          ("double delta must be non-negative, got " ++ Binary64.display.text delta))
      else .ok (c.withDoubleDelta delta)

def addIntegerDelta (c : Comparison) : Option UInt64 → Comparison
  | none => c
  | some delta => c.withIntegerDelta delta

/-- The comparison that a request asks for. -/
def VerifyRequest.comparison (r : VerifyRequest) (files : Store) : Except Failure Comparison := do
  let schema ← readSchema files r.schema
  let c ← addDoubleDelta (.ofSchema schema) r.doubleDelta
  return addIntegerDelta c r.integerDelta

def VerifyRequest.run (r : VerifyRequest) (w : Workspace) : Except Problem Report × Workspace :=
  match inContext (loading r.schema) (r.comparison w.files) with
  | .error problem => (.error problem, w)
  | .ok c =>
      let source (path : String) : Source := ((Source.ofComparison c).withBudget r.budget).load path
      let checked := Source.check (source r.actual) (source r.expected) w
      (inContext ("Records in " ++ Text.escapedText r.actual ++ " differ from " ++
        Text.escapedText r.expected) checked.result, checked.workspace)

/-! ## Generating -/

/-- Writes records to a file and counts them.  What comes in front of a failure stays in it. -/
def GenerateRequest.run (r : GenerateRequest) (w : Workspace) : Except Problem Nat × Workspace :=
  match inContext (loading r.schema) (readSchema w.files r.schema) with
  | .error problem => (.error problem, w)
  | .ok schema =>
      let (records, failure) :=
        ((Generation.start schema r.seed).startAt r.start).untilFailure r.count
      match w.files.write r.output (Fixture.write records) with
      | .error fault =>
          (.error ⟨some ("Failed to create " ++ Text.escapedText r.output),
            .access r.output fault⟩, w)
      | .ok files =>
          (match failure with
            | some e => .error ⟨some "Failed to generate record", .generation e⟩
            | none => .ok records.length, { w with files := files })

/-! ## Sorting -/

/-- The source of what is sorted. -/
def SortRequest.source (r : SortRequest) (schema : Schema) : Source :=
  ((Source.ofComparison (.ofSchema schema)).withBudget r.budget).load r.input

/-- Sorts the records of a file or a directory into one file, and counts them. -/
def SortRequest.run (r : SortRequest) (w : Workspace) : Except Problem Nat × Workspace :=
  match inContext (loading r.schema) (readSchema w.files r.schema) with
  | .error problem => (.error problem, w)
  | .ok schema =>
      let saved := (r.source schema).save r.output w
      let (closed, _, w) := saved.source.close saved.workspace
      match inContext ("Failed to sort " ++ Text.escapedText r.input ++ " into " ++
          Text.escapedText r.output) saved.result with
      | .error problem => (.error problem, w)
      | .ok count => ((closed.mapError fun cause => ⟨none, cause⟩).map fun () => count, w)

end Command

/-- A command with all that it needs to know. -/
inductive Command where
  | verify (request : Command.VerifyRequest)
  | generate (request : Command.GenerateRequest)
  | sort (request : Command.SortRequest)
deriving DecidableEq

end Reconcile
