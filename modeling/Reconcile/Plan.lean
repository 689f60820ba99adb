import Reconcile.Source.Checking

/-!
# Plans

A plan names outputs and has an expected and an actual source for each.  Verifying it checks all
outputs in the order of their names, up to the first that fails.
-/

namespace Reconcile

namespace Outputs

/-- Puts a source at its place among others. -/
def place (name : String) (s : Source) : List (String × Source) → List (String × Source)
  | [] => [(name, s)]
  | (other, s') :: rest =>
      if name = other then (name, s) :: rest
      else if name < other then (name, s) :: (other, s') :: rest
      else (other, s') :: place name s rest

theorem mem_names_place {name other : String} {s : Source} {sources : List (String × Source)}
    (member : other ∈ (place name s sources).map Prod.fst) :
    other = name ∨ other ∈ sources.map Prod.fst := by
  induction sources with
  | nil => exact Or.inl (List.mem_singleton.mp member)
  | cons first rest ih =>
      obtain ⟨firstName, s'⟩ := first
      unfold place at member
      split at member
      · rename_i same
        subst same
        exact Or.inr member
      · split at member
        · exact List.mem_cons.mp member
        · rcases List.mem_cons.mp member with rfl | later
          · exact Or.inr List.mem_cons_self
          · exact (ih later).imp_right (List.mem_cons_of_mem _)

/-- Names that stand in order still do when one more is put at its place. -/
theorem ordered_place {name : String} {s : Source} {sources : List (String × Source)}
    (ordered : (sources.map Prod.fst).Pairwise (· < ·)) :
    ((place name s sources).map Prod.fst).Pairwise (· < ·) := by
  induction sources with
  | nil => exact List.pairwise_singleton _ _
  | cons first rest ih =>
      obtain ⟨other, s'⟩ := first
      obtain ⟨front, later⟩ := List.pairwise_cons.mp ordered
      unfold place
      split
      · rename_i same
        subst same
        exact ordered
      · rename_i apart
        split
        · rename_i before
          refine List.pairwise_cons.mpr ⟨fun another member => ?_, ordered⟩
          rcases List.mem_cons.mp member with rfl | behind
          · exact before
          · exact String.lt_trans before (front another behind)
        · rename_i notBefore
          have after : other < name := Std.lt_of_le_of_ne notBefore (Ne.symm apart)
          refine List.pairwise_cons.mpr ⟨fun another member => ?_, ih later⟩
          rcases mem_names_place member with rfl | behind
          · exact after
          · exact front another behind

end Outputs

/-- Sources by name. -/
structure Outputs where
  sources : List (String × Source)
  /-- each name stands once, in the order of the names -/
  ordered : (sources.map Prod.fst).Pairwise (· < ·)

namespace Outputs

def empty : Outputs := ⟨[], List.Pairwise.nil⟩

def names (o : Outputs) : List String := o.sources.map Prod.fst

def get? (o : Outputs) (name : String) : Option Source := o.sources.lookup name

/-- Replaces the source of a name, or adds it. -/
def put (o : Outputs) (name : String) (s : Source) : Outputs :=
  ⟨place name s o.sources, ordered_place o.ordered⟩

end Outputs

structure Plan where
  /-- the comparison of outputs that have none of their own -/
  comparison : Option Comparison
  expected : Outputs
  actual : Outputs

namespace Plan

def ofComparison (c : Option Comparison) : Plan := ⟨c, .empty, .empty⟩

/-- A source as the plan makes it. -/
def newSource (p : Plan) : Source := { Source.new with comparison := p.comparison }

/-- The expected source of an output, made if there is none. -/
def expectedOutput (p : Plan) (name : String) : Source :=
  (p.expected.get? name).getD p.newSource

/-- The actual source of an output, made if there is none. -/
def actualOutput (p : Plan) (name : String) : Source := (p.actual.get? name).getD p.newSource

def withExpected (p : Plan) (name : String) (s : Source) : Plan :=
  { p with expected := p.expected.put name s }

def withActual (p : Plan) (name : String) (s : Source) : Plan :=
  { p with actual := p.actual.put name s }

/-! ## Verification -/

/-- The comparison that the first record in memory suggests. -/
def inferred? (name : String) (s : Source) : Option Comparison :=
  match s.origin with
  | .records (first :: _) => some (.ofSchema (.infer name first))
  | _ => none

/-- An expected source with its own comparison, or with that of the plan, or with one inferred
from its records. -/
def resolved? (p : Plan) (name : String) (s : Source) : Option Source :=
  match s.comparison with
  | some _ => some s
  | none => (p.comparison.or (inferred? name s)).map s.withComparison

/-- A failure of configuration under the name of the output in which it arose. -/
def atOutput (name : String) : Failure → Failure
  | .configuration problem => .configuration ("output '" ++ name ++ "': " ++ problem)
  | e => e

/-- How a verification ends, and what it leaves behind. -/
structure Verified where
  result : Except Failure Report
  plan : Plan
  workspace : Workspace

/-- Verifies outputs in order, given what the outputs in front of them amount to. -/
def verifyEach (p : Plan) (w : Workspace) (total : Report) : List (String × Source) → Verified
  | [] => ⟨.ok total, p, w⟩
  | (name, s) :: rest =>
      match p.resolved? name s with
      | none =>
          ⟨.error (.configuration ("no type configuration for output '" ++ name ++ "'")), p, w⟩
      | some expected =>
          let p := p.withExpected name expected
          if expected.isInitialized then
            let c := Source.check ((p.actual.get? name).getD Source.new) expected w
            let p := (p.withExpected name c.expected).withActual name c.actual
            match c.result with
            | .error e => ⟨.error (atOutput name e), p, c.workspace⟩
            | .ok report => verifyEach p c.workspace (total.absorb report) rest
          else verifyEach p w total rest

/-- Verifies all outputs.  Those of which nothing is expected are passed over. -/
def verify (p : Plan) (w : Workspace) : Verified :=
  p.verifyEach w .empty p.expected.sources

end Plan

end Reconcile
