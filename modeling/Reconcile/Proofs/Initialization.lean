import Reconcile.Proofs.SortedViews
import Reconcile.Proofs.ViewEffects

/-!
# Initialization

Once a source is initialized, nearly every operation leaves it so.  The exception is to add records
of which there are none: they take the place of any origin but records in memory, and a source with
no other origin than these counts as not initialized.
-/

namespace Reconcile

namespace Source

variable {s : Source}

/-! ## Operations -/

/-- What can be done with a source. -/
inductive Operation where
  | extend (addition : Addition)
  | addSource (other : Source)
  | load (path : String)
  | loadWith (format : Format) (path : String)
  | generate (reader : Reader)
  | generateFrom (schema : Schema) (seed : UInt64) (count : Nat)
  | markEmpty
  | withComparison (c : Comparison)
  | withBudget (octets : Nat)
  | withMerger (merger : Merger)
  | records
  | sortedView
  | sortedViewWith (c : Comparison)
  | preview
  | save (path : String)
  | checkAgainst (expected : Source)
  | checkOf (actual : Source)
  | close

/-- What an operation leaves of a source. -/
def Operation.apply (s : Source) (w : Workspace) : Operation → Source
  | extend addition => addition.apply s
  | addSource other => (s.addSource other w).2.1
  | load path => s.load path
  | loadWith format path => s.loadWith format path
  | generate reader => s.generate reader
  | generateFrom schema seed count => s.generateFrom schema seed count
  | markEmpty => s.markEmpty
  | withComparison c => s.withComparison c
  | withBudget octets => s.withBudget octets
  | withMerger merger => s.withMerger merger
  | records => s
  | sortedView => (s.sortedView w).source
  | sortedViewWith c => (s.sortedViewWith c w).source
  | preview => (s.preview w).source
  | save path => (s.save path w).source
  | checkAgainst expected => (check s expected w).actual
  | checkOf actual => (check actual s w).expected
  | close => (s.close w).2.1

/-- Operations in a row.  Each finds a workspace of its own, since others may use the workspace in
between. -/
def run (s : Source) (steps : List (Operation × Workspace)) : Source :=
  steps.foldl (fun s step => step.1.apply s step.2) s

/-- The records that another source hands over, which is closed then. -/
def handedOver (other : Source) (w : Workspace) : Except Failure (List Record) := do
  let view := other.sortedView w
  let records ← view.result.bind Feed.all
  (view.source.close view.workspace).1
  return records

/-- Whether an operation adds records, of which there are none. -/
def Operation.AddsNothing (w : Workspace) : Operation → Prop
  | extend addition => addition.records = []
  | addSource other => other.isMarkedEmpty = false ∧ other.handedOver w = .ok []
  | _ => False

/-! ## Additions -/

theorem isInitialized_addAll (s : Source) (records : List Record) :
    (s.addAll records).isInitialized = (s.isInMemory || !records.isEmpty) := by
  unfold addAll isInMemory
  cases s.origin with
  | records before => cases before <;> rfl
  | _ => rfl

/-- A source stays as it was unless the other one hands its records over. -/
theorem addSource_eq (s : Source) {other : Source} (unmarked : other.isMarkedEmpty = false)
    (w : Workspace) :
    (s.addSource other w).1 = (other.handedOver w).map (fun _ => ()) ∧
      (s.addSource other w).2.1 =
        match other.handedOver w with
        | .ok added => ({ s with comparison := s.comparison.or other.comparison }).addAll added
        | .error _ => s := by
  have comparison := (rearranged_sortedView other w).comparison
  unfold addSource handedOver
  rw [unmarked, if_neg Bool.false_ne_true]
  simp only
  cases (other.sortedView w).result.bind Feed.all with
  | error e => exact ⟨rfl, rfl⟩
  | ok added =>
      cases ((other.sortedView w).source.close (other.sortedView w).workspace).1 with
      | error e => exact ⟨rfl, rfl⟩
      | ok closed =>
          rw [← comparison]
          exact ⟨rfl, rfl⟩

theorem isInitialized_addSource (s : Source) {other : Source}
    (unmarked : other.isMarkedEmpty = false) (w : Workspace) :
    (s.addSource other w).2.1.isInitialized =
      match other.handedOver w with
      | .ok added => s.isInMemory || !added.isEmpty
      | .error _ => s.isInitialized := by
  rw [(addSource_eq s unmarked w).2]
  cases other.handedOver w with
  | error e => rfl
  | ok added => exact isInitialized_addAll _ added

/-! ## Steps -/

/-- An operation on an initialized source leaves it initialized, unless it adds no records and none
are in memory. -/
theorem Operation.isInitialized_apply_iff (o : Operation) (known : s.isInitialized = true)
    (w : Workspace) :
    (o.apply s w).isInitialized = true ↔ (o.AddsNothing w → s.isInMemory = true) := by
  cases o with
  | extend addition =>
      rw [apply, AddsNothing, Addition.apply_eq_addAll, isInitialized_addAll]
      cases addition.records <;> simp
  | addSource other =>
      rw [apply, AddsNothing]
      cases marked : other.isMarkedEmpty with
      | true =>
          rw [Source.addSource, marked, if_pos rfl]
          exact iff_of_true rfl (by rintro ⟨⟨⟩, -⟩)
      | false =>
          rw [isInitialized_addSource s marked]
          cases other.handedOver w with
          | error e => exact iff_of_true known (by rintro ⟨-, ⟨⟩⟩)
          | ok added => cases added <;> simp
  | sortedView =>
      exact iff_of_true ((rearranged_sortedView s w).isInitialized_eq.trans known) False.elim
  | sortedViewWith c =>
      exact iff_of_true ((rearranged_sortedViewWith s c w).isInitialized_eq.trans known) False.elim
  | preview =>
      exact iff_of_true ((rearranged_preview s w).isInitialized_eq.trans known) False.elim
  | save path =>
      exact iff_of_true ((rearranged_save s path w).isInitialized_eq.trans known) False.elim
  | checkAgainst expected =>
      exact iff_of_true ((rearranged_check s expected w).1.isInitialized_eq.trans known) False.elim
  | checkOf actual =>
      exact iff_of_true ((rearranged_check actual s w).2.isInitialized_eq.trans known) False.elim
  | load path => exact iff_of_true rfl False.elim
  | loadWith format path => exact iff_of_true rfl False.elim
  | generate reader => exact iff_of_true rfl False.elim
  | generateFrom schema seed count => exact iff_of_true rfl False.elim
  | markEmpty => exact iff_of_true rfl False.elim
  | withComparison c => exact iff_of_true known False.elim
  | withBudget octets => exact iff_of_true known False.elim
  | withMerger merger => exact iff_of_true known False.elim
  | records => exact iff_of_true known False.elim
  | close => exact iff_of_true known False.elim

/-! ## Sequences -/

theorem run_append (s : Source) (before after : List (Operation × Workspace)) :
    s.run (before ++ after) = (s.run before).run after :=
  List.foldl_append

/-- Whatever is done with a source, it never ceases to be initialized, exactly if each operation
that adds no records to an initialized source finds some in memory. -/
theorem isInitialized_run_iff (s : Source) (steps : List (Operation × Workspace)) :
    (∀ before after, before ++ after <+: steps → (s.run before).isInitialized = true →
      (s.run (before ++ after)).isInitialized = true) ↔
    ∀ before o w, before ++ [(o, w)] <+: steps → (s.run before).isInitialized = true →
      o.AddsNothing w → (s.run before).isInMemory = true := by
  constructor
  · intro kept before o w inside known
    have still := kept before [(o, w)] inside known
    rw [run_append] at still
    exact (o.isInitialized_apply_iff known w).mp still
  · intro harmless before after
    -- From an initialized state on, the operations are gone through one by one.
    induction after generalizing before with
    | nil =>
        intro _ known
        rw [List.append_nil]
        exact known
    | cons step after ih =>
        intro inside known
        obtain ⟨o, w⟩ := step
        rw [List.append_cons] at inside ⊢
        have here : before ++ [(o, w)] <+: steps := (List.prefix_append _ after).trans inside
        refine ih (before ++ [(o, w)]) inside ?_
        rw [run_append]
        exact (o.isInitialized_apply_iff known w).mpr (harmless before o w here known)

/-- A source that was marked empty ceases to be initialized when a list of no records is added to
it. -/
theorem addAll_nil_unmarks :
    (new.run [(.markEmpty, .ofFiles .empty (.ofName "spill"))]).isInitialized = true ∧
      (new.run [(.markEmpty, .ofFiles .empty (.ofName "spill")),
        (.extend (.addAll []), .ofFiles .empty (.ofName "spill"))]).isInitialized = false :=
  ⟨rfl, rfl⟩

end Source

end Reconcile
