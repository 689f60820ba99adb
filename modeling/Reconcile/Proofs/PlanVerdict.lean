import Mathlib.Data.List.ReduceOption
import Reconcile.Plan
import Reconcile.Proofs.RepeatedChecks

/-!
# Verdicts of plans

A plan is verified if each of its expected outputs is, in the order of their names; the first that
is not ends the verification, and those behind it are left alone.  How one output fares does not
depend on those in front of it.
-/

namespace Reconcile

/-- What a check gives does not depend on what was opened and closed in its workspace before. -/
theorem Source.check_result_eq {w w' : Workspace} (alike : w.Alike w') (actual expected : Source) :
    (check actual expected w').result = (check actual expected w).result := by
  have agree := check_agree (.refl actual expected) alike.similar (.refl actual) (.refl expected)
  rw [alike.name] at agree
  exact agree.eq

/-! ## Outputs -/

namespace Outputs

theorem lookup_cons (name other : String) (s : Source) (rest : List (String × Source)) :
    ((other, s) :: rest).lookup name = if name = other then some s else rest.lookup name := by
  rw [List.lookup_cons]
  by_cases here : name = other
  · rw [if_pos here, beq_iff_eq.mpr here]
  · rw [if_neg here, beq_eq_false_iff_ne.mpr here]

theorem lookup_place (name other : String) (s : Source) (sources : List (String × Source)) :
    (place name s sources).lookup other =
      if other = name then some s else sources.lookup other := by
  induction sources with
  | nil => exact lookup_cons other name s []
  | cons first rest ih =>
      obtain ⟨firstName, s'⟩ := first
      unfold place
      split
      · rename_i same
        subst same
        by_cases here : other = name <;> simp [lookup_cons, here]
      · split
        · exact lookup_cons other name s _
        · rename_i apart _
          rw [lookup_cons, lookup_cons, ih]
          by_cases here : other = name
          · subst here
            rw [if_neg apart]
            simp
          · simp [here]

theorem get?_put (o : Outputs) (name other : String) (s : Source) :
    (o.put name s).get? other = if other = name then some s else o.get? other :=
  lookup_place name other s o.sources

theorem get?_put_of_ne (o : Outputs) {name other : String} (apart : other ≠ name) (s : Source) :
    (o.put name s).get? other = o.get? other := by
  rw [get?_put, if_neg apart]

theorem lookup_eq_some_iff {sources : List (String × Source)} {name : String} {s : Source}
    (ordered : (sources.map Prod.fst).Pairwise (· < ·)) :
    sources.lookup name = some s ↔ (name, s) ∈ sources := by
  induction sources with
  | nil => simp
  | cons first rest ih =>
      obtain ⟨other, s'⟩ := first
      obtain ⟨front, later⟩ := List.pairwise_cons.mp ordered
      rw [lookup_cons, List.mem_cons]
      by_cases here : name = other
      · subst here
        have behind : (name, s) ∉ rest := fun member =>
          String.lt_irrefl name (front name (List.mem_map_of_mem member))
        simp [behind, eq_comm]
      · simp [here, ih later]

theorem get?_eq_some_iff (o : Outputs) {name : String} {s : Source} :
    o.get? name = some s ↔ (name, s) ∈ o.sources :=
  lookup_eq_some_iff o.ordered

end Outputs

/-! ## Reports -/

/-- What reports count is added up when they are absorbed. -/
theorem Report.foldl_absorb (count : Report → Nat)
    (additive : ∀ r other, count (r.absorb other) = count r + count other) (total : Report)
    (reports : List Report) :
    count (reports.foldl absorb total) = count total + (reports.map count).sum := by
  induction reports generalizing total with
  | nil => rfl
  | cons r reports ih =>
      rw [List.foldl_cons, ih, additive, List.map_cons, List.sum_cons, Nat.add_assoc]

namespace Plan

variable {p p' : Plan} {w w' : Workspace} {name other : String} {s : Source}

/-! ## One output -/

/-- The comparison of an expected output: its own, else that of the plan, else one inferred from its
first record. -/
def configuration? (p : Plan) (name : String) (s : Source) : Option Comparison :=
  s.comparison.or (p.comparison.or (inferred? name s))

theorem resolved?_eq (p : Plan) (name : String) (s : Source) :
    p.resolved? name s = (p.configuration? name s).map s.withComparison := by
  unfold resolved? configuration?
  cases configured : s.comparison with
  | none => rw [Option.none_or]
  | some c =>
      simp only [Option.some_or, Option.map_some, Source.withComparison]
      rw [← configured]

/-- What a check of an output by a comparison gives.  An actual output that is missing is a source
without records. -/
def checkOutput (p : Plan) (w : Workspace) (name : String) (s : Source) (c : Comparison) :
    Except Failure Report :=
  (Source.check ((p.actual.get? name).getD Source.new) (s.withComparison c) w).result

/-- How an expected output fares: there may be no comparison for it, nothing may be expected, or it
may be equal to the actual output or differ from it. -/
inductive Fares (p : Plan) (w : Workspace) (name : String) (s : Source) :
    Except Failure (Option Report) → Prop where
  | unconfigured (nothing : p.configuration? name s = none) :
      Fares p w name s
        (.error (.configuration ("no type configuration for output '" ++ name ++ "'")))
  | unexpected {c : Comparison} (configured : p.configuration? name s = some c)
      (unknown : s.isInitialized = false) : Fares p w name s (.ok none)
  | equal {c : Comparison} {report : Report} (configured : p.configuration? name s = some c)
      (known : s.isInitialized = true) (passes : p.checkOutput w name s c = .ok report) :
      Fares p w name s (.ok (some report))
  | different {c : Comparison} {e : Failure} (configured : p.configuration? name s = some c)
      (known : s.isInitialized = true) (fails : p.checkOutput w name s c = .error e) :
      Fares p w name s (.error (atOutput name e))

theorem Fares.unique {result result' : Except Failure (Option Report)}
    (fares : p.Fares w name s result) (fares' : p.Fares w name s result') : result = result' := by
  cases fares with
  | unconfigured nothing =>
      cases fares' with
      | unconfigured => rfl
      | unexpected configured => cases nothing.symm.trans configured
      | equal configured => cases nothing.symm.trans configured
      | different configured => cases nothing.symm.trans configured
  | unexpected configured unknown =>
      cases fares' with
      | unconfigured nothing => cases nothing.symm.trans configured
      | unexpected => rfl
      | equal _ known => cases unknown.symm.trans known
      | different _ known => cases unknown.symm.trans known
  | equal configured known passes =>
      cases fares' with
      | unconfigured nothing => cases nothing.symm.trans configured
      | unexpected _ unknown => cases unknown.symm.trans known
      | equal configured' _ passes' =>
          obtain rfl := Option.some.inj (configured.symm.trans configured')
          rw [Except.ok.inj (passes.symm.trans passes')]
      | different configured' _ fails =>
          obtain rfl := Option.some.inj (configured.symm.trans configured')
          cases passes.symm.trans fails
  | different configured known fails =>
      cases fares' with
      | unconfigured nothing => cases nothing.symm.trans configured
      | unexpected _ unknown => cases unknown.symm.trans known
      | equal configured' _ passes =>
          obtain rfl := Option.some.inj (configured.symm.trans configured')
          cases passes.symm.trans fails
      | different configured' _ fails' =>
          obtain rfl := Option.some.inj (configured.symm.trans configured')
          rw [Except.error.inj (fails.symm.trans fails')]

/-- Plans that are the same but for the sources of one name. -/
structure SameBut (name : String) (p p' : Plan) : Prop where
  comparison : p'.comparison = p.comparison
  expected : ∀ other, other ≠ name → p'.expected.get? other = p.expected.get? other
  actual : ∀ other, other ≠ name → p'.actual.get? other = p.actual.get? other

namespace SameBut

theorem refl (name : String) (p : Plan) : SameBut name p p := ⟨rfl, fun _ _ => rfl, fun _ _ => rfl⟩

theorem withExpected (same : SameBut name p p') (s : Source) :
    SameBut name p (p'.withExpected name s) where
  comparison := same.comparison
  expected other apart :=
    (p'.expected.get?_put_of_ne apart s).trans (same.expected other apart)
  actual := same.actual

theorem withActual (same : SameBut name p p') (s : Source) :
    SameBut name p (p'.withActual name s) where
  comparison := same.comparison
  expected := same.expected
  actual other apart := (p'.actual.get?_put_of_ne apart s).trans (same.actual other apart)

theorem fares (same : SameBut name p p') (alike : w.Alike w') (apart : other ≠ name)
    {result : Except Failure (Option Report)} (fares : p'.Fares w' other s result) :
    p.Fares w other s result := by
  have configuration : p'.configuration? other s = p.configuration? other s := by
    rw [configuration?, configuration?, same.comparison]
  have check (c : Comparison) : p'.checkOutput w' other s c = p.checkOutput w other s c := by
    rw [checkOutput, checkOutput, same.actual other apart]
    exact Source.check_result_eq alike _ _
  cases fares with
  | unconfigured nothing => exact .unconfigured (configuration ▸ nothing)
  | unexpected configured unknown => exact .unexpected (configuration ▸ configured) unknown
  | equal configured known passes =>
      exact .equal (configuration ▸ configured) known ((check _).symm.trans passes)
  | different configured known fails =>
      exact .different (configuration ▸ configured) known ((check _).symm.trans fails)

end SameBut

/-! ## Outputs in order -/

/-- The first of some outputs fails and ends the verification, or it passes and the others are
verified; only its own sources may change. -/
theorem verifyEach_step (p : Plan) (w : Workspace) (total : Report) (name : String) (s : Source)
    (rest : List (String × Source)) :
    (∃ e p' w', p.Fares w name s (.error e) ∧ SameBut name p p' ∧
        p.verifyEach w total ((name, s) :: rest) = ⟨.error e, p', w'⟩) ∨
      ∃ report? p' w', p.Fares w name s (.ok report?) ∧ SameBut name p p' ∧ w.Alike w' ∧
        p.verifyEach w total ((name, s) :: rest) =
          p'.verifyEach w' (report?.elim total total.absorb) rest := by
  rw [verifyEach, resolved?_eq]
  cases configured : p.configuration? name s with
  | none => exact Or.inl ⟨_, p, w, .unconfigured configured, .refl name p, rfl⟩
  | some c =>
      have own := (SameBut.refl name p).withExpected (s.withComparison c)
      cases known : s.isInitialized with
      | false =>
          refine Or.inr ⟨none, _, w, .unexpected configured known, own, .refl w, ?_⟩
          exact if_neg (Bool.eq_false_iff.mp known)
      | true =>
          let actual := ((p.withExpected name (s.withComparison c)).actual.get? name).getD .new
          let checked := Source.check actual (s.withComparison c) w
          have after := (own.withExpected checked.expected).withActual checked.actual
          have alike : w.Alike checked.workspace := Source.alike_check _ _ w
          have known' : (s.withComparison c).isInitialized = true := known
          simp only [Option.map_some, known', if_true]
          cases result : checked.result with
          | error e =>
              exact Or.inl ⟨_, _, checked.workspace, .different configured known result, after, rfl⟩
          | ok report =>
              exact Or.inr ⟨some report, _, _, .equal configured known result, after, alike, rfl⟩

/-- Outputs that all pass are added up; otherwise the first failure is told, and the sources behind
it are as they were. -/
theorem verifyEach_cases (p : Plan) (w : Workspace) (total : Report)
    {outputs : List (String × Source)} (ordered : (outputs.map Prod.fst).Pairwise (· < ·)) :
    (∃ reports, List.Forall₂ (fun output report? => p.Fares w output.1 output.2 (.ok report?))
        outputs reports ∧
        (p.verifyEach w total outputs).result = .ok (reports.reduceOption.foldl .absorb total)) ∨
      ∃ e, (p.verifyEach w total outputs).result = .error e ∧
        ∃ name s, (name, s) ∈ outputs ∧ p.Fares w name s (.error e) ∧
        (∀ other s', (other, s') ∈ outputs → other < name →
          ∃ report?, p.Fares w other s' (.ok report?)) ∧
        ∀ later, name < later →
          (p.verifyEach w total outputs).plan.expected.get? later = p.expected.get? later ∧
          (p.verifyEach w total outputs).plan.actual.get? later = p.actual.get? later := by
  -- An output changes only the sources of its own name, on which no later one depends.
  induction outputs generalizing p w total with
  | nil => exact Or.inl ⟨[], .nil, rfl⟩
  | cons first rest ih =>
      obtain ⟨name, s⟩ := first
      obtain ⟨front, behind⟩ := List.pairwise_cons.mp ordered
      have after {other : String} {s' : Source} (member : (other, s') ∈ rest) : name < other :=
        front other (List.mem_map_of_mem member)
      have apart {other : String} (less : name < other) : other ≠ name := by
        rintro rfl
        exact String.lt_irrefl other less
      rcases verifyEach_step p w total name s rest with
        ⟨e, p', w', fares, same, ends⟩ | ⟨report?, p', w', fares, same, alike, goesOn⟩
      · refine Or.inr ⟨e, congrArg Verified.result ends, name, s, List.mem_cons_self, fares, ?_, ?_⟩
        · intro other s' member less
          rcases List.mem_cons.mp member with here | later
          · obtain ⟨rfl, -⟩ := Prod.mk.inj here
            exact absurd less (String.lt_irrefl other)
          · exact absurd (String.lt_trans less (after later)) (String.lt_irrefl other)
        · intro later less
          rw [ends]
          exact ⟨same.expected later (apart less), same.actual later (apart less)⟩
      · rw [goesOn]
        rcases ih p' w' (report?.elim total total.absorb) behind with
          ⟨reports, all, result⟩ | ⟨e, result, failing, s', member, fails, passed, untouched⟩
        · refine Or.inl ⟨report? :: reports, .cons fares ?_, ?_⟩
          · have laterNames : ∀ output ∈ rest, name < output.1 := fun output member => after member
            refine ((List.forall₂_and_left _ _).mpr ⟨laterNames, all⟩).imp ?_
            rintro output report? ⟨less, passes⟩
            exact same.fares alike (apart less) passes
          · rw [result]
            cases report? <;> rfl
        · refine Or.inr ⟨e, result, failing, s', List.mem_cons_of_mem _ member,
            same.fares alike (apart (after member)) fails, ?_, ?_⟩
          · intro other s'' found less
            rcases List.mem_cons.mp found with here | later
            · obtain ⟨rfl, rfl⟩ := Prod.mk.inj here
              exact ⟨report?, fares⟩
            · obtain ⟨passes, faresLater⟩ := passed other s'' later less
              exact ⟨passes, same.fares alike (apart (after later)) faresLater⟩
          · intro later less
            have apartLater := apart (String.lt_trans (after member) less)
            obtain ⟨expectedKept, actualKept⟩ := untouched later less
            exact ⟨expectedKept.trans (same.expected later apartLater),
              actualKept.trans (same.actual later apartLater)⟩

/-- A plan is verified just if for each expected output there is a comparison and nothing is
expected of it or it equals the actual output; what the checks counted is then added up.  Otherwise
the failure of the least failing name is told, and the sources of greater names are as they were. -/
theorem verify_verdict (p : Plan) (w : Workspace) :
    ((∃ total, (p.verify w).result = .ok total) ↔
        ∀ name s, p.expected.get? name = some s → ∃ report?, p.Fares w name s (.ok report?)) ∧
      (∀ total, (p.verify w).result = .ok total →
        ∃ reports, List.Forall₂ (fun output report? => p.Fares w output.1 output.2 (.ok report?))
            p.expected.sources reports ∧
          total.groups = (reports.reduceOption.map Report.groups).sum ∧
          total.expected = (reports.reduceOption.map Report.expected).sum ∧
          total.actual = (reports.reduceOption.map Report.actual).sum) ∧
      ∀ e, (p.verify w).result = .error e →
        ∃ name s, p.expected.get? name = some s ∧ p.Fares w name s (.error e) ∧
          (∀ other s', p.expected.get? other = some s' → other < name →
            ∃ report?, p.Fares w other s' (.ok report?)) ∧
          ∀ later, name < later →
            (p.verify w).plan.expected.get? later = p.expected.get? later ∧
            (p.verify w).plan.actual.get? later = p.actual.get? later := by
  have found {name : String} {s : Source} : p.expected.get? name = some s ↔
      (name, s) ∈ p.expected.sources := p.expected.get?_eq_some_iff
  rcases verifyEach_cases p w .empty p.expected.ordered with
    ⟨reports, all, result⟩ | ⟨e, result, name, s, member, fails, passed, untouched⟩
  · have passes : ∀ name s, p.expected.get? name = some s →
        ∃ report?, p.Fares w name s (.ok report?) := by
      intro name s given
      obtain ⟨place, inside, here⟩ := List.mem_iff_getElem.mp (found.mp given)
      have fares := all.get inside (all.length_eq ▸ inside)
      rw [List.get_eq_getElem, here] at fares
      exact ⟨_, fares⟩
    refine ⟨iff_of_true ⟨_, result⟩ passes, ?_, ?_⟩
    · intro total told
      obtain rfl := Except.ok.inj (result.symm.trans told)
      refine ⟨reports, all, ?_, ?_, ?_⟩
      · rw [Report.foldl_absorb Report.groups fun _ _ => rfl]
        exact Nat.zero_add _
      · rw [Report.foldl_absorb Report.expected fun _ _ => rfl]
        exact Nat.zero_add _
      · rw [Report.foldl_absorb Report.actual fun _ _ => rfl]
        exact Nat.zero_add _
    · intro e told
      cases result.symm.trans told
  · refine ⟨iff_of_false ?_ ?_, ?_, ?_⟩
    · rintro ⟨total, told⟩
      cases result.symm.trans told
    · intro passes
      obtain ⟨report?, fares⟩ := passes name s (found.mpr member)
      cases fails.unique fares
    · intro total told
      cases result.symm.trans told
    · intro e' told
      obtain rfl := Except.error.inj (result.symm.trans told)
      exact ⟨name, s, found.mpr member, fails,
        fun other s' given less => passed other s' (found.mp given) less, untouched⟩

end Plan

end Reconcile
