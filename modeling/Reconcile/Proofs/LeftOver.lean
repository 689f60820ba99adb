import Mathlib.Data.List.Count
import Reconcile.Proofs.ExactMatching

/-!
# What is left over of a group

Exact matching leaves over on each side the rows that the other side lacks, repetitions counted, and
so the least that can be left over of every class of equal records.  The number of records left over,
by exact as well as by tolerant matching, therefore does not depend on the order in which the records
of a group come.
-/

namespace Reconcile

/-- As many records are left over on either side. -/
structure Residue.SameSize (r other : Residue) : Prop where
  expected : r.expected.length = other.expected.length
  actual : r.actual.length = other.actual.length

namespace Matcher

/-! ## Exact matching -/

section Exact

variable {α : Type} [DecidableEq α] {equal : Record → Record → Bool} {f : Record → α}

/-- The first record that is equal to another takes one occurrence of its image away. -/
theorem map_eraseP (same : ∀ a b, equal a b = true ↔ f a = f b) (a : Record)
    (records : List Record) :
    (records.eraseP (equal a)).map f = (records.map f).erase (f a) := by
  have equals : equal a = (fun image => f a == image) ∘ f := by
    funext b
    rw [Bool.eq_iff_iff, same, Function.comp, beq_iff_eq]
  rw [List.erase_eq_eraseP, List.eraseP_map, ← equals]

omit [DecidableEq α] in
theorem notMem_map_of_not_any (same : ∀ a b, equal a b = true ↔ f a = f b) {a : Record}
    {records : List Record} (missing : ¬ records.any (equal a) = true) :
    f a ∉ records.map f := by
  intro member
  obtain ⟨b, inRecords, equals⟩ := List.mem_map.mp member
  exact missing (List.any_eq_true.mpr ⟨b, inRecords, (same a b).mpr equals.symm⟩)

/-- The images of the expected records that are left over are those that actual records do not take
away. -/
theorem pairOff_expected (same : ∀ a b, equal a b = true ↔ f a = f b)
    (expected actual : List Record) :
    (pairOff equal expected actual).expected.map f = (expected.map f).diff (actual.map f) := by
  induction actual generalizing expected with
  | nil => rw [pairOff, List.map_nil, List.diff_nil]
  | cons a actual ih =>
      rw [pairOff, List.map_cons, List.diff_cons]
      by_cases found : expected.any (equal a) = true
      · rw [if_pos found, ih, map_eraseP same]
      · rw [if_neg found, List.erase_of_not_mem (notMem_map_of_not_any same found)]
        exact ih expected

/-- The images of the actual records that are left over are those that expected records do not take
away, in some order. -/
theorem pairOff_actual (same : ∀ a b, equal a b = true ↔ f a = f b)
    (expected actual : List Record) :
    ((pairOff equal expected actual).actual.map f).Perm
      ((actual.map f).diff (expected.map f)) := by
  induction actual generalizing expected with
  | nil => rw [pairOff, List.map_nil, List.nil_diff]
  | cons a actual ih =>
      rw [List.perm_iff_count]
      intro image
      have rest := (ih (expected.eraseP (equal a))).count_eq image
      rw [List.count_diff, map_eraseP same, List.count_erase] at rest
      rw [List.count_diff, pairOff, List.map_cons, List.count_cons]
      by_cases found : expected.any (equal a) = true
      · have taken : 0 < (expected.map f).count (f a) := by
          obtain ⟨e, member, equals⟩ := List.any_eq_true.mp found
          rw [List.count_pos_iff, (same a e).mp equals]
          exact List.mem_map_of_mem member
        rw [if_pos found, rest]
        split
        · rename_i here
          obtain rfl := beq_iff_eq.mp here
          omega
        · omega
      · have missing := List.count_eq_zero.mpr (notMem_map_of_not_any same found)
        have unchanged : expected.eraseP (equal a) = expected :=
          List.eraseP_of_forall_not fun e member equals =>
            found (List.any_eq_true.mpr ⟨e, member, equals⟩)
        rw [unchanged] at rest
        rw [if_neg found, List.map_cons, List.count_cons, rest]
        split
        · rename_i here
          obtain rfl := beq_iff_eq.mp here
          omega
        · omega

theorem sameSize_pairOff (same : ∀ a b, equal a b = true ↔ f a = f b)
    {expected expected' actual actual' : List Record} (expectedPerm : expected.Perm expected')
    (actualPerm : actual.Perm actual') :
    (pairOff equal expected actual).SameSize (pairOff equal expected' actual') where
  expected := by
    have images := (expectedPerm.map f).diff (actualPerm.map f)
    rw [← pairOff_expected same, ← pairOff_expected same] at images
    simpa using images.length_eq
  actual := by
    have images := (pairOff_actual same expected actual).trans
      (((actualPerm.map f).diff (expectedPerm.map f)).trans
        (pairOff_actual same expected' actual').symm)
    simpa using images.length_eq

end Exact

/-! ## Classes of equal records -/

section Classes

variable {equal : Record → Record → Bool}

theorem pairOff_expected_sublist (equal : Record → Record → Bool) (expected actual : List Record) :
    (pairOff equal expected actual).expected.Sublist expected := by
  induction actual generalizing expected with
  | nil => exact List.Sublist.refl _
  | cons a actual ih =>
      rw [pairOff]
      split
      · exact (ih _).trans List.eraseP_sublist
      · exact ih expected

theorem pairOff_actual_sublist (equal : Record → Record → Bool) (expected actual : List Record) :
    (pairOff equal expected actual).actual.Sublist actual := by
  induction actual generalizing expected with
  | nil => exact List.Sublist.refl _
  | cons a actual ih =>
      rw [pairOff]
      split
      · exact (ih _).cons a
      · exact (ih expected).cons_cons a

/-- Records are taken off in pairs. -/
theorem length_pairOff (equal : Record → Record → Bool) (expected actual : List Record) :
    (pairOff equal expected actual).expected.length + actual.length =
      (pairOff equal expected actual).actual.length + expected.length := by
  induction actual generalizing expected with
  | nil => exact Nat.add_comm _ _
  | cons a actual ih =>
      rw [pairOff, List.length_cons]
      split
      case isTrue found =>
          obtain ⟨e, member, equals⟩ := List.any_eq_true.mp found
          have taken : (expected.eraseP (equal a)).length = expected.length - 1 :=
            List.length_eraseP_of_mem member equals
          have some_ : 0 < expected.length := List.length_pos_of_mem member
          have others := ih (expected.eraseP (equal a))
          omega
      case isFalse =>
          have others := ih expected
          simp only [List.length_cons]
          omega

/-- Under an equivalence, records are equal just if they are equal to the same records. -/
theorem equal_iff_of_equivalence (equivalence : Equivalence fun a b => equal a b = true)
    (a b : Record) : equal a b = true ↔ equal a = equal b := by
  constructor
  · intro same
    funext r
    rw [Bool.eq_iff_iff]
    exact ⟨equivalence.trans (equivalence.symm same), equivalence.trans same⟩
  · intro same
    rw [same]
    exact equivalence.refl b

open Classical in
/-- The records of a class, counted by what they are equal to. -/
theorem count_map_equal (equivalence : Equivalence fun a b => equal a b = true) (r : Record)
    (records : List Record) : (records.map equal).count (equal r) = records.countP (equal r) := by
  rw [List.count, List.countP_map]
  refine List.countP_congr fun s _ => ?_
  rw [Function.comp, beq_iff_eq, eq_comm, equal_iff_of_equivalence equivalence]

open Classical in
/-- Exact matching by an equivalence takes as many records off the one side as off the other, and
leaves over of each class of equal records just what one side has more of than the other.  So
nothing that is left over on one side is equal to anything left over on the other. -/
theorem residue_exact_minimal (equivalence : Equivalence fun a b => equal a b = true) (s : Schema)
    (expected actual : List Record) :
    let left := (exact equal).residue s expected actual
    left.expected.Sublist expected ∧ left.actual.Sublist actual ∧
      expected.length - left.expected.length = actual.length - left.actual.length ∧
      (∀ r, left.expected.countP (equal r) = expected.countP (equal r) - actual.countP (equal r) ∧
        left.actual.countP (equal r) = actual.countP (equal r) - expected.countP (equal r)) ∧
      ∀ e ∈ left.expected, ∀ a ∈ left.actual, equal e a = false := by
  intro left
  have classes := equal_iff_of_equivalence equivalence
  have inExpected : left.expected.Sublist expected := pairOff_expected_sublist equal expected actual
  have inActual : left.actual.Sublist actual := pairOff_actual_sublist equal expected actual
  have counts (r : Record) :
      left.expected.countP (equal r) = expected.countP (equal r) - actual.countP (equal r) ∧
        left.actual.countP (equal r) = actual.countP (equal r) - expected.countP (equal r) := by
    simp only [← count_map_equal equivalence, ← List.count_diff]
    exact ⟨congrArg _ (pairOff_expected classes expected actual),
      (pairOff_actual classes expected actual).count_eq _⟩
  refine ⟨inExpected, inActual, ?_, counts, fun e inLeft a inLeft' => ?_⟩
  · have pairs := length_pairOff equal expected actual
    have fewer := inExpected.length_le
    have fewer' := inActual.length_le
    change left.expected.length + actual.length = left.actual.length + expected.length at pairs
    omega
  · -- of the class of both, one side would have more than the other and the other more than it
    refine Bool.eq_false_iff.mpr fun same => ?_
    have more : 0 < left.expected.countP (equal e) :=
      List.countP_pos_iff.mpr ⟨e, inLeft, equivalence.refl e⟩
    have more' : 0 < left.actual.countP (equal e) := List.countP_pos_iff.mpr ⟨a, inLeft', same⟩
    have := counts e
    omega

/-- A record that comes twice on one side and once on the other is left over once, and a field that
is absent is as good as a null one. -/
theorem residue_exact_minimal_repeated :
    let equal := Record.agree 2
    let expected : List Record :=
      [⟨[.int 1, .text "a"]⟩, ⟨[.int 2]⟩, ⟨[.int 1, .text "a"]⟩, ⟨[.int 3, .null]⟩]
    let actual : List Record := [⟨[.int 2, .null]⟩, ⟨[.int 4]⟩, ⟨[.int 1, .text "a"]⟩]
    let left := (exact equal).residue (.ofTypes "pairs" [.int, .text]) expected actual
    Equivalence (fun a b => equal a b = true) ∧
      left = ⟨[⟨[.int 1, .text "a"]⟩, ⟨[.int 3, .null]⟩], [⟨[.int 4]⟩]⟩ ∧
      expected.length - left.expected.length = actual.length - left.actual.length ∧
      ∀ e ∈ left.expected, ∀ a ∈ left.actual, equal e a = false := by
  intro equal expected actual left
  have equivalence : Equivalence fun a b => equal a b = true := by
    simp only [equal, Record.agree_iff]
    exact ⟨fun _ => rfl, Eq.symm, Eq.trans⟩
  obtain ⟨-, -, pairs, -, apart⟩ :=
    residue_exact_minimal equivalence (.ofTypes "pairs" [.int, .text]) expected actual
  exact ⟨equivalence, by decide, pairs, apart⟩

end Classes

/-! ## Tolerant matching -/

theorem sameSize_leaveFar (near : Record → Record → Bool)
    {expected expected' actual actual' : List Record} (expectedPerm : expected.Perm expected')
    (actualPerm : actual.Perm actual') :
    (leaveFar near expected actual).SameSize (leaveFar near expected' actual') where
  expected := by
    simp only [leaveFar, actualPerm.any_eq]
    exact (expectedPerm.filter _).length_eq
  actual := by
    simp only [leaveFar, expectedPerm.any_eq]
    exact (actualPerm.filter _).length_eq

/-! ## The matchers that are provided -/

/-- The matchers that are at hand without a rule of one's own: exact ones for the fields of some
schema, and tolerant ones. -/
inductive IsProvided : Matcher → Prop where
  | exact (s : Schema) : IsProvided (.exact (Record.agree s.length))
  | tolerant (t : Tolerances) : IsProvided (.tolerant t)

/-- How many records are left over does not depend on the order in which they come. -/
theorem IsProvided.sameSize {m : Matcher} (provided : m.IsProvided) (s : Schema)
    {expected expected' actual actual' : List Record} (expectedPerm : expected.Perm expected')
    (actualPerm : actual.Perm actual') :
    (m.residue s expected actual).SameSize (m.residue s expected' actual') := by
  cases provided with
  | exact other =>
      exact sameSize_pairOff (f := fun r => r.row other.length) (fun _ _ => Record.agree_iff)
        expectedPerm actualPerm
  | tolerant t => exact sameSize_leaveFar (t.isNear s) expectedPerm actualPerm

end Matcher

end Reconcile
