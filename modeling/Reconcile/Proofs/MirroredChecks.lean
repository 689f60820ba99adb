import Reconcile.Proofs.Distances
import Reconcile.Proofs.LeftOver
import Reconcile.Proofs.StableOrder

/-!
# Mirrored checks

Under every comparison that is derived from a schema's, whatever key, equality, matcher and
tolerances it combines, records match themselves in any order, and two sides that match still match
when they are exchanged.
-/

namespace Reconcile

/-- A report on the same groups with both sides exchanged. -/
def Report.mirrored (r : Report) : Report := { r with expected := r.actual, actual := r.expected }

/-! ## One group -/

namespace Matcher

variable {m : Matcher} {expected actual : List Record}

/-- Pairing by the first fields leaves nothing over exactly of lists with the same rows. -/
theorem pairOff_agree_isEmpty_iff (count : Nat) :
    (pairOff (Record.agree count) expected actual).isEmpty = true ↔
      (expected.map fun r => r.row count).Perm (actual.map fun r => r.row count) :=
  pairOff_isEmpty_iff (f := fun r => r.row count) (fun _ _ => Record.agree_iff) expected actual

/-- Matchers that are provided leave nothing of a group over if they leave nothing over with both
sides exchanged. -/
theorem IsProvided.isEmpty_comm (provided : m.IsProvided) (s : Schema) :
    (m.residue s expected actual).isEmpty = true ↔
      (m.residue s actual expected).isEmpty = true := by
  cases provided with
  | exact other =>
      rw [residue, residue, pairOff_agree_isEmpty_iff, pairOff_agree_isEmpty_iff]
      exact List.perm_comm
  | tolerant t =>
      rw [residue, residue, leaveFar_isEmpty_iff, leaveFar_isEmpty_iff]
      exact covers_comm t s

/-- Matchers that are provided leave nothing over of the same records in any order. -/
theorem IsProvided.isEmpty_of_perm (provided : m.IsProvided) (s : Schema)
    (reordered : actual.Perm expected) : (m.residue s expected actual).isEmpty = true := by
  cases provided with
  | exact other =>
      rw [residue, pairOff_agree_isEmpty_iff]
      exact (reordered.map _).symm
  | tolerant t =>
      rw [residue, leaveFar_isEmpty_iff]
      exact covers_of_rows_perm t (reordered.map _).symm

end Matcher

/-! ## All groups -/

namespace Grouped

open Key

variable {c : Comparison} {expected actual : List Record}

theorem Passes.symm (provided : c.matcher.IsProvided) (passes : Passes c expected actual) :
    Passes c actual expected where
  expectedKey e member := by
    obtain ⟨a, inGroup⟩ := List.exists_mem_of_ne_nil _ (passes.found e member)
    exact ⟨a, mem_group.mp inGroup⟩
  found a member := by
    obtain ⟨e, inExpected, same⟩ := passes.expectedKey a member
    exact List.ne_nil_of_mem (mem_group.mpr ⟨inExpected, same⟩)
  matched a member := by
    obtain ⟨e, inExpected, same⟩ := passes.expectedKey a member
    rw [← same]
    exact (provided.isEmpty_comm c.schema).mp (passes.matched e inExpected)

theorem passes_of_perm (provided : c.matcher.IsProvided) (reordered : actual.Perm expected) :
    Passes c expected actual where
  expectedKey a member := ⟨a, reordered.mem_iff.mp member, rfl⟩
  found _ member := List.ne_nil_of_mem (mem_group.mpr ⟨reordered.mem_iff.mpr member, rfl⟩)
  matched _ _ := provided.isEmpty_of_perm c.schema (reordered.filter _)

/-- Sides that pass have the same keys. -/
theorem Passes.keys_eq (passes : Passes c expected actual) :
    (expected.map c.key.extract).toFinset = (actual.map c.key.extract).toFinset := by
  ext values
  simp only [List.mem_toFinset, List.mem_map]
  constructor
  · rintro ⟨e, member, rfl⟩
    obtain ⟨a, inGroup⟩ := List.exists_mem_of_ne_nil _ (passes.found e member)
    exact ⟨a, mem_group.mp inGroup⟩
  · rintro ⟨a, member, rfl⟩
    exact passes.expectedKey a member

end Grouped

/-! ## Derived comparisons -/

namespace Comparison

/-- The comparisons that are made from that of a schema by choosing another key, another schema's
equality, another of the matchers that are provided, another way to show or to keep records, or by
adding tolerances. -/
inductive Derived (s : Schema) : Comparison → Prop where
  | ofSchema : Derived s (ofSchema s)
  | withKey {c : Comparison} (derived : Derived s c) (key : Key) : Derived s (c.withKey key)
  | withEquality {c : Comparison} (derived : Derived s c) (other : Schema) :
      Derived s (c.withEquality (Record.agree other.length))
  | withMatcher {c : Comparison} (derived : Derived s c) {matcher : Matcher}
      (provided : matcher.IsProvided) : Derived s (c.withMatcher matcher)
  | withDoubleDelta {c : Comparison} (derived : Derived s c) (delta : Binary64) :
      Derived s (c.withDoubleDelta delta)
  | withIntegerDelta {c : Comparison} (derived : Derived s c) (delta : UInt64) :
      Derived s (c.withIntegerDelta delta)
  | withRender {c : Comparison} (derived : Derived s c) (render : Record → String) :
      Derived s (c.withRender render)
  | withSerializer {c : Comparison} (derived : Derived s c) (serializer : Serializer) :
      Derived s (c.withSerializer serializer)

theorem Derived.isProvided {s : Schema} {c : Comparison} (derived : Derived s c) :
    c.matcher.IsProvided := by
  induction derived with
  | ofSchema => exact .exact s
  | withKey _ _ ih => exact ih
  | @withEquality c _ other ih =>
      simp only [Comparison.withEquality]
      split
      · exact ih
      · exact .exact other
  | withMatcher _ provided _ => exact provided
  | withDoubleDelta _ _ _ => exact .tolerant _
  | withIntegerDelta _ _ _ => exact .tolerant _
  | withRender _ _ ih => exact ih
  | withSerializer _ _ ih => exact ih

/-- Under derived comparisons sorted records match themselves in any order, and sorted sides that
match still match when they are exchanged, with the same groups. -/
theorem Derived.checkGrouped_mirrored {s : Schema} {c : Comparison} (derived : Derived s c)
    (expected actual : List Record) :
    (∀ reordered : List Record, reordered.Perm expected →
      ∃ report, c.checkGrouped (.ofRecords (Sorting.stable c.compare expected))
        (.ofRecords (Sorting.stable c.compare reordered)) = .ok report) ∧
    (c.checkGrouped (.ofRecords (Sorting.stable c.compare actual))
        (.ofRecords (Sorting.stable c.compare expected))).toOption =
      (c.checkGrouped (.ofRecords (Sorting.stable c.compare expected))
        (.ofRecords (Sorting.stable c.compare actual))).toOption.map Report.mirrored := by
  constructor
  · intro reordered perm
    have sortedPerm := Key.stable_perm_stable c.compare perm
    rcases Grouped.checkGrouped_verdict c (c.isSorted_stable expected)
        (c.isSorted_stable reordered) with ⟨-, counted⟩ | ⟨fails, -⟩
    · exact ⟨_, counted⟩
    · exact absurd (Grouped.passes_of_perm derived.isProvided sortedPerm) fails
  · have verdict := Grouped.checkGrouped_verdict c (c.isSorted_stable expected)
      (c.isSorted_stable actual)
    have verdict' := Grouped.checkGrouped_verdict c (c.isSorted_stable actual)
      (c.isSorted_stable expected)
    rcases verdict with ⟨passes, counted⟩ | ⟨fails, failure, found, -⟩
    · rcases verdict' with ⟨-, counted'⟩ | ⟨fails', -⟩
      · rw [counted, counted', passes.keys_eq]
        rfl
      · exact absurd (passes.symm derived.isProvided) fails'
    · rcases verdict' with ⟨passes', -⟩ | ⟨-, failure', found', -⟩
      · exact absurd (passes'.symm derived.isProvided) fails
      · rw [found, found']
        rfl

/-- Readings within tolerances that are grouped by one of the tolerated values, which is NaN in one
group and absent in another. -/
theorem checkGrouped_mirrored_readings :
    let s := Schema.ofTypes "readings" [.int, .double]
    let c := (((ofSchema s).withDoubleDelta .one).withIntegerDelta 1).withKey (.ofIndices [1])
    let wanted : List Record := [⟨[.int 1, .double .nan]⟩, ⟨[.int 5]⟩, ⟨[.int 3, .double .zero]⟩,
      ⟨[.int 4, .double .zero]⟩]
    let given : List Record :=
      [⟨[.int 4, .double .zero]⟩, ⟨[.int 6, .null]⟩, ⟨[.int 2, .double .nan]⟩]
    Derived s c ∧
      (∃ report, c.checkGrouped (.ofRecords (Sorting.stable c.compare wanted))
        (.ofRecords (Sorting.stable c.compare wanted.reverse)) = .ok report) ∧
      (c.checkGrouped (.ofRecords (Sorting.stable c.compare given))
        (.ofRecords (Sorting.stable c.compare wanted))).toOption = some ⟨3, 3, 4, ⟨0⟩⟩ := by
  intro s c wanted given
  have derived : Derived s c :=
    ((Derived.ofSchema.withDoubleDelta .one).withIntegerDelta 1).withKey (.ofIndices [1])
  obtain ⟨reordered, mirrored⟩ := derived.checkGrouped_mirrored wanted given
  refine ⟨derived, reordered _ wanted.reverse_perm, mirrored.trans ?_⟩
  have wantedSorted : Sorting.stable c.compare wanted = [⟨[.int 5]⟩, ⟨[.int 3, .double .zero]⟩,
      ⟨[.int 4, .double .zero]⟩, ⟨[.int 1, .double .nan]⟩] := by
    rw [Sorting.stable_eq_insertionSort]
    decide
  have givenSorted : Sorting.stable c.compare given =
      [⟨[.int 6, .null]⟩, ⟨[.int 4, .double .zero]⟩, ⟨[.int 2, .double .nan]⟩] := by
    rw [Sorting.stable_eq_insertionSort]
    decide
  rw [wantedSorted, givenSorted]
  decide +kernel

end Comparison

end Reconcile
