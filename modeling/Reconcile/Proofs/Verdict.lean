import Mathlib.Data.Finset.Card
import Reconcile.Proofs.Diagnosis
import Reconcile.Source.Checking

/-!
# Verdicts

Two sorted lists pass exactly if every actual record has the key of an expected one and every
expected group has actual records and leaves nothing over.  Records in memory are sorted before they
are compared, so that the same holds of them in any order.
-/

namespace Reconcile

namespace Grouped

open Key

/-! ## Whether there is a failure -/

/-- Groups on both sides that a comparison passes. -/
structure Passes (c : Comparison) (expected actual : List Record) : Prop where
  expectedKey : ∀ a ∈ actual, ∃ e ∈ expected, c.key.extract e = c.key.extract a
  found : ∀ e ∈ expected, c.key.group (c.key.extract e) actual ≠ []
  matched : ∀ e ∈ expected, (leftOver c expected actual (c.key.extract e)).isEmpty = true

theorem surplusFailure?_eq_none_iff {c : Comparison} {actual : List Record}
    {previous : Option (List Value)} :
    surplusFailure? c actual previous = none ↔ ∀ a ∈ actual, ¬ c.key.IsBehind previous a := by
  unfold surplusFailure?
  cases left : actual.filter (c.key.IsBehind previous) with
  | nil => simpa using left
  | cons a rest =>
      have member : a ∈ actual.filter (c.key.IsBehind previous) := by
        rw [left]
        exact List.mem_cons_self
      obtain ⟨inActual, isBehind⟩ := List.mem_filter.mp member
      constructor
      · intro failed
        cases failed
      · intro none
        exact absurd (of_decide_eq_true isBehind) (none a inActual)

/-- From a passed group on there is no failure exactly if all actual records behind it have keys to
come and the groups of these keys pass. -/
theorem firstFailure?_eq_none_iff {c : Comparison} {expected actual : List Record}
    {previous : Option (List Value)} {keys : List (List Value)}
    (increasing : keys.Pairwise Precedes)
    (behind : ∀ values ∈ keys, ∀ p ∈ previous, Precedes p values) :
    firstFailure? c expected actual previous keys = none ↔
      (∀ a ∈ actual, c.key.IsBehind previous a → c.key.extract a ∈ keys) ∧
        ∀ values ∈ keys, c.key.group values actual ≠ [] ∧
          (leftOver c expected actual values).isEmpty = true := by
  induction keys generalizing previous with
  | nil =>
      rw [firstFailure?, surplusFailure?_eq_none_iff]
      simp
  | cons values later ih =>
      obtain ⟨front, increasingLater⟩ := List.pairwise_cons.mp increasing
      have behindValues : ∀ other ∈ later, ∀ p ∈ some values, Precedes p other := by
        simpa using front
      rw [firstFailure?, Option.or_eq_none_iff, groupFailure?_eq_none_iff,
        ih increasingLater behindValues]
      constructor
      · rintro ⟨⟨noStray, passes⟩, inLater, laterPass⟩
        refine ⟨fun a member isBehind => ?_, List.forall_mem_cons.mpr ⟨passes, laterPass⟩⟩
        rcases precedes_trichotomy (c.key.extract a) values with before | same | after
        · exact absurd ⟨a, member, isBehind, before⟩ noStray
        · rw [same]
          exact List.mem_cons_self
        · exact List.mem_cons_of_mem _ (inLater a member (isBehind_some.mpr after))
      · rintro ⟨inKeys, pass⟩
        obtain ⟨passes, laterPass⟩ := List.forall_mem_cons.mp pass
        refine ⟨⟨?_, passes⟩, fun a member isBehind => ?_, laterPass⟩
        · rintro ⟨a, member, isBehind, before⟩
          rcases List.mem_cons.mp (inKeys a member isBehind) with same | inLater
          · exact before.ne same
          · exact before.asymm (front _ inLater)
        · have after := isBehind_some.mp isBehind
          have isBehindPrevious : c.key.IsBehind previous a := fun p given =>
            (behind values List.mem_cons_self p given).trans after
          rcases List.mem_cons.mp (inKeys a member isBehindPrevious) with same | inLater
          · exact absurd same.symm after.ne
          · exact inLater

theorem isMismatch_of_groupFailure? {c : Comparison} {expected actual : List Record}
    {previous : Option (List Value)} {values : List Value} {failure : Failure}
    (fails : groupFailure? c expected actual previous values = some failure) :
    failure.isMismatch = true := by
  unfold groupFailure? at fails
  split at fails
  · cases fails
    rfl
  · exact isMismatch_of_residueFailure fails

theorem isMismatch_of_firstFailure? {c : Comparison} {expected actual : List Record}
    {previous : Option (List Value)} {keys : List (List Value)} {failure : Failure}
    (fails : firstFailure? c expected actual previous keys = some failure) :
    failure.isMismatch = true := by
  induction keys generalizing previous with
  | nil =>
      rw [firstFailure?, surplusFailure?] at fails
      split at fails <;> cases fails
      rfl
  | cons values later ih =>
      rw [firstFailure?, Option.or_eq_some_iff] at fails
      rcases fails with here | ⟨-, inLater⟩
      · exact isMismatch_of_groupFailure? here
      · exact ih inLater

/-- Grouped comparison of sorted lists either passes them and counts the records and the keys, or
finds records that differ. -/
theorem checkGrouped_verdict (c : Comparison) {expected actual : List Record}
    (expectedSorted : c.key.IsSorted expected) (actualSorted : c.key.IsSorted actual) :
    (Passes c expected actual ∧
        c.checkGrouped (.ofRecords expected) (.ofRecords actual) =
          .ok ⟨(expected.map c.key.extract).toFinset.card, expected.length, actual.length, ⟨0⟩⟩) ∨
      (¬ Passes c expected actual ∧
        ∃ failure, c.checkGrouped (.ofRecords expected) (.ofRecords actual) = .error failure ∧
          failure.isMismatch = true) := by
  obtain ⟨keys, increasing, complete⟩ := exists_keys expectedSorted
  have passes_iff : firstFailure? c expected actual none keys = none ↔
      Passes c expected actual := by
    rw [firstFailure?_eq_none_iff increasing (by simp)]
    constructor
    · rintro ⟨inKeys, pass⟩
      have inKeysOf (e : Record) (member : e ∈ expected) : c.key.extract e ∈ keys :=
        (complete _).mpr ⟨e, member, rfl⟩
      exact ⟨fun a member => (complete _).mp (inKeys a member (isBehind_none a)),
        fun e member => (pass _ (inKeysOf e member)).1,
        fun e member => (pass _ (inKeysOf e member)).2⟩
    · rintro ⟨expectedKey, found, matched⟩
      refine ⟨fun a member _ => (complete _).mpr (expectedKey a member), fun values member => ?_⟩
      obtain ⟨e, inExpected, rfl⟩ := (complete values).mp member
      exact ⟨found e inExpected, matched e inExpected⟩
  have counted : keys.length = (expected.map c.key.extract).toFinset.card := by
    have distinct : keys.Nodup := increasing.imp fun before => before.ne
    rw [← List.toFinset_card_of_nodup distinct]
    congr 1
    ext values
    simp [complete]
  rw [← passes_iff, checkGrouped_eq c expectedSorted actualSorted increasing complete, counted]
  cases fails : firstFailure? c expected actual none keys with
  | none => exact Or.inl ⟨rfl, rfl⟩
  | some failure =>
      exact Or.inr ⟨Option.some_ne_none failure, failure, rfl, isMismatch_of_firstFailure? fails⟩

end Grouped

end Reconcile
