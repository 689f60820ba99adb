import Reconcile.Proofs.GroupedLists

/-!
# Diagnosis of sorted records

What is wrong first with two sorted lists can be told from their groups as a whole.  The expected
groups are gone through in the order of their keys, and the first of them fails that an actual
record lies in front of, that has no actual records, or of which the matcher leaves something over.
-/

namespace Reconcile

namespace Grouped

open Key

/-! ## What is wrong with a group -/

/-- An actual record lies in front of a group and behind the one before it. -/
def HasStray (k : Key) (actual : List Record) (previous : Option (List Value))
    (values : List Value) : Prop :=
  ∃ a ∈ actual, k.IsBehind previous a ∧ Precedes (k.extract a) values

instance (k : Key) (actual : List Record) (previous : Option (List Value)) (values : List Value) :
    Decidable (HasStray k actual previous values) :=
  inferInstanceAs (Decidable (∃ _ ∈ _, _))

/-- How many records lie in front of a group. -/
def position (k : Key) (values : List Value) (records : List Record) : Nat :=
  records.countP fun r => Precedes (k.extract r) values

/-- What the matcher leaves over of a group. -/
def leftOver (c : Comparison) (expected actual : List Record) (values : List Value) : Residue :=
  c.residue (c.key.group values expected) (c.key.group values actual)

/-- The failure of a group that no actual record is found for; it shows the actual record that was
found instead. -/
def missedFailure (c : Comparison) (expected actual : List Record)
    (previous : Option (List Value)) (values : List Value) : Failure :=
  .noValueForKey (Key.display values) (position c.key values expected)
    (Preview.message c.render (c.key.group values expected))
    (((actual.find? (c.key.IsBehind previous)).map c.render).getD "none")

/-- The failure of a group, given the group before it. -/
def groupFailure? (c : Comparison) (expected actual : List Record)
    (previous : Option (List Value)) (values : List Value) : Option Failure :=
  if HasStray c.key actual previous values ∨ c.key.group values actual = [] then
    some (missedFailure c expected actual previous values)
  else
    residueFailure c (Key.display values) (position c.key values expected)
      (leftOver c expected actual values)

/-- The failure that actual records behind the last group make. -/
def surplusFailure? (c : Comparison) (actual : List Record) (previous : Option (List Value)) :
    Option Failure :=
  match actual.filter (c.key.IsBehind previous) with
  | [] => none
  | r :: rest => some (.lessElementsExpected none (Preview.message c.render (r :: rest)))

/-- The first failure among the groups of given keys and what lies behind them. -/
def firstFailure? (c : Comparison) (expected actual : List Record) :
    Option (List Value) → List (List Value) → Option Failure
  | previous, [] => surplusFailure? c actual previous
  | previous, values :: later =>
      (groupFailure? c expected actual previous values).or
        (firstFailure? c expected actual (some values) later)

/-! ## Passing one group after another -/

/-- A comparison of sorted lists has passed one group, and those of the keys are still to come. -/
structure Passed (k : Key) (expected actual : List Record) (previous : Option (List Value))
    (keys : List (List Value)) : Prop where
  expectedSorted : k.IsSorted expected
  actualSorted : k.IsSorted actual
  increasing : keys.Pairwise Precedes
  complete : ∀ values, values ∈ keys ↔
    ∃ e ∈ expected, k.IsBehind previous e ∧ k.extract e = values

namespace Passed

variable {k : Key} {expected actual : List Record} {previous : Option (List Value)}
  {values : List Value} {later : List (List Value)}

/-- The next group lies behind the one that was passed. -/
theorem behind (passed : Passed k expected actual previous (values :: later)) {p : List Value}
    (given : p ∈ previous) : Precedes p values := by
  obtain ⟨e, _, behindPrevious, rfl⟩ := (passed.complete values).mp List.mem_cons_self
  exact behindPrevious p given

theorem isBehind_of_not_precedes (passed : Passed k expected actual previous (values :: later))
    {r : Record} (notBefore : ¬ Precedes (k.extract r) values) : k.IsBehind previous r := by
  intro p given
  rcases precedes_trichotomy (k.extract r) values with before | same | behind
  · exact absurd before notBefore
  · exact same ▸ passed.behind given
  · exact (passed.behind given).trans behind

/-- No expected record lies in front of the next group. -/
theorem not_precedes (passed : Passed k expected actual previous (values :: later)) {e : Record}
    (member : e ∈ expected) (behindPrevious : k.IsBehind previous e) :
    ¬ Precedes (k.extract e) values := by
  have found : k.extract e ∈ values :: later :=
    (passed.complete _).mpr ⟨e, member, behindPrevious, rfl⟩
  rcases List.mem_cons.mp found with same | inLater
  · rw [same]
    exact precedes_irrefl values
  · exact ((List.pairwise_cons.mp passed.increasing).1 _ inLater).asymm

/-- The groups behind the next one are still to come once that was passed. -/
theorem next (passed : Passed k expected actual previous (values :: later)) :
    Passed k expected actual (some values) later where
  expectedSorted := passed.expectedSorted
  actualSorted := passed.actualSorted
  increasing := (List.pairwise_cons.mp passed.increasing).2
  complete other := by
    constructor
    · intro inLater
      obtain ⟨e, member, _, rfl⟩ := (passed.complete other).mp (List.mem_cons_of_mem _ inLater)
      exact ⟨e, member,
        isBehind_some.mpr ((List.pairwise_cons.mp passed.increasing).1 _ inLater), rfl⟩
    · rintro ⟨e, member, behindValues, rfl⟩
      have after := isBehind_some.mp behindValues
      have found : k.extract e ∈ values :: later :=
        (passed.complete _).mpr
          ⟨e, member, passed.isBehind_of_not_precedes after.asymm, rfl⟩
      rcases List.mem_cons.mp found with same | inLater
      · exact absurd same.symm after.ne
      · exact inLater

/-- The next group and what lies behind it, taken from the front of what is left. -/
theorem split (passed : Passed k expected actual previous (values :: later))
    {records : List Record} (sorted : k.IsSorted records)
    (front : ∀ r ∈ records, k.IsBehind previous r → ¬ Precedes (k.extract r) values) :
    ((records.filter (k.IsBehind previous)).takeWhile fun r => k.extract r = values) =
        k.group values records ∧
      ((records.filter (k.IsBehind previous)).dropWhile fun r => k.extract r = values) =
        records.filter (k.IsBehind (some values)) := by
  have sortedLeft : k.IsSorted (records.filter (k.IsBehind previous)) := sorted.filter _
  have frontLeft (r : Record) (member : r ∈ records.filter (k.IsBehind previous)) :
      ¬ Precedes (k.extract r) values := by
    obtain ⟨inRecords, isBehind⟩ := List.mem_filter.mp member
    exact front r inRecords (of_decide_eq_true isBehind)
  obtain ⟨taken, left⟩ := sortedLeft.splitGroup frontLeft
  rw [taken, left, group, group, List.filter_filter, List.filter_filter]
  constructor
  · refine List.filter_congr fun r _ => ?_
    rw [Bool.eq_iff_iff]
    simp only [Bool.and_eq_true, decide_eq_true_eq]
    refine ⟨fun both => both.1, fun same => ⟨same, passed.isBehind_of_not_precedes ?_⟩⟩
    rw [same]
    exact precedes_irrefl values
  · refine List.filter_congr fun r _ => ?_
    rw [Bool.eq_iff_iff]
    simp only [Bool.and_eq_true, decide_eq_true_eq]
    refine ⟨fun both => both.1, fun after => ⟨after, passed.isBehind_of_not_precedes ?_⟩⟩
    exact (isBehind_some.mp after).asymm

/-- The first expected record that is left begins the next group. -/
theorem exists_first (passed : Passed k expected actual previous (values :: later)) :
    ∃ first rest, expected.filter (k.IsBehind previous) = first :: rest ∧
      k.extract first = values := by
  obtain ⟨e, member, behindPrevious, same⟩ := (passed.complete values).mp List.mem_cons_self
  have left : e ∈ expected.filter (k.IsBehind previous) :=
    List.mem_filter.mpr ⟨member, decide_eq_true behindPrevious⟩
  have sortedLeft : k.IsSorted (expected.filter (k.IsBehind previous)) :=
    passed.expectedSorted.filter _
  cases front : expected.filter (k.IsBehind previous) with
  | nil =>
      rw [front] at left
      cases left
  | cons first rest =>
      refine ⟨first, rest, rfl, ?_⟩
      rw [front] at left sortedLeft
      have inFront : first ∈ expected.filter (k.IsBehind previous) := by
        rw [front]
        exact List.mem_cons_self
      obtain ⟨inExpected, isBehind⟩ := List.mem_filter.mp inFront
      rcases precedes_trichotomy (k.extract first) values with before | equal | after
      · exact absurd before (passed.not_precedes inExpected (of_decide_eq_true isBehind))
      · exact equal
      · exact absurd (same ▸ after) (sortedLeft.not_precedes left)

/-- Nothing is taken from the actual side for a group that a stray record lies in front of, or that
has no actual records. -/
theorem takeWhile_eq_nil_iff (passed : Passed k expected actual previous (values :: later)) :
    ((actual.filter (k.IsBehind previous)).takeWhile fun r => k.extract r = values) = [] ↔
      HasStray k actual previous values ∨ k.group values actual = [] := by
  by_cases stray : HasStray k actual previous values
  · refine ⟨fun _ => Or.inl stray, fun _ => ?_⟩
    obtain ⟨a, member, behindPrevious, before⟩ := stray
    have left : a ∈ actual.filter (k.IsBehind previous) :=
      List.mem_filter.mpr ⟨member, decide_eq_true behindPrevious⟩
    have sortedLeft : k.IsSorted (actual.filter (k.IsBehind previous)) :=
      passed.actualSorted.filter _
    cases front : actual.filter (k.IsBehind previous) with
    | nil => rfl
    | cons first rest =>
        rw [front] at left sortedLeft
        have other : ¬ k.extract first = values := by
          rintro rfl
          exact sortedLeft.not_precedes left before
        simp [other]
  · have front (a : Record) (member : a ∈ actual) (behindPrevious : k.IsBehind previous a) :
        ¬ Precedes (k.extract a) values :=
      fun before => stray ⟨a, member, behindPrevious, before⟩
    rw [(passed.split passed.actualSorted front).1]
    exact (or_iff_right stray).symm

/-- As many expected records lie in front of the next group as have been taken. -/
theorem position_add_length (passed : Passed k expected actual previous (values :: later)) :
    position k values expected + (expected.filter (k.IsBehind previous)).length =
      expected.length := by
  have same : expected.filter (k.IsBehind previous) =
      expected.filter fun r => ¬ Precedes (k.extract r) values := by
    refine List.filter_congr fun r member => ?_
    rw [decide_eq_decide]
    exact ⟨passed.not_precedes member, passed.isBehind_of_not_precedes⟩
  rw [same, position, ← List.countP_eq_length_filter]
  simpa using (List.length_eq_countP_add_countP fun r => Precedes (k.extract r) values).symm

end Passed

/-- One group is compared as its diagnosis says. -/
theorem checkGroup_eq (c : Comparison) {expected actual : List Record}
    {previous : Option (List Value)} {values : List Value} {later : List (List Value)}
    (passed : Passed c.key expected actual previous (values :: later)) :
    checkGroup c values (position c.key values expected) (c.key.group values expected)
        ((actual.filter (c.key.IsBehind previous)).takeWhile fun r => c.key.extract r = values)
        ((actual.filter (c.key.IsBehind previous)).dropWhile fun r =>
          c.key.extract r = values).head? =
      match groupFailure? c expected actual previous values with
      | some failure => .error failure
      | none => .ok () := by
  unfold checkGroup groupFailure?
  by_cases missed : HasStray c.key actual previous values ∨ c.key.group values actual = []
  · have nothing := passed.takeWhile_eq_nil_iff.mpr missed
    have whole := List.takeWhile_append_dropWhile (l := actual.filter (c.key.IsBehind previous))
      (p := fun r => decide (c.key.extract r = values))
    rw [nothing, List.nil_append] at whole
    rw [nothing, whole, if_pos missed, List.head?_filter]
    rfl
  · have front (a : Record) (member : a ∈ actual) (behindPrevious : c.key.IsBehind previous a) :
        ¬ Precedes (c.key.extract a) values :=
      fun before => missed (Or.inl ⟨a, member, behindPrevious, before⟩)
    have found : (c.key.group values actual).isEmpty = false :=
      List.isEmpty_eq_false_iff.mpr fun empty => missed (Or.inr empty)
    rw [(passed.split passed.actualSorted front).1, if_neg missed, found]
    rfl

theorem not_missed {c : Comparison} {expected actual : List Record}
    {previous : Option (List Value)} {values : List Value}
    (passes : groupFailure? c expected actual previous values = none) :
    ¬ (HasStray c.key actual previous values ∨ c.key.group values actual = []) := by
  intro missed
  rw [groupFailure?, if_pos missed] at passes
  cases passes

theorem length_takeWhile_add (p : Record → Bool) (records : List Record) :
    (records.takeWhile p).length + (records.dropWhile p).length = records.length := by
  rw [← List.length_append, List.takeWhile_append_dropWhile]

/-- From a passed group on, the comparison ends in the first failure among the groups to come. -/
theorem checkLists_eq (c : Comparison) {expected actual : List Record}
    {previous : Option (List Value)} {keys : List (List Value)}
    (passed : Passed c.key expected actual previous keys) (groups taken given : Nat)
    (takenLength : taken + (expected.filter (c.key.IsBehind previous)).length = expected.length)
    (givenLength : given + (actual.filter (c.key.IsBehind previous)).length = actual.length) :
    checkLists c groups taken given (expected.filter (c.key.IsBehind previous))
        (actual.filter (c.key.IsBehind previous)) =
      match firstFailure? c expected actual previous keys with
      | some failure => .error failure
      | none => .ok ⟨groups + keys.length, expected.length, actual.length, ⟨0⟩⟩ := by
  induction keys generalizing previous groups taken given with
  | nil =>
      have ended : expected.filter (c.key.IsBehind previous) = [] := by
        refine List.filter_eq_nil_iff.mpr fun e member behindPrevious => ?_
        have found := (passed.complete _).mpr ⟨e, member, of_decide_eq_true behindPrevious, rfl⟩
        cases found
      rw [ended] at takenLength ⊢
      unfold checkLists firstFailure? surplusFailure?
      cases left : actual.filter (c.key.IsBehind previous) with
      | nil =>
          rw [left] at givenLength
          rw [← takenLength, ← givenLength]
          rfl
      | cons a rest => rfl
  | cons values later ih =>
      obtain ⟨first, rest, front, rfl⟩ := passed.exists_first
      obtain ⟨group, left⟩ := passed.split passed.expectedSorted fun e => passed.not_precedes
      have position := passed.position_add_length
      have counted : taken = Grouped.position c.key (c.key.extract first) expected := by omega
      have checked := checkGroup_eq c passed
      rw [front] at group left takenLength ⊢
      simp only [List.takeWhile_cons, List.dropWhile_cons, decide_true, if_true] at group left
      unfold checkLists
      simp only [group, left, counted, checked, firstFailure?]
      cases failed : groupFailure? c expected actual previous (c.key.extract first) with
      | some failure => rfl
      | none =>
          obtain ⟨actualGroup, actualLeft⟩ := passed.split passed.actualSorted
            fun a member behindPrevious before =>
              not_missed failed (Or.inl ⟨a, member, behindPrevious, before⟩)
          have expectedCount := length_takeWhile_add
            (fun r => c.key.extract r = c.key.extract first) rest
          have actualCount := length_takeWhile_add
            (fun r => c.key.extract r = c.key.extract first)
            (actual.filter (c.key.IsBehind previous))
          rw [left] at expectedCount
          rw [actualLeft] at actualCount
          simp only [actualLeft, Option.none_or]
          rw [ih passed.next (groups + 1) _ _ (by simp at takenLength; omega) (by omega),
            List.length_cons, Nat.add_assoc groups 1, Nat.add_comm 1]

/-- The first failure of sorted lists decides how grouped comparison ends. -/
theorem checkGrouped_eq (c : Comparison) {expected actual : List Record}
    (expectedSorted : c.key.IsSorted expected) (actualSorted : c.key.IsSorted actual)
    {keys : List (List Value)} (increasing : keys.Pairwise Precedes)
    (complete : ∀ values, values ∈ keys ↔ ∃ e ∈ expected, c.key.extract e = values) :
    c.checkGrouped (.ofRecords expected) (.ofRecords actual) =
      match firstFailure? c expected actual none keys with
      | some failure => .error failure
      | none => .ok ⟨keys.length, expected.length, actual.length, ⟨0⟩⟩ := by
  have all (records : List Record) : records.filter (c.key.IsBehind none) = records :=
    List.filter_eq_self.mpr fun r _ => decide_eq_true (isBehind_none r)
  have passed : Passed c.key expected actual none keys :=
    ⟨expectedSorted, actualSorted, increasing, by simpa using complete⟩
  have run := checkLists_eq c passed 0 0 0 (by rw [all, Nat.zero_add]) (by rw [all, Nat.zero_add])
  rw [all, all, Nat.zero_add] at run
  exact (checkGrouped_ofRecords c expected actual).trans run

/-- Sorted records have a list of the keys among them. -/
theorem exists_keys {k : Key} {records : List Record} (sorted : k.IsSorted records) :
    ∃ keys : List (List Value), keys.Pairwise Precedes ∧
      ∀ values, values ∈ keys ↔ ∃ r ∈ records, k.extract r = values := by
  induction records with
  | nil => exact ⟨[], List.Pairwise.nil, by simp⟩
  | cons first rest ih =>
      obtain ⟨keys, increasing, complete⟩ := ih (List.pairwise_cons.mp sorted).2
      by_cases known : k.extract first ∈ keys
      · refine ⟨keys, increasing, fun values => ?_⟩
        simp only [List.mem_cons, exists_eq_or_imp, complete]
        refine ⟨Or.inr, fun found => found.elim ?_ id⟩
        rintro rfl
        exact (complete _).mp known
      · refine ⟨k.extract first :: keys, List.pairwise_cons.mpr ⟨fun values member => ?_,
          increasing⟩, fun values => ?_⟩
        · obtain ⟨r, inRest, rfl⟩ := (complete values).mp member
          rcases precedes_trichotomy (k.extract first) (k.extract r) with before | same | behind
          · exact before
          · exact absurd (same ▸ member) known
          · exact absurd behind (sorted.not_precedes (List.mem_cons_of_mem _ inRest))
        · simp only [List.mem_cons, exists_eq_or_imp, complete]
          rw [eq_comm]

/-! ## The first group that fails -/

theorem residueFailure_eq_none_iff {c : Comparison} {key : String} {position : Nat}
    {residue : Residue} :
    residueFailure c key position residue = none ↔ residue.isEmpty = true := by
  obtain ⟨expected, actual⟩ := residue
  cases expected <;> cases actual <;> simp [residueFailure, Residue.isEmpty]

/-- Nothing is wrong with a group exactly if no record lies in front of it, it has actual records,
and all of its records are matched. -/
theorem groupFailure?_eq_none_iff {c : Comparison} {expected actual : List Record}
    {previous : Option (List Value)} {values : List Value} :
    groupFailure? c expected actual previous values = none ↔
      ¬ HasStray c.key actual previous values ∧ c.key.group values actual ≠ [] ∧
        (leftOver c expected actual values).isEmpty := by
  constructor
  · intro passes
    have found := not_missed passes
    rw [groupFailure?, if_neg found, residueFailure_eq_none_iff] at passes
    exact ⟨fun stray => found (Or.inl stray), fun empty => found (Or.inr empty), passes⟩
  · rintro ⟨noStray, found, matched⟩
    rw [groupFailure?, if_neg (not_or.mpr ⟨noStray, found⟩), residueFailure_eq_none_iff]
    exact matched

/-- The group in front of the one of a number. -/
def before? (previous : Option (List Value)) (keys : List (List Value)) :
    Nat → Option (List Value)
  | 0 => previous
  | i + 1 => keys[i]?

theorem before?_cons (previous : Option (List Value)) (values : List Value)
    (later : List (List Value)) (i : Nat) :
    before? previous (values :: later) (i + 1) = before? (some values) later i := by
  cases i <;> rfl

theorem firstFailure?_of_least {c : Comparison} {expected actual : List Record}
    {previous : Option (List Value)} {keys : List (List Value)} {failure : Failure}
    (i : Fin keys.length)
    (fails : groupFailure? c expected actual (before? previous keys i) keys[i] = some failure)
    (passes : ∀ j < i, groupFailure? c expected actual (before? previous keys j) keys[j] = none) :
    firstFailure? c expected actual previous keys = some failure := by
  induction keys generalizing previous with
  | nil => exact i.elim0
  | cons values later ih =>
      unfold firstFailure?
      cases i using Fin.cases with
      | zero =>
          change groupFailure? c expected actual previous values = some failure at fails
          rw [fails, Option.some_or]
      | succ i =>
          have first : groupFailure? c expected actual previous values = none :=
            passes 0 (Fin.succ_pos i)
          rw [first, Option.none_or]
          refine ih i ?_ fun j smaller => ?_
          · rw [← before?_cons previous]
            exact fails
          · rw [← before?_cons previous]
            exact passes j.succ (Fin.succ_lt_succ_iff.mpr smaller)

theorem firstFailure?_of_none {c : Comparison} {expected actual : List Record}
    {previous : Option (List Value)} {keys : List (List Value)}
    (passes : ∀ i : Fin keys.length,
      groupFailure? c expected actual (before? previous keys i) keys[i] = none) :
    firstFailure? c expected actual previous keys =
      surplusFailure? c actual (before? previous keys keys.length) := by
  induction keys generalizing previous with
  | nil => rfl
  | cons values later ih =>
      have first : groupFailure? c expected actual previous values = none :=
        passes ⟨0, Nat.zero_lt_succ _⟩
      unfold firstFailure?
      rw [first, Option.none_or, List.length_cons, before?_cons]
      refine ih fun i => ?_
      rw [← before?_cons previous]
      exact passes i.succ

theorem before?_length (keys : List (List Value)) :
    before? none keys keys.length = keys.getLast? := by
  cases keys with
  | nil => rfl
  | cons values later => exact List.getLast?_eq_getElem?.symm

/-- Two sorted lists differ in the group of a number: a record lies in front of it and behind the
group before it, or it has no actual records, or the matcher leaves something over. -/
def IsDefect (c : Comparison) (expected actual : List Record) (keys : List (List Value))
    (i : Fin keys.length) : Prop :=
  HasStray c.key actual (before? none keys i) keys[i] ∨ c.key.group keys[i] actual = [] ∨
    ¬ (leftOver c expected actual keys[i]).isEmpty

/-- How a failure tells in what two lists differ at a group, by what is left over of it. -/
structure FailsAt (c : Comparison) (expected actual : List Record)
    (previous : Option (List Value)) (values : List Value) (failure : Failure) : Prop where
  missed : HasStray c.key actual previous values ∨ c.key.group values actual = [] →
    failure = .noValueForKey (Key.display values) (position c.key values expected)
      (Preview.message c.render (c.key.group values expected))
      (((actual.find? (c.key.IsBehind previous)).map c.render).getD "none")
  more : ¬ (HasStray c.key actual previous values ∨ c.key.group values actual = []) →
    (leftOver c expected actual values).expected ≠ [] →
    (leftOver c expected actual values).actual = [] →
    failure = .moreElementsExpected (some (Key.display values))
      (Preview.message c.render (leftOver c expected actual values).expected)
  less : ¬ (HasStray c.key actual previous values ∨ c.key.group values actual = []) →
    (leftOver c expected actual values).expected = [] →
    (leftOver c expected actual values).actual ≠ [] →
    failure = .lessElementsExpected (some (Key.display values))
      (Preview.message c.render (leftOver c expected actual values).actual)
  unmatched : ¬ (HasStray c.key actual previous values ∨ c.key.group values actual = []) →
    (leftOver c expected actual values).expected ≠ [] →
    (leftOver c expected actual values).actual ≠ [] →
    failure = .unmatchedValues (Key.display values) (position c.key values expected)
      (Preview.message c.render (leftOver c expected actual values).expected)
      (Preview.message c.render (leftOver c expected actual values).actual)

theorem failsAt_of_groupFailure? {c : Comparison} {expected actual : List Record}
    {previous : Option (List Value)} {values : List Value} {failure : Failure}
    (fails : groupFailure? c expected actual previous values = some failure) :
    FailsAt c expected actual previous values failure := by
  unfold groupFailure? at fails
  split at fails
  · rename_i missed
    exact ⟨fun _ => (Option.some.inj fails).symm, fun found => absurd missed found,
      fun found => absurd missed found, fun found => absurd missed found⟩
  · rename_i found
    unfold residueFailure at fails
    cases wanted : (leftOver c expected actual values).expected with
    | nil =>
        cases given : (leftOver c expected actual values).actual with
        | nil =>
            rw [wanted, given] at fails
            cases fails
        | cons a rest =>
            rw [wanted, given] at fails
            refine ⟨fun missed => absurd missed found, fun _ more _ => absurd wanted more,
              fun _ _ _ => ?_, fun _ more _ => absurd wanted more⟩
            rw [given]
            exact (Option.some.inj fails).symm
    | cons e rest =>
        cases given : (leftOver c expected actual values).actual with
        | nil =>
            rw [wanted, given] at fails
            refine ⟨fun missed => absurd missed found, fun _ _ _ => ?_,
              fun _ _ less => absurd given less, fun _ _ less => absurd given less⟩
            rw [wanted]
            exact (Option.some.inj fails).symm
        | cons a others =>
            rw [wanted, given] at fails
            refine ⟨fun missed => absurd missed found, fun _ _ more => ?_, fun _ less _ => ?_,
              fun _ _ _ => ?_⟩
            · rw [given] at more
              cases more
            · rw [wanted] at less
              cases less
            · rw [wanted, given]
              exact (Option.some.inj fails).symm

/-- Grouped comparison of sorted lists reports the first group in which they differ, then actual
records behind the last group, and succeeds if there is neither. -/
theorem checkGrouped_diagnosis (c : Comparison) {expected actual : List Record}
    (expectedSorted : c.key.IsSorted expected) (actualSorted : c.key.IsSorted actual)
    {keys : List (List Value)} (increasing : keys.Pairwise Precedes)
    (complete : ∀ values, values ∈ keys ↔ ∃ e ∈ expected, c.key.extract e = values) :
    (∀ i : Fin keys.length, IsDefect c expected actual keys i →
      (∀ j < i, ¬ IsDefect c expected actual keys j) →
      ∃ failure, c.checkGrouped (.ofRecords expected) (.ofRecords actual) = .error failure ∧
        FailsAt c expected actual (before? none keys i) keys[i] failure) ∧
    ((∀ i, ¬ IsDefect c expected actual keys i) →
      ((∃ a ∈ actual, c.key.IsBehind keys.getLast? a) →
        c.checkGrouped (.ofRecords expected) (.ofRecords actual) =
          .error (.lessElementsExpected none
            (Preview.message c.render (actual.filter (c.key.IsBehind keys.getLast?))))) ∧
      ((∀ a ∈ actual, ¬ c.key.IsBehind keys.getLast? a) →
        c.checkGrouped (.ofRecords expected) (.ofRecords actual) =
          .ok ⟨keys.length, expected.length, actual.length, ⟨0⟩⟩)) := by
  have passes {i : Fin keys.length} (fine : ¬ IsDefect c expected actual keys i) :
      groupFailure? c expected actual (before? none keys i) keys[i] = none := by
    rw [groupFailure?_eq_none_iff]
    simpa [IsDefect] using fine
  rw [checkGrouped_eq c expectedSorted actualSorted increasing complete]
  constructor
  · intro i defect least
    cases fails : groupFailure? c expected actual (before? none keys i) keys[i] with
    | none =>
        obtain ⟨noStray, found, matched⟩ := groupFailure?_eq_none_iff.mp fails
        rcases defect with stray | empty | left
        · exact absurd stray noStray
        · exact absurd empty found
        · exact absurd matched left
    | some failure =>
        rw [firstFailure?_of_least i fails fun j smaller => passes (least j smaller)]
        exact ⟨failure, rfl, failsAt_of_groupFailure? fails⟩
  · intro fine
    rw [firstFailure?_of_none fun i => passes (fine i), before?_length]
    unfold surplusFailure?
    constructor
    · rintro ⟨a, member, isBehind⟩
      cases left : actual.filter (c.key.IsBehind keys.getLast?) with
      | nil => exact absurd (decide_eq_true isBehind) (List.filter_eq_nil_iff.mp left a member)
      | cons first rest => rfl
    · intro none
      rw [List.filter_eq_nil_iff.mpr fun a member => by simpa using none a member]

/-- Of `1, 2` against `1, 3`, the group of `2` is the first that fails: no record has its key. -/
theorem checkGrouped_diagnosis_missed :
    let c := Comparison.ofSchema (.ofTypes "numbers" [.int])
    let expected : List Record := [⟨[.int 1]⟩, ⟨[.int 2]⟩]
    let actual : List Record := [⟨[.int 1]⟩, ⟨[.int 3]⟩]
    (c.key.IsSorted expected ∧ c.key.IsSorted actual) ∧
      c.checkGrouped (.ofRecords expected) (.ofRecords actual) =
        .error (.noValueForKey "[2]" 1 "(2)" "(3)") := by
  intro c expected actual
  have expectedSorted : c.key.IsSorted expected := by
    unfold IsSorted
    decide
  have actualSorted : c.key.IsSorted actual := by
    unfold IsSorted
    decide
  have increasing : [[Value.int 1], [Value.int 2]].Pairwise Precedes := by decide
  have complete (values : List Value) : values ∈ [[Value.int 1], [Value.int 2]] ↔
      ∃ e ∈ expected, c.key.extract e = values := by
    have first : c.key.extract ⟨[.int 1]⟩ = [.int 1] := by decide
    have second : c.key.extract ⟨[.int 2]⟩ = [.int 2] := by decide
    simp [expected, first, second, eq_comm]
  have missed : HasStray c.key actual (some [.int 1]) [.int 2] ∨
      c.key.group [.int 2] actual = [] := by decide
  have least (j : Fin 2) (smaller : j < 1) :
      ¬ IsDefect c expected actual [[.int 1], [.int 2]] j := by
    obtain rfl : j = 0 := by omega
    unfold IsDefect
    decide
  obtain ⟨failure, ended, fails⟩ := (checkGrouped_diagnosis c expectedSorted actualSorted
    increasing complete).1 1 (or_assoc.mp (Or.inl missed)) least
  refine ⟨⟨expectedSorted, actualSorted⟩, ended.trans (congrArg Except.error ?_)⟩
  rw [fails.missed missed]
  decide +kernel

end Grouped

end Reconcile
