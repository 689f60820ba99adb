import Reconcile.Proofs.DoubleArithmetic
import Reconcile.Proofs.ExactMatching
import Reconcile.Proofs.MutualCoverage

/-!
# Distances

Under whatever tolerances, records with the same row lie at distance zero, and two records lie as
far from each other one way as the other way.  So lists with the same rows cover each other, and
coverage is mutual.
-/

namespace Reconcile

namespace Tolerance

open Binary64

/-! ## Two values -/

theorem exactDistance?_self (value : Value) : exactDistance? value value = some .zero :=
  if_pos rfl

theorem exactDistance?_comm (expected actual : Value) :
    exactDistance? expected actual = exactDistance? actual expected := by
  unfold exactDistance?
  simp only [eq_comm]

theorem doubleDistance?_self (delta x : Binary64) : doubleDistance? delta x x = some .zero := by
  unfold doubleDistance?
  cases number : x.isNaN with
  | true => rfl
  | false =>
      rw [sameNumber_self number]
      rfl

theorem doubleDistance?_comm (delta expected actual : Binary64) :
    doubleDistance? delta expected actual = doubleDistance? delta actual expected := by
  unfold doubleDistance?
  rw [Bool.or_comm, Bool.and_comm, sameNumber_comm, abs_sub_comm]

/-- A value is at no distance from itself. -/
theorem distance?_self (t : Tolerance) (value : Value) : t.distance? value value = some .zero := by
  cases t with
  | double delta =>
      cases value with
      | double x => exact doubleDistance?_self delta x
      | _ => exact exactDistance?_self _
  | integer delta =>
      unfold distance?
      cases value.integer? with
      | none => exact exactDistance?_self value
      | some n =>
          have nothing : (n - n).natAbs = 0 := by rw [Int.sub_self, Int.natAbs_zero]
          simp only [nothing, Nat.zero_le, if_true, ofNat_zero]

theorem distance?_comm (t : Tolerance) (expected actual : Value) :
    t.distance? expected actual = t.distance? actual expected := by
  cases t with
  | double delta =>
      cases expected with
      | double e =>
          cases actual with
          | double a => exact doubleDistance?_comm delta e a
          | _ => exact exactDistance?_comm _ _
      | _ => cases actual <;> exact exactDistance?_comm _ _
  | integer delta =>
      unfold distance?
      cases expected.integer? with
      | none => cases actual.integer? <;> exact exactDistance?_comm expected actual
      | some e =>
          cases actual.integer? with
          | none => exact exactDistance?_comm expected actual
          | some a =>
              have same : (e - a).natAbs = (a - e).natAbs := by omega
              simp only [same]

end Tolerance

namespace Tolerances

open Binary64

variable (t : Tolerances)

/-! ## Fields -/

theorem sum_replicate_zero (count : Nat) : sum (List.replicate count .zero) = .zero := by
  unfold sum
  induction count with
  | zero => rfl
  | succ count ih =>
      rw [List.replicate_succ, List.foldl_cons, zero_add_zero]
      exact ih

theorem fieldDistance?_self (index : Nat) (type : FieldType) (value : Value) :
    t.fieldDistance? index type value value = some .zero := by
  unfold fieldDistance?
  cases t.forField index type with
  | nil => exact Tolerance.exactDistance?_self value
  | cons first others =>
      have zeros : distances? (first :: others) value value =
          some (List.replicate (first :: others).length .zero) :=
        mapM_eq_replicate fun tolerance _ => tolerance.distance?_self value
      simp only [zeros, Option.map_some, sum_replicate_zero, List.length_replicate]
      exact congrArg some (zero_div_ofNat (Nat.succ_pos others.length))

theorem fieldDistance?_comm (index : Nat) (type : FieldType) (expected actual : Value) :
    t.fieldDistance? index type expected actual = t.fieldDistance? index type actual expected := by
  have swapped (tolerances : List Tolerance) :
      distances? tolerances expected actual = distances? tolerances actual expected := by
    unfold distances?
    simp only [Tolerance.distance?_comm _ expected actual]
  unfold fieldDistance?
  cases t.forField index type with
  | nil => exact Tolerance.exactDistance?_comm expected actual
  | cons first others => simp only [swapped]

/-! ## Records -/

variable {s : Schema} {expected actual : Record}

/-- Records with the same row are at no distance from each other. -/
theorem distance?_of_row_eq (same : expected.row s.length = actual.row s.length) :
    t.distance? s expected actual = some .zero := by
  have values (index : Nat) (inside : index < s.length) :
      expected.valueAt index = actual.valueAt index :=
    List.map_inj_left.mp same index (List.mem_range.mpr inside)
  unfold distance?
  rw [mapM_eq_replicate fun entry member => ?_, Option.map_some, sum_replicate_zero]
  obtain ⟨field, index⟩ := entry
  have inside := (List.mem_zipIdx member).2.1
  rw [Nat.zero_add] at inside
  simp only [values index inside]
  exact t.fieldDistance?_self index field.type (actual.valueAt index)

theorem distance?_comm (s : Schema) (expected actual : Record) :
    t.distance? s expected actual = t.distance? s actual expected := by
  unfold distance?
  simp only [t.fieldDistance?_comm _ _ (expected.valueAt _)]

theorem isNear_of_row_eq (same : expected.row s.length = actual.row s.length) :
    t.isNear s expected actual = true := by
  rw [isNear, t.distance?_of_row_eq same]
  decide

theorem isNear_comm (s : Schema) (expected actual : Record) :
    t.isNear s expected actual = t.isNear s actual expected := by
  rw [isNear, isNear, t.distance?_comm]

end Tolerances

/-! ## Coverage -/

/-- The same rows cover each other within whatever tolerances. -/
theorem covers_of_rows_perm (t : Tolerances) {s : Schema} {expected actual : List Record}
    (rows : (expected.map fun r => r.row s.length).Perm (actual.map fun r => r.row s.length)) :
    Covers (t.isNear s) expected actual where
  expectedCovered e member := by
    obtain ⟨a, inActual, same⟩ := List.mem_map.mp (rows.mem_iff.mp (List.mem_map_of_mem member))
    exact ⟨a, inActual, t.isNear_of_row_eq same.symm⟩
  actualCovered a member := by
    obtain ⟨e, inExpected, same⟩ := List.mem_map.mp (rows.mem_iff.mpr (List.mem_map_of_mem member))
    exact ⟨e, inExpected, t.isNear_of_row_eq same⟩

theorem covers_comm (t : Tolerances) (s : Schema) {expected actual : List Record} :
    Covers (t.isNear s) expected actual ↔ Covers (t.isNear s) actual expected := by
  simp only [covers_iff, t.isNear_comm s]
  exact and_comm

end Reconcile
