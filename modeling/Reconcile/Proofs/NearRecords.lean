import Reconcile.Proofs.Distances

/-!
# Near records

Distances have no sign, nor have their sums and means.  So two records are near each other exactly
if the values of every field match: under each tolerance for the field or, where there is none, by
being the same.  The tolerances for a field are those that were added for its place or its type.
-/

namespace Reconcile

open Binary64

/-! ## Two values -/

namespace Tolerance

variable {t : Tolerance} {expected actual : Value} {distance : Binary64}

/-- Whether two values match: their reported distance is not negative. -/
def isNear (t : Tolerance) (expected actual : Value) : Bool :=
  zero.le (reported (t.distance? expected actual))

theorem isUnsigned_of_exactDistance? (found : exactDistance? expected actual = some distance) :
    distance.IsUnsigned := by
  unfold exactDistance? at found
  split at found
  · cases found
    exact isUnsigned_zero
  · cases found

theorem isUnsigned_of_doubleDistance? {delta expected actual : Binary64}
    (found : doubleDistance? delta expected actual = some distance) : distance.IsUnsigned := by
  unfold doubleDistance? at found
  split at found
  · split at found <;> cases found
    exact isUnsigned_zero
  · split at found
    · cases found
      exact isUnsigned_zero
    · simp only [Option.ite_none_right_eq_some] at found
      obtain ⟨within, same⟩ := found
      obtain rfl := Option.some.inj same
      -- what lies within a tolerance is a number, so the difference is none of two infinities
      have number : (expected - actual).abs.isNaN = false := by
        simp only [le, Bool.and_eq_true, Bool.not_eq_true'] at within
        exact within.1.1
      exact ⟨number, isNegative_ofMagnitude (magnitude_lt _)⟩

/-- A distance of two values has no sign. -/
theorem isUnsigned_of_distance? (found : t.distance? expected actual = some distance) :
    distance.IsUnsigned := by
  cases t with
  | double delta =>
      cases expected with
      | double e =>
          cases actual with
          | double a => exact isUnsigned_of_doubleDistance? found
          | _ => exact isUnsigned_of_exactDistance? found
      | _ => exact isUnsigned_of_exactDistance? found
  | integer delta =>
      unfold distance? at found
      cases wanted : expected.integer? with
      | none =>
          rw [wanted] at found
          exact isUnsigned_of_exactDistance? found
      | some e =>
          cases given : actual.integer? with
          | none =>
              rw [wanted, given] at found
              exact isUnsigned_of_exactDistance? found
          | some a =>
              simp only [wanted, given, Option.ite_none_right_eq_some] at found
              obtain rfl := Option.some.inj found.2
              exact isUnsigned_ofRatio _ 1

/-- Distances without a sign are reported as they are, and their absence as less than zero. -/
theorem zero_le_reported_iff {found : Option Binary64}
    (unsigned : ∀ distance, found = some distance → distance.IsUnsigned) :
    zero.le (reported found) = true ↔ found.isSome = true := by
  cases found with
  | none => decide
  | some distance => exact iff_of_true (unsigned distance rfl).zero_le rfl

theorem isNear_iff_isSome :
    t.isNear expected actual = true ↔ (t.distance? expected actual).isSome = true :=
  zero_le_reported_iff fun _ => isUnsigned_of_distance?

/-- Two values match under all of some tolerances, and without any by being the same. -/
structure MatchAll (tolerances : List Tolerance) (expected actual : Value) : Prop where
  each : ∀ tolerance ∈ tolerances, tolerance.isNear expected actual = true
  same : tolerances = [] → expected = actual

theorem matchAll_nil_iff : MatchAll [] expected actual ↔ expected = actual :=
  ⟨fun all => all.same rfl, fun same => ⟨List.forall_mem_nil _, fun _ => same⟩⟩

theorem matchAll_iff_of_ne_nil {tolerances : List Tolerance} (nonempty : tolerances ≠ []) :
    MatchAll tolerances expected actual ↔
      ∀ tolerance ∈ tolerances, tolerance.isNear expected actual = true :=
  ⟨MatchAll.each, fun each => ⟨each, fun empty => absurd empty nonempty⟩⟩

theorem MatchAll.of_perm {tolerances tolerances' : List Tolerance}
    (reordered : tolerances'.Perm tolerances) (all : MatchAll tolerances expected actual) :
    MatchAll tolerances' expected actual where
  each tolerance member := all.each tolerance (reordered.mem_iff.mp member)
  same empty := all.same (List.nil_perm.mp (empty ▸ reordered))

end Tolerance

namespace Tolerances

variable {t : Tolerances} {s : Schema}

/-! ## Fields -/

section

variable {index : Nat} {type : FieldType} {expected actual : Value} {distance : Binary64}

/-- No field of a schema has more tolerances than a machine word counts. -/
def IsCountable (t : Tolerances) (s : Schema) : Prop :=
  ∀ index type, s.fieldType? index = some type → (t.forField index type).length < 2 ^ 64

theorem isSome_fieldDistance?_iff :
    (t.fieldDistance? index type expected actual).isSome = true ↔
      Tolerance.MatchAll (t.forField index type) expected actual := by
  unfold fieldDistance?
  cases t.forField index type with
  | nil => simp [Tolerance.exactDistance?, Tolerance.matchAll_nil_iff]
  | cons first others =>
      simp only [Option.isSome_map, distances?, isSome_mapM_iff, Tolerance.isNear_iff_isSome,
        Tolerance.matchAll_iff_of_ne_nil (List.cons_ne_nil first others)]

theorem isUnsigned_foldl {distances : List Binary64} {start : Binary64} (first : start.IsUnsigned)
    (all : ∀ distance ∈ distances, distance.IsUnsigned) :
    (distances.foldl (· + ·) start).IsUnsigned := by
  induction distances generalizing start with
  | nil => exact first
  | cons distance distances ih =>
      obtain ⟨head, tail⟩ := List.forall_mem_cons.mp all
      exact ih (first.add head) tail

theorem isUnsigned_sum {distances : List Binary64}
    (all : ∀ distance ∈ distances, distance.IsUnsigned) : (sum distances).IsUnsigned :=
  isUnsigned_foldl isUnsigned_zero all

theorem isUnsigned_of_fieldDistance? (counted : (t.forField index type).length < 2 ^ 64)
    (found : t.fieldDistance? index type expected actual = some distance) :
    distance.IsUnsigned := by
  unfold fieldDistance? at found
  cases covered : t.forField index type with
  | nil =>
      rw [covered] at found
      exact Tolerance.isUnsigned_of_exactDistance? found
  | cons first others =>
      rw [covered] at found counted
      obtain ⟨distances, each, rfl⟩ := Option.map_eq_some_iff.mp found
      have lengths := congrArg List.length (mapM_eq_some_iff.mp each)
      rw [List.length_map, List.length_map] at lengths
      rw [lengths] at counted
      have nonempty : 0 < distances.length := lengths ▸ Nat.succ_pos others.length
      refine (isUnsigned_sum fun distance member => ?_).div_ofNat nonempty counted
      obtain ⟨tolerance, -, here⟩ := exists_of_mem_of_mapM each member
      exact Tolerance.isUnsigned_of_distance? here

end

/-! ## Records -/

variable {expected actual : Record}

theorem fieldType?_of_mem_zipIdx {field : Field} {index : Nat}
    (member : (field, index) ∈ s.fields.zipIdx) : s.fieldType? index = some field.type :=
  congrArg (Option.map Field.type) (List.mem_zipIdx_iff_getElem?.mp member)

theorem isUnsigned_of_distance? (countable : t.IsCountable s) {distance : Binary64}
    (found : t.distance? s expected actual = some distance) : distance.IsUnsigned := by
  obtain ⟨distances, each, rfl⟩ := Option.map_eq_some_iff.mp found
  refine isUnsigned_sum fun distance member => ?_
  obtain ⟨⟨field, index⟩, inFields, here⟩ := exists_of_mem_of_mapM each member
  exact isUnsigned_of_fieldDistance? (countable index _ (fieldType?_of_mem_zipIdx inFields)) here

/-- Records are near each other exactly if the values of every field of the schema match. -/
theorem isNear_iff (countable : t.IsCountable s) :
    t.isNear s expected actual = true ↔ ∀ index type, s.fieldType? index = some type →
      Tolerance.MatchAll (t.forField index type) (expected.valueAt index)
        (actual.valueAt index) := by
  rw [isNear, Tolerance.zero_le_reported_iff fun _ => isUnsigned_of_distance? countable,
    distance?, Option.isSome_map, isSome_mapM_iff]
  constructor
  · intro all index type typed
    obtain ⟨field, here, rfl⟩ := Option.map_eq_some_iff.mp typed
    exact isSome_fieldDistance?_iff.mp
      (all (field, index) (List.mem_zipIdx_iff_getElem?.mpr here))
  · rintro all ⟨field, index⟩ member
    exact isSome_fieldDistance?_iff.mpr (all index field.type (fieldType?_of_mem_zipIdx member))

/-! ## Adding tolerances -/

/-- One tolerance more: for the field at a place, or for all fields of the types it is meant for. -/
inductive Addition where
  | place (index : Nat) (tolerance : Tolerance)
  | general (tolerance : Tolerance)

namespace Addition

/-- The tolerance that is added for a field of a type. -/
def tolerance? (index : Nat) (type : FieldType) : Addition → Option Tolerance
  | place i tolerance => if i = index then some tolerance else none
  | general tolerance => if tolerance.isApplicable type then some tolerance else none

def apply (t : Tolerances) : Addition → Tolerances
  | place index tolerance => t.addAt index tolerance
  | general tolerance => t.add tolerance

end Addition

/-- The tolerances that have been added one after another. -/
def ofAdditions (additions : List Addition) : Tolerances := additions.foldl Addition.apply empty

section

variable {index : Nat} {type : FieldType}

theorem forField_apply (t : Tolerances) (addition : Addition) :
    ((addition.apply t).forField index type).Perm
      (t.forField index type ++ (addition.tolerance? index type).toList) := by
  cases addition with
  | place i tolerance =>
      by_cases here : i = index
      · simp only [Addition.apply, Addition.tolerance?, addAt, forField, here, if_true,
          List.filter_append, List.map_append, List.append_assoc, Option.toList_some]
        rw [List.filter_singleton, beq_self_eq_true]
        exact List.perm_append_comm.append_left _
      · simp [Addition.apply, Addition.tolerance?, addAt, forField, here]
  | general tolerance =>
      cases meant : tolerance.isApplicable type <;>
        simp [Addition.apply, Addition.tolerance?, add, forField, meant]

theorem forField_foldl_apply (t : Tolerances) (additions : List Addition) :
    ((additions.foldl Addition.apply t).forField index type).Perm
      (t.forField index type ++ additions.filterMap (Addition.tolerance? index type)) := by
  induction additions generalizing t with
  | nil => simp
  | cons addition additions ih =>
      have rest := (ih (addition.apply t)).trans ((forField_apply t addition).append_right _)
      rw [List.append_assoc] at rest
      rw [List.foldl_cons]
      cases made : addition.tolerance? index type <;>
        simpa [made] using rest

/-- A field has the tolerances that were added for it, in some order. -/
theorem forField_ofAdditions (additions : List Addition) :
    ((ofAdditions additions).forField index type).Perm
      (additions.filterMap (Addition.tolerance? index type)) :=
  forField_foldl_apply empty additions

end

/-- Whatever tolerances have been added, the distance of two records is reported as a number, minus
one or not negative.  It is not negative exactly if the values of every field match under all
tolerances that were added for its place or its type or, without any, are the same; so it is not
negative the other way round either, nor between a record and itself. -/
theorem reported_ofAdditions (additions : List Addition) (counted : additions.length < 2 ^ 64)
    (s : Schema) (expected actual : Record) :
    let reported (e a : Record) := Tolerance.reported ((ofAdditions additions).distance? s e a)
    (reported expected actual).isNaN = false ∧
      (reported expected actual = one.neg ∨ zero.le (reported expected actual) = true) ∧
      (zero.le (reported expected actual) = true ↔ ∀ index type, s.fieldType? index = some type →
        Tolerance.MatchAll (additions.filterMap (Addition.tolerance? index type))
          (expected.valueAt index) (actual.valueAt index)) ∧
      zero.le (reported actual expected) = zero.le (reported expected actual) ∧
      zero.le (reported expected expected) = true := by
  intro reported
  have countable : (ofAdditions additions).IsCountable s := by
    intro index type _
    rw [(forField_ofAdditions additions).length_eq]
    exact Nat.lt_of_le_of_lt (List.length_filterMap_le _ _) counted
  refine ⟨?_, ?_, ?_, isNear_comm _ s actual expected, isNear_of_row_eq _ rfl⟩
  · cases found : (ofAdditions additions).distance? s expected actual with
    | none =>
        simp only [reported, found]
        decide
    | some distance =>
        simp only [reported, found]
        exact (isUnsigned_of_distance? countable found).number
  · cases found : (ofAdditions additions).distance? s expected actual with
    | none => exact Or.inl (congrArg Tolerance.reported found)
    | some distance =>
        simp only [reported, found]
        exact Or.inr (isUnsigned_of_distance? countable found).zero_le
  · refine (isNear_iff countable).trans (forall_congr' fun index => forall_congr' fun type =>
      imp_congr_right fun _ => ?_)
    have same : ((ofAdditions additions).forField index type).Perm _ :=
      forField_ofAdditions additions
    exact ⟨.of_perm same.symm, .of_perm same⟩

/-- Two tolerances for one field, and an infinite one for all doubles: the mean of the distances
counts, and NaN is near NaN. -/
theorem reported_ofAdditions_mean :
    let additions : List Addition := [.place 1 (.ofDouble one), .place 0 (.integer 2),
      .general (.ofDouble (infinity true))]
    let s : Schema := .ofTypes "readings" [.int, .double, .double]
    let expected : Record := ⟨[.int 1, .double one, .double nan]⟩
    let actual : Record := ⟨[.bigInt 3, .double ⟨0x3ff8000000000000⟩, .double nan.neg]⟩
    let reported (e a : Record) := Tolerance.reported ((ofAdditions additions).distance? s e a)
    additions.length < 2 ^ 64 ∧ reported expected actual = ⟨0x4004000000000000⟩ ∧
      (reported expected actual).isNaN = false ∧
      ∀ index type, s.fieldType? index = some type →
        Tolerance.MatchAll (additions.filterMap (Addition.tolerance? index type))
          (expected.valueAt index) (actual.valueAt index) := by
  intro additions s expected actual reported
  have counted : additions.length < 2 ^ 64 := by decide
  obtain ⟨number, -, near, -, -⟩ := reported_ofAdditions additions counted s expected actual
  have distance : reported expected actual = ⟨0x4004000000000000⟩ := by decide +kernel
  refine ⟨counted, distance, number, near.mp ?_⟩
  change zero.le (reported expected actual) = true
  rw [distance]
  decide

end Tolerances

end Reconcile
