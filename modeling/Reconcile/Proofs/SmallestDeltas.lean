import Mathlib.Data.List.MinMax
import Reconcile.Proofs.NearRecords
import Reconcile.Proofs.WiderTolerances

/-!
# The smallest differences

When differences are tolerated one after the other, the smallest one for a type decides which values
of that type match, and all fields of the type leave the key.  In which order they were tolerated,
and how often, makes no difference.
-/

namespace Reconcile

namespace Tolerance

/-- How large the differences are that a tolerance allows, among tolerances of one kind. -/
def size : Tolerance → Nat
  | .double delta => delta.magnitude
  | .integer delta => delta.toNat

variable {t t' : Tolerance} {expected actual : Value}

theorem NoWider.isNear_of_isNear (wider : t.NoWider t') (near : t.isNear expected actual = true) :
    t'.isNear expected actual = true := by
  rw [isNear_iff_isSome] at near ⊢
  obtain ⟨distance, found⟩ := Option.isSome_iff_exists.mp near
  rw [wider.distance?_eq_some found]
  rfl

end Tolerance

namespace Comparison

/-- The tolerances that differences make for the fields of a type. -/
def tolerancesFor (deltas : List Delta) (type : FieldType) : List Tolerance :=
  (deltas.map Delta.tolerance).filter fun tolerance => tolerance.isApplicable type

/-- The smallest of them. -/
def smallest? (deltas : List Delta) (type : FieldType) : Option Tolerance :=
  (tolerancesFor deltas type).argmin Tolerance.size

variable {c : Comparison} {deltas : List Delta} {index : Nat} {type : FieldType}

theorem withDeltas_cons (c : Comparison) (delta : Delta) (deltas : List Delta) :
    c.withDeltas (delta :: deltas) = (c.withTolerance delta.tolerance).withDeltas deltas :=
  congrArg (List.foldl withDelta · deltas) (c.withDelta_eq delta)

/-! ## The tolerances of a chain -/

theorem mem_applicablePlaces_iff {s : Schema} {tolerance : Tolerance} :
    index ∈ applicablePlaces s tolerance ↔
      ∃ f, s.field? index = some f ∧ tolerance.isApplicable f.type = true :=
  Schema.mem_places_iff s.fields fun f => tolerance.isApplicable f.type

theorem increasing_applicablePlaces (s : Schema) (tolerance : Tolerance) :
    (applicablePlaces s tolerance).Pairwise (· < ·) :=
  Schema.increasing_places s.fields fun f => tolerance.isApplicable f.type

/-- A tolerance is meant for each field at most once. -/
theorem filter_applicablePlaces {s : Schema} (typed : s.fieldType? index = some type)
    (tolerance : Tolerance) :
    (applicablePlaces s tolerance).filter (· == index) =
      if tolerance.isApplicable type then [index] else [] := by
  obtain ⟨field, here, rfl⟩ := Option.map_eq_some_iff.mp typed
  have distinct : (applicablePlaces s tolerance).Nodup :=
    (increasing_applicablePlaces s tolerance).imp Nat.ne_of_lt
  rw [List.filter_beq]
  split
  · rename_i applies
    rw [List.count_eq_one_of_mem distinct (mem_applicablePlaces_iff.mpr ⟨field, here, applies⟩)]
    rfl
  · rename_i differs
    rw [List.count_eq_zero_of_not_mem, List.replicate_zero]
    intro member
    obtain ⟨field', here', applies⟩ := mem_applicablePlaces_iff.mp member
    cases here.symm.trans here'
    exact differs applies

theorem forField_withTolerance (typed : c.schema.fieldType? index = some type)
    (nothingGeneral : (c.tolerances.getD .empty).general = []) (tolerance : Tolerance) :
    ((c.withTolerance tolerance).tolerances.getD .empty).forField index type =
      (c.tolerances.getD .empty).forField index type ++
        [tolerance].filter fun tolerance => tolerance.isApplicable type := by
  simp only [withTolerance, Option.getD_some, Tolerances.foldl_addAt, Tolerances.forField,
    nothingGeneral, List.filter_nil, List.append_nil, List.filter_append, List.map_append,
    List.filter_map, Function.comp_def, filter_applicablePlaces typed, List.filter_singleton]
  cases tolerance.isApplicable type <;> rfl

theorem general_withTolerance (c : Comparison) (tolerance : Tolerance) :
    ((c.withTolerance tolerance).tolerances.getD .empty).general =
      (c.tolerances.getD .empty).general := by
  simp only [withTolerance, Option.getD_some, Tolerances.foldl_addAt]

theorem forField_withDeltas (typed : c.schema.fieldType? index = some type)
    (nothingGeneral : (c.tolerances.getD .empty).general = []) (deltas : List Delta) :
    ((c.withDeltas deltas).tolerances.getD .empty).forField index type =
      (c.tolerances.getD .empty).forField index type ++ tolerancesFor deltas type := by
  induction deltas generalizing c with
  | nil => exact (List.append_nil _).symm
  | cons delta deltas ih =>
      have step := forField_withTolerance typed nothingGeneral delta.tolerance
      have general := (c.general_withTolerance delta.tolerance).trans nothingGeneral
      rw [withDeltas_cons, ih (c := c.withTolerance delta.tolerance) typed general, step,
        List.append_assoc, tolerancesFor, tolerancesFor, ← List.filter_append]
      rfl

/-- The tolerances for a field are those that the differences make for its type. -/
theorem forField_ofSchema {s : Schema} (typed : s.fieldType? index = some type)
    (deltas : List Delta) :
    (((ofSchema s).withDeltas deltas).tolerances.getD .empty).forField index type =
      tolerancesFor deltas type :=
  forField_withDeltas typed rfl deltas

/-- Records are near each other just if their values match under all tolerances for their types. -/
theorem isNear_withDeltas_iff {s : Schema} (countable : deltas.length < 2 ^ 64)
    (expected actual : Record) :
    (((ofSchema s).withDeltas deltas).tolerances.getD .empty).isNear s expected actual = true ↔
      ∀ index type, s.fieldType? index = some type →
        Tolerance.MatchAll (tolerancesFor deltas type) (expected.valueAt index)
          (actual.valueAt index) := by
  have few : (((ofSchema s).withDeltas deltas).tolerances.getD .empty).IsCountable s := by
    intro index type typed
    rw [forField_ofSchema typed deltas]
    refine Nat.lt_of_le_of_lt (List.length_filter_le _ _) ?_
    rwa [List.length_map]
  rw [Tolerances.isNear_iff few]
  refine forall_congr' fun index => forall_congr' fun type => forall_congr' fun typed => ?_
  rw [forField_ofSchema typed deltas]

/-! ## The smallest tolerance -/

theorem noWider_of_size_le (numbers : ∀ delta, .double delta ∈ deltas → delta.isNaN = false)
    {least other : Tolerance} (leastGiven : least ∈ tolerancesFor deltas type)
    (otherGiven : other ∈ tolerancesFor deltas type) (smaller : least.size ≤ other.size) :
    least.NoWider other := by
  obtain ⟨inChain, applies⟩ := List.mem_filter.mp leastGiven
  obtain ⟨inChain', applies'⟩ := List.mem_filter.mp otherGiven
  obtain ⟨delta, given, rfl⟩ := List.mem_map.mp inChain
  obtain ⟨delta', given', rfl⟩ := List.mem_map.mp inChain'
  -- tolerances of different kinds are not for the same type
  cases delta with
  | double delta =>
      have isDouble : type = .double := eq_of_beq applies
      cases delta' with
      | double delta' =>
          have unsigned := Binary64.isUnsigned_abs (numbers delta given)
          have unsigned' := Binary64.isUnsigned_abs (numbers delta' given')
          exact .double ((unsigned.le_iff unsigned').mpr smaller)
      | integer delta' =>
          rw [isDouble] at applies'
          cases applies'
  | integer delta =>
      cases delta' with
      | double delta' =>
          have isDouble : type = .double := eq_of_beq applies'
          rw [isDouble] at applies
          cases applies
      | integer delta' => exact .integer (UInt64.le_iff_toNat_le.mpr smaller)

/-- Values match under all tolerances for a type just if they match under the smallest. -/
theorem matchAll_iff_smallest (numbers : ∀ delta, .double delta ∈ deltas → delta.isNaN = false)
    {expected actual : Value} :
    Tolerance.MatchAll (tolerancesFor deltas type) expected actual ↔
      match smallest? deltas type with
      | some tolerance => tolerance.isNear expected actual = true
      | none => expected = actual := by
  cases found : smallest? deltas type with
  | none =>
      rw [List.argmin_eq_none.mp found]
      exact Tolerance.matchAll_nil_iff
  | some least =>
      have given := List.argmin_mem found
      rw [Tolerance.matchAll_iff_of_ne_nil (List.ne_nil_of_mem given)]
      constructor
      · exact fun each => each least given
      · intro near tolerance member
        have wider := noWider_of_size_le numbers given member (List.le_of_mem_argmin member found)
        exact wider.isNear_of_isNear near

/-! ## The key of a chain -/

theorem mem_key_withDeltas_iff :
    index ∈ (c.withDeltas deltas).key.indices ↔
      index ∈ c.key.indices ∧ ∀ delta ∈ deltas,
        index ∉ applicablePlaces c.schema delta.tolerance := by
  induction deltas generalizing c with
  | nil => simp [withDeltas]
  | cons delta deltas ih =>
      have step : index ∈ (c.withTolerance delta.tolerance).key.indices ↔ _ :=
        Key.mem_foldl_remove
      rw [withDeltas_cons, ih, step, List.forall_mem_cons, and_assoc]
      rfl

theorem smallest?_eq_none_iff {s : Schema} (typed : s.fieldType? index = some type) :
    smallest? deltas type = none ↔
      ∀ delta ∈ deltas, index ∉ applicablePlaces s delta.tolerance := by
  obtain ⟨field, here, rfl⟩ := Option.map_eq_some_iff.mp typed
  rw [smallest?, List.argmin_eq_none, tolerancesFor, List.filter_eq_nil_iff, List.forall_mem_map]
  refine forall_congr' fun delta => forall_congr' fun _ => not_congr ?_
  rw [mem_applicablePlaces_iff]
  constructor
  · exact fun applies => ⟨field, here, applies⟩
  · rintro ⟨field', here', applies⟩
    cases here.symm.trans here'
    exact applies

/-- The fields of the types for which differences are tolerated leave the key. -/
theorem indices_withDeltas (s : Schema) (deltas : List Delta) :
    ((ofSchema s).withDeltas deltas).key.indices =
      s.keyIndices.filter fun index => ((s.fieldType? index).bind (smallest? deltas)).isNone := by
  have increasing := (Schema.increasing_keyIndices s).filter
  refine (Key.increasing _).eq_of_mem_iff (increasing _) fun index => ?_
  have base : index ∈ (ofSchema s).key.indices ↔ index ∈ s.keyIndices := Key.mem_ofIndices
  rw [mem_key_withDeltas_iff, List.mem_filter, base]
  refine and_congr_right fun isKey => ?_
  obtain ⟨field, here, -⟩ := Schema.mem_keyIndices_iff.mp isKey
  have typed : s.fieldType? index = some field.type := congrArg (Option.map Field.type) here
  rw [typed, Option.bind_some, Option.isNone_iff_eq_none]
  exact (smallest?_eq_none_iff typed).symm

/-! ## Reordered chains -/

theorem isNear_withDeltas_of_perm (s : Schema) {deltas' : List Delta}
    (countable : deltas.length < 2 ^ 64) (reordered : deltas'.Perm deltas) :
    (((ofSchema s).withDeltas deltas').tolerances.getD .empty).isNear s =
      (((ofSchema s).withDeltas deltas).tolerances.getD .empty).isNear s := by
  have countable' : deltas'.length < 2 ^ 64 := by rwa [reordered.length_eq]
  have tolerances (type : FieldType) :
      (tolerancesFor deltas' type).Perm (tolerancesFor deltas type) :=
    (reordered.map _).filter _
  funext expected actual
  rw [Bool.eq_iff_iff, isNear_withDeltas_iff countable', isNear_withDeltas_iff countable]
  refine forall_congr' fun index => forall_congr' fun type => forall_congr' fun _ => ?_
  exact ⟨fun all => all.of_perm (tolerances type).symm, fun all => all.of_perm (tolerances type)⟩

theorem accepts_withDeltas_of_perm (s : Schema) {deltas' : List Delta}
    (countable : deltas.length < 2 ^ 64) (reordered : deltas'.Perm deltas)
    {wanted given : List Record} :
    ((ofSchema s).withDeltas deltas').Accepts wanted given ↔
      ((ofSchema s).withDeltas deltas).Accepts wanted given := by
  by_cases exactly : deltas = []
  · subst exactly
    rw [List.perm_nil.mp reordered]
  · have exactly' : deltas' ≠ [] := by
      rintro rfl
      exact exactly (List.nil_perm.mp reordered)
    rw [accepts_iff_passes, accepts_iff_passes, Grouped.passes_withDeltas_iff s exactly',
      Grouped.passes_withDeltas_iff s exactly, isNear_withDeltas_of_perm s countable reordered]

/-- After any chain of tolerances the key has lost the fields of the types they are for.  Records
lie at a distance that is not negative just if the values of every field match under the smallest
tolerance for its type or, where there is none, are the same.  Reordering the chain changes nothing
about which records pass.  The chain is no longer than a machine word counts. -/
theorem withDeltas_smallest (s : Schema) {deltas : List Delta}
    (numbers : ∀ delta, .double delta ∈ deltas → delta.isNaN = false)
    (countable : deltas.length < 2 ^ 64) :
    let c := (ofSchema s).withDeltas deltas
    c.key.indices =
        s.keyIndices.filter (fun index => ((s.fieldType? index).bind (smallest? deltas)).isNone) ∧
      (deltas ≠ [] → ∃ t, c.tolerances = some t ∧ ∀ e a : Record,
        (Binary64.zero.le (Tolerance.reported (t.distance? s e a)) = true ↔
          ∀ index type, s.fieldType? index = some type →
            match smallest? deltas type with
            | some tolerance => Binary64.zero.le (Tolerance.reported
                (tolerance.distance? (e.valueAt index) (a.valueAt index))) = true
            | none => e.valueAt index = a.valueAt index)) ∧
      ∀ deltas' : List Delta, deltas'.Perm deltas →
        let c' := (ofSchema s).withDeltas deltas'
        ∀ wanted given : List Record, (c'.Accepts wanted given ↔ c.Accepts wanted given) ∧
          ∀ expected actual expected' actual' : Source, expected.HoldsInMemory wanted →
            actual.HoldsInMemory given → expected'.HoldsInMemory wanted →
            actual'.HoldsInMemory given → expected.comparison = some c →
            expected'.comparison = some c' → ∀ w w' : Workspace,
              ((∃ report, (Source.check actual' expected' w').result = .ok report) ↔
                ∃ report, (Source.check actual expected w).result = .ok report) := by
  intro c
  refine ⟨indices_withDeltas s deltas, fun tolerated => ?_, ?_⟩
  · obtain ⟨t, kept, -⟩ := matchesWithin_withDeltas (ofSchema s) tolerated
    refine ⟨t, kept, fun e a => ?_⟩
    have near := isNear_withDeltas_iff (s := s) countable e a
    rw [kept, Option.getD_some] at near
    refine near.trans ?_
    refine forall_congr' fun index => forall_congr' fun type => forall_congr' fun _ => ?_
    exact matchAll_iff_smallest numbers
  · intro deltas' reordered c' wanted given
    have accepts : c'.Accepts wanted given ↔ c.Accepts wanted given :=
      accepts_withDeltas_of_perm s countable reordered
    refine ⟨accepts, ?_⟩
    intro expected actual expected' actual' wantedHeld givenHeld wantedHeld' givenHeld' configured
      configured' w w'
    rw [Source.exists_report_iff_accepts wantedHeld' givenHeld' configured' w',
      Source.exists_report_iff_accepts wantedHeld givenHeld configured w, accepts]

/-- Of two differences for each kind of number the smaller ones decide: readings that are one apart
are near each other, and an integer that is two apart is too far off.  The chain can be reversed. -/
theorem withDeltas_smallest_readings :
    let s := Schema.ofTypes "readings" [.int, .double, .text]
    let deltas : List Delta :=
      [.double (.infinity true), .integer 2, .double Binary64.one.neg, .integer 1]
    let c := (ofSchema s).withDeltas deltas
    let reading : Record := ⟨[.int 5, .double .one, .null]⟩
    let near : Record := ⟨[.int 6, .double .zero]⟩
    let far : Record := ⟨[.int 7, .double .zero]⟩
    (∀ delta, .double delta ∈ deltas → delta.isNaN = false) ∧ deltas.length < 2 ^ 64 ∧
      c.key.indices = [2] ∧
      (∃ t, c.tolerances = some t ∧
        Binary64.zero.le (Tolerance.reported (t.distance? s reading near)) = true ∧
        ¬ Binary64.zero.le (Tolerance.reported (t.distance? s reading far)) = true) ∧
      ((ofSchema s).withDeltas deltas.reverse).Accepts [reading] [near, near] := by
  intro s deltas c reading near far
  have numbers : ∀ delta, .double delta ∈ deltas → delta.isNaN = false := by
    intro delta member
    have either : delta = .infinity true ∨ delta = Binary64.one.neg := by
      simpa [deltas] using member
    rcases either with rfl | rfl <;> decide
  have countable : deltas.length < 2 ^ 64 := by decide
  obtain ⟨key, distances, reorders⟩ := withDeltas_smallest s numbers countable
  obtain ⟨t, kept, decides⟩ := distances (List.cons_ne_nil _ _)
  have smallestInteger : smallest? deltas .int = some (.integer 1) := by decide +kernel
  have smallestDouble : smallest? deltas .double = some (.double .one) := by decide +kernel
  have noneForText : smallest? deltas .text = none := by decide +kernel
  refine ⟨numbers, countable, key.trans (by decide +kernel), ⟨t, kept, ?_, ?_⟩, ?_⟩
  · refine (decides reading near).mpr fun index type typed => ?_
    rcases index with _ | _ | _ | index
    · obtain rfl : type = .int := (Option.some.inj typed).symm
      rw [smallestInteger]
      decide +kernel
    · obtain rfl : type = .double := (Option.some.inj typed).symm
      rw [smallestDouble]
      decide +kernel
    · obtain rfl : type = .text := (Option.some.inj typed).symm
      rw [noneForText]
      rfl
    · cases typed
  · intro isNear
    have within := (decides reading far).mp isNear 0 .int rfl
    rw [smallestInteger] at within
    revert within
    decide +kernel
  · refine ((reorders _ deltas.reverse_perm [reading] [near, near]).1).mpr ?_
    rw [accepts_iff_passes, Grouped.passes_withDeltas_iff s (List.cons_ne_nil _ _), covers_iff]
    decide +kernel

end Comparison

end Reconcile
