import Reconcile.Proofs.BagEquality
import Reconcile.Proofs.Distances
import Reconcile.Proofs.ListPasses

/-!
# Wider tolerances

Values that match within a tolerance match within a wider one, and lie at the same distance under
both.  So do records, so that a check that succeeds still succeeds when its tolerances are widened,
and a check that succeeds exactly succeeds within whatever tolerances.
-/

namespace Reconcile

theorem Binary64.le_trans {x y z : Binary64} (first : x.le y = true) (second : y.le z = true) :
    x.le z = true := by
  simp only [le, Bool.and_eq_true, decide_eq_true_eq] at first second ⊢
  obtain ⟨⟨xNumber, -⟩, xy⟩ := first
  obtain ⟨⟨-, zNumber⟩, yz⟩ := second
  exact ⟨⟨xNumber, zNumber⟩, xy.trans yz⟩

/-! ## Two values -/

namespace Tolerance

/-- The second tolerance is for numbers of the same kind and allows no fewer differences. -/
inductive NoWider : Tolerance → Tolerance → Prop where
  | double {delta delta' : Binary64} (le : delta.le delta' = true) :
      NoWider (.double delta) (.double delta')
  | integer {delta delta' : UInt64} (le : delta ≤ delta') :
      NoWider (.integer delta) (.integer delta')

variable {t t' : Tolerance} {expected actual : Value} {distance : Binary64}

theorem NoWider.isApplicable_eq (wider : t.NoWider t') : t.isApplicable = t'.isApplicable := by
  cases wider <;> rfl

theorem doubleDistance?_of_le {delta delta' expected actual : Binary64}
    (le : delta.le delta' = true) (near : doubleDistance? delta expected actual = some distance) :
    doubleDistance? delta' expected actual = some distance := by
  unfold doubleDistance? at near ⊢
  by_cases nan : (expected.isNaN || actual.isNaN) = true
  · rw [if_pos nan] at near ⊢
    exact near
  rw [if_neg nan] at near ⊢
  by_cases same : expected.sameNumber actual = true
  · rw [if_pos same] at near ⊢
    exact near
  rw [if_neg same] at near ⊢
  by_cases within : (expected - actual).abs.le delta = true
  · rw [if_pos within] at near
    rw [if_pos (Binary64.le_trans within le)]
    exact near
  · rw [if_neg within] at near
    cases near

/-- Under a wider tolerance values keep their distance. -/
theorem NoWider.distance?_eq_some (wider : t.NoWider t')
    (near : t.distance? expected actual = some distance) :
    t'.distance? expected actual = some distance := by
  cases wider with
  | double le =>
      cases expected with
      | double e =>
          cases actual with
          | double a => exact doubleDistance?_of_le le near
          | _ => exact near
      | _ => exact near
  | integer le =>
      unfold Tolerance.distance? at near ⊢
      cases wanted : expected.integer? with
      | none =>
          rw [wanted] at near
          exact near
      | some e =>
          cases given : actual.integer? with
          | none =>
              rw [wanted, given] at near
              exact near
          | some a =>
              simp only [wanted, given, Option.ite_none_right_eq_some] at near ⊢
              exact ⟨near.1.trans le, near.2⟩

end Tolerance

/-! ## Records -/

namespace Tolerances

/-- The second tolerances are for the same fields, and one by one no narrower than the first. -/
structure NoWider (t t' : Tolerances) : Prop where
  atPlace : List.Forall₂ (fun entry entry' => entry.1 = entry'.1 ∧ entry.2.NoWider entry'.2)
    t.atPlace t'.atPlace
  general : List.Forall₂ Tolerance.NoWider t.general t'.general

variable {t t' : Tolerances} {s : Schema} {expected actual : Record} {distance : Binary64}

theorem NoWider.forall₂_forField (wider : t.NoWider t') (index : Nat) (type : FieldType) :
    List.Forall₂ Tolerance.NoWider (t.forField index type) (t'.forField index type) := by
  refine List.rel_append ?_ ?_
  · rw [List.forall₂_map_left_iff, List.forall₂_map_right_iff]
    refine (List.rel_filter ?_ wider.atPlace).imp fun _ _ both => both.2
    rintro ⟨place, _⟩ ⟨_, _⟩ ⟨rfl, -⟩
    exact Iff.rfl
  · refine List.rel_filter ?_ wider.general
    intro tolerance tolerance' widens
    simp only [widens.isApplicable_eq]

theorem NoWider.fieldDistance?_eq_some (wider : t.NoWider t') {index : Nat} {type : FieldType}
    {expected actual : Value}
    (near : t.fieldDistance? index type expected actual = some distance) :
    t'.fieldDistance? index type expected actual = some distance := by
  have tolerances := wider.forall₂_forField index type
  unfold Tolerances.fieldDistance? at near ⊢
  cases covered : t.forField index type with
  | nil =>
      rw [covered, List.forall₂_nil_left_iff] at tolerances
      rw [covered] at near
      rw [tolerances]
      exact near
  | cons first others =>
      rw [covered] at tolerances near
      obtain ⟨first', others', -, -, covered'⟩ := List.forall₂_cons_left_iff.mp tolerances
      rw [covered'] at tolerances ⊢
      obtain ⟨distances, each, mean⟩ := Option.map_eq_some_iff.mp near
      refine Option.map_eq_some_iff.mpr ⟨distances, ?_, mean⟩
      exact mapM_eq_some_of_forall₂ (fun widens here => widens.distance?_eq_some here)
        tolerances each

/-- Under wider tolerances records keep their distance. -/
theorem NoWider.distance?_eq_some (wider : t.NoWider t')
    (near : t.distance? s expected actual = some distance) :
    t'.distance? s expected actual = some distance := by
  obtain ⟨distances, each, total⟩ := Option.map_eq_some_iff.mp near
  refine Option.map_eq_some_iff.mpr ⟨distances, ?_, total⟩
  have same : List.Forall₂ Eq s.fields.zipIdx s.fields.zipIdx := List.forall₂_refl _
  refine mapM_eq_some_of_forall₂ ?_ same each
  rintro ⟨field, index⟩ _ value rfl here
  exact wider.fieldDistance?_eq_some here

theorem NoWider.isNear_of_isNear (wider : t.NoWider t') (near : t.isNear s expected actual = true) :
    t'.isNear s expected actual = true := by
  obtain ⟨distance, found⟩ := Option.isSome_iff_exists.mp (isSome_of_isNear near)
  rw [Tolerances.isNear, found] at near
  rw [Tolerances.isNear, wider.distance?_eq_some found]
  exact near

end Tolerances

/-! ## Chains of tolerances -/

namespace Comparison

/-- The second difference is of the same kind and at least as large, signs apart. -/
inductive Delta.NoWider : Delta → Delta → Prop where
  | double {delta delta' : Binary64} (le : delta.abs.le delta'.abs = true) :
      NoWider (.double delta) (.double delta')
  | integer {delta delta' : UInt64} (le : delta ≤ delta') :
      NoWider (.integer delta) (.integer delta')

/-- The second comparison is of the same schema and has tolerances no narrower than the first. -/
structure NoWider (c c' : Comparison) : Prop where
  schema : c.schema = c'.schema
  tolerances : (c.tolerances.getD .empty).NoWider (c'.tolerances.getD .empty)

variable {c c' : Comparison}

theorem noWider_refl_ofSchema (s : Schema) : (ofSchema s).NoWider (ofSchema s) :=
  ⟨rfl, .nil, .nil⟩

theorem NoWider.withTolerance (wider : c.NoWider c') {tolerance tolerance' : Tolerance}
    (widens : tolerance.NoWider tolerance') :
    (c.withTolerance tolerance).NoWider (c'.withTolerance tolerance') where
  schema := wider.schema
  tolerances := by
    have places : applicablePlaces c.schema tolerance = applicablePlaces c'.schema tolerance' := by
      rw [applicablePlaces, applicablePlaces, wider.schema, widens.isApplicable_eq]
    simp only [Comparison.withTolerance, Option.getD_some, Tolerances.foldl_addAt, places]
    refine ⟨List.rel_append wider.tolerances.atPlace ?_, wider.tolerances.general⟩
    rw [List.forall₂_map_left_iff, List.forall₂_map_right_iff, List.forall₂_same]
    exact fun index _ => ⟨rfl, widens⟩

theorem NoWider.withDelta (wider : c.NoWider c') {delta delta' : Delta}
    (widens : delta.NoWider delta') : (c.withDelta delta).NoWider (c'.withDelta delta') := by
  cases widens with
  | double le => exact wider.withTolerance (.double le)
  | integer le => exact wider.withTolerance (.integer le)

theorem NoWider.withDeltas (wider : c.NoWider c') {deltas deltas' : List Delta}
    (widens : List.Forall₂ Delta.NoWider deltas deltas') :
    (c.withDeltas deltas).NoWider (c'.withDeltas deltas') := by
  induction widens generalizing c c' with
  | nil => exact wider
  | cons first _ ih => exact ih (wider.withDelta first)

end Comparison

/-! ## Checks -/

theorem Covers.mono {near near' : Record → Record → Bool} {expected actual : List Record}
    (wider : ∀ e a, near e a = true → near' e a = true) (covers : Covers near expected actual) :
    Covers near' expected actual where
  expectedCovered e member := by
    obtain ⟨a, inActual, within⟩ := covers.expectedCovered e member
    exact ⟨a, inActual, wider e a within⟩
  actualCovered a member := by
    obtain ⟨e, inExpected, within⟩ := covers.actualCovered a member
    exact ⟨e, inExpected, wider e a within⟩

namespace Grouped

variable (s : Schema) {wanted given : List Record}

theorem passes_withDeltas_iff {deltas : List Comparison.Delta} (tolerated : deltas ≠ []) :
    Passes ((Comparison.ofSchema s).withDeltas deltas)
        (Sorting.stable ((Comparison.ofSchema s).withDeltas deltas).compare wanted)
        (Sorting.stable ((Comparison.ofSchema s).withDeltas deltas).compare given) ↔
      Covers ((((Comparison.ofSchema s).withDeltas deltas).tolerances.getD .empty).isNear s)
        wanted given := by
  have keeps := (Comparison.keepsKeyExact_ofSchema s).withDeltas deltas
  obtain ⟨t, kept, tolerant⟩ :=
    Comparison.matchesWithin_withDeltas (Comparison.ofSchema s) tolerated
  generalize (Comparison.ofSchema s).withDeltas deltas = c at *
  obtain ⟨rfl, inside, exactly⟩ := keeps
  rw [kept, Option.getD_some] at exactly ⊢
  rw [passes_iff_covers tolerant fun e a near =>
    Tolerances.extract_eq_of_isNear inside exactly near]
  exact Covers.congr (Key.stable_perm c.compare wanted) (Key.stable_perm c.compare given)

/-- Records that pass within tolerances pass within wider ones, and those that pass exactly pass
within all. -/
theorem passes_of_wider {deltas deltas' : List Comparison.Delta}
    (wider : deltas = [] ∨ List.Forall₂ Comparison.Delta.NoWider deltas deltas')
    (passes : Passes ((Comparison.ofSchema s).withDeltas deltas)
      (Sorting.stable ((Comparison.ofSchema s).withDeltas deltas).compare wanted)
      (Sorting.stable ((Comparison.ofSchema s).withDeltas deltas).compare given)) :
    Passes ((Comparison.ofSchema s).withDeltas deltas')
      (Sorting.stable ((Comparison.ofSchema s).withDeltas deltas').compare wanted)
      (Sorting.stable ((Comparison.ofSchema s).withDeltas deltas').compare given) := by
  cases deltas with
  | nil =>
      by_cases tolerated : deltas' = []
      · rw [tolerated]
        exact passes
      · rw [passes_withDeltas_iff s tolerated]
        exact covers_of_rows_perm _ ((passes_ofSchema_iff s).mp passes)
  | cons delta others =>
      have widens := wider.resolve_left (List.cons_ne_nil delta others)
      have tolerated : deltas' ≠ [] := by
        rintro rfl
        cases widens
      rw [passes_withDeltas_iff s (List.cons_ne_nil delta others)] at passes
      rw [passes_withDeltas_iff s tolerated]
      have chains := (Comparison.noWider_refl_ofSchema s).withDeltas widens
      exact passes.mono fun _ _ => chains.tolerances.isNear_of_isNear

end Grouped

namespace Source

open Grouped

theorem exists_report_iff_passes {expected actual : Source} {wanted given : List Record}
    {c : Comparison} (wantedHeld : expected.HoldsInMemory wanted)
    (givenHeld : actual.HoldsInMemory given) (configured : expected.comparison = some c)
    (nonempty : wanted ≠ []) (w : Workspace) :
    (∃ report, (check actual expected w).result = .ok report) ↔
      Passes c (Sorting.stable c.compare wanted) (Sorting.stable c.compare given) := by
  rw [exists_report_iff_accepts wantedHeld givenHeld configured w, and_iff_right nonempty,
    Comparison.accepts_iff_passes]

/-- A check of records in memory that succeeds within a chain of tolerances succeeds within one of
the same kinds that are at least as wide, and a check that succeeds exactly succeeds within every
chain. -/
theorem check_widened (s : Schema) {deltas deltas' : List Comparison.Delta}
    (wider : deltas = [] ∨ List.Forall₂ Comparison.Delta.NoWider deltas deltas')
    {expected actual expected' actual' : Source} {wanted given : List Record}
    (wantedHeld : expected.HoldsInMemory wanted) (givenHeld : actual.HoldsInMemory given)
    (wantedHeld' : expected'.HoldsInMemory wanted) (givenHeld' : actual'.HoldsInMemory given)
    (configured : expected.comparison = some ((Comparison.ofSchema s).withDeltas deltas))
    (configured' : expected'.comparison = some ((Comparison.ofSchema s).withDeltas deltas'))
    (nonempty : wanted ≠ []) (w w' : Workspace)
    (succeeds : ∃ report, (check actual expected w).result = .ok report) :
    ∃ report, (check actual' expected' w').result = .ok report := by
  rw [exists_report_iff_passes wantedHeld givenHeld configured nonempty w] at succeeds
  rw [exists_report_iff_passes wantedHeld' givenHeld' configured' nonempty w']
  exact passes_of_wider s wider succeeds

/-- Readings that are one apart are within any distance of each other. -/
theorem check_widened_readings :
    let w := Workspace.ofFiles .empty (.ofName "spill")
    let s := Schema.ofTypes "readings" [.int, .double, .text]
    let c := (Comparison.ofSchema s).withDeltas [.double .one, .integer 1]
    let c' := (Comparison.ofSchema s).withDeltas [.double (.infinity true), .integer 2]
    let wanted : List Record := [⟨[.int 7, .null, .text "a"]⟩, ⟨[.int 4, .double .one]⟩]
    let given : List Record := [⟨[.int 5, .double .zero]⟩, ⟨[.int 6, .null, .text "a"]⟩]
    (∃ report, (check ((ofComparison c).addAll given) ((ofComparison c).addAll wanted) w).result =
        .ok report) ∧
      ∃ report, (check ((ofComparison c').addAll given) ((ofComparison c').addAll wanted)
        w).result = .ok report := by
  intro w s c c' wanted given
  have narrow : ∃ report, (check ((ofComparison c).addAll given) ((ofComparison c).addAll wanted)
      w).result = .ok report := by
    rw [exists_report_iff_passes (holdsInMemory_addAll c wanted) (holdsInMemory_addAll c given) rfl
      (by simp [wanted]) w, passes_withDeltas_iff s (by simp), covers_iff]
    decide +kernel
  have wider : List.Forall₂ Comparison.Delta.NoWider [.double .one, .integer 1]
      [.double (.infinity true), .integer 2] :=
    .cons (.double (by decide)) (.cons (.integer (by decide)) .nil)
  exact ⟨narrow, check_widened s (.inr wider) (holdsInMemory_addAll c wanted)
    (holdsInMemory_addAll c given) (holdsInMemory_addAll c' wanted) (holdsInMemory_addAll c' given)
    rfl rfl (by simp [wanted]) w w narrow⟩

end Source

end Reconcile
