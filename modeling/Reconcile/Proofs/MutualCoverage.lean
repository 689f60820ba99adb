import Reconcile.Proofs.ListPasses
import Reconcile.Proofs.MemorySources

/-!
# Mutual coverage

Tolerances only apply to fields that have left the key, so that records near each other have the
same key.  Comparing group by group then asks the same as comparing everything with everything:
each record is near some record of the other side.
-/

namespace Reconcile

/-! ## Distances -/

namespace Tolerances

variable {t : Tolerances} {s : Schema} {expected actual : Record} {index : Nat}

/-- Only records that have a distance are near each other. -/
theorem isSome_of_isNear (near : t.isNear s expected actual = true) :
    (t.distance? s expected actual).isSome = true := by
  unfold isNear at near
  cases distance : t.distance? s expected actual with
  | some value => rfl
  | none =>
      rw [distance] at near
      exact absurd near (by decide)

/-- No tolerance applies to the field at a place. -/
structure IsExactAt (t : Tolerances) (index : Nat) : Prop where
  uncovered : ∀ tolerance, (index, tolerance) ∉ t.atPlace
  nothingGeneral : t.general = []

theorem IsExactAt.forField_eq_nil (exactly : t.IsExactAt index) (type : FieldType) :
    t.forField index type = [] := by
  rw [forField, exactly.nothingGeneral, List.filter_nil, List.append_nil, List.map_eq_nil_iff,
    List.filter_eq_nil_iff]
  rintro ⟨place, tolerance⟩ member
  simp only [beq_iff_eq]
  rintro rfl
  exact exactly.uncovered tolerance member

/-- Records near each other have the same values where no tolerance applies. -/
theorem IsExactAt.valueAt_eq (exactly : t.IsExactAt index) (inside : index < s.length)
    (near : t.isNear s expected actual = true) :
    expected.valueAt index = actual.valueAt index := by
  have distances := isSome_of_isNear near
  rw [distance?, Option.isSome_map] at distances
  have member : (s.fields[index], index) ∈ s.fields.zipIdx :=
    List.mem_zipIdx_iff_getElem?.mpr (List.getElem?_eq_getElem inside)
  have field := isSome_mapM_iff.mp distances _ member
  simp only [fieldDistance?, exactly.forField_eq_nil, Tolerance.exactDistance?] at field
  by_contra other
  simp [other] at field

/-- Records near each other have the same key, if no tolerance applies to its fields. -/
theorem extract_eq_of_isNear {k : Key} (inside : ∀ index ∈ k.indices, index < s.length)
    (exactly : ∀ index ∈ k.indices, t.IsExactAt index)
    (near : t.isNear s expected actual = true) : k.extract expected = k.extract actual :=
  List.map_congr_left fun index member =>
    (exactly index member).valueAt_eq (inside index member) near

end Tolerances

/-! ## Adding tolerances -/

theorem Tolerances.foldl_addAt (tolerance : Tolerance) (places : List Nat) (t : Tolerances) :
    places.foldl (fun t index => t.addAt index tolerance) t =
      ⟨t.atPlace ++ places.map fun index => (index, tolerance), t.general⟩ := by
  induction places generalizing t with
  | nil => simp
  | cons place places ih =>
      rw [List.foldl_cons, ih]
      simp [addAt]

namespace Comparison

/-- A difference to be tolerated between numbers of one kind. -/
inductive Delta where
  | double (delta : Binary64)
  | integer (delta : UInt64)

/-- The tolerance of a difference, the sign of which does not count. -/
def Delta.tolerance : Delta → Tolerance
  | .double delta => .ofDouble delta
  | .integer delta => .integer delta

def withDelta (c : Comparison) : Delta → Comparison
  | .double delta => c.withDoubleDelta delta
  | .integer delta => c.withIntegerDelta delta

theorem withDelta_eq (c : Comparison) (delta : Delta) :
    c.withDelta delta = c.withTolerance delta.tolerance := by
  cases delta <;> rfl

/-- Tolerates one difference after the other. -/
def withDeltas (c : Comparison) (deltas : List Delta) : Comparison := deltas.foldl withDelta c

/-- The tolerances of a comparison of a schema never apply to a field of its key. -/
structure KeepsKeyExact (s : Schema) (c : Comparison) : Prop where
  schema : c.schema = s
  inside : ∀ index ∈ c.key.indices, index < s.length
  exactly : ∀ index ∈ c.key.indices, (c.tolerances.getD .empty).IsExactAt index

/-- The matcher of a comparison is the one that its tolerances make. -/
def MatchesWithin (c : Comparison) : Prop :=
  ∃ t, c.tolerances = some t ∧ c.matcher = .tolerant t

theorem keepsKeyExact_ofSchema (s : Schema) : KeepsKeyExact s (ofSchema s) where
  schema := rfl
  inside _ member := Key.lt_length_of_mem_ofSchema member
  exactly _ _ := ⟨fun _ => List.not_mem_nil, rfl⟩

theorem KeepsKeyExact.withTolerance {s : Schema} {c : Comparison} (keeps : KeepsKeyExact s c)
    (tolerance : Tolerance) : KeepsKeyExact s (c.withTolerance tolerance) where
  schema := keeps.schema
  inside index member := keeps.inside index (Key.mem_foldl_remove.mp member).1
  exactly index member := by
    obtain ⟨inKey, outside⟩ := Key.mem_foldl_remove.mp member
    obtain ⟨uncovered, nothingGeneral⟩ := keeps.exactly index inKey
    simp only [Comparison.withTolerance, Option.getD_some, Tolerances.foldl_addAt]
    refine ⟨fun other covered => ?_, nothingGeneral⟩
    rcases List.mem_append.mp covered with before | added
    · exact uncovered other before
    · obtain ⟨place, inPlaces, same⟩ := List.mem_map.mp added
      obtain ⟨rfl, -⟩ := Prod.mk.inj same
      exact outside inPlaces

theorem matchesWithin_withTolerance (c : Comparison) (tolerance : Tolerance) :
    (c.withTolerance tolerance).MatchesWithin :=
  ⟨_, rfl, rfl⟩

theorem KeepsKeyExact.withDelta {s : Schema} {c : Comparison} (keeps : KeepsKeyExact s c)
    (delta : Delta) : KeepsKeyExact s (c.withDelta delta) := by
  rw [withDelta_eq]
  exact keeps.withTolerance delta.tolerance

theorem matchesWithin_withDelta (c : Comparison) (delta : Delta) :
    (c.withDelta delta).MatchesWithin := by
  rw [withDelta_eq]
  exact matchesWithin_withTolerance c delta.tolerance

theorem KeepsKeyExact.withDeltas {s : Schema} {c : Comparison} (keeps : KeepsKeyExact s c)
    (deltas : List Delta) : KeepsKeyExact s (c.withDeltas deltas) := by
  induction deltas generalizing c with
  | nil => exact keeps
  | cons delta deltas ih => exact ih (keeps.withDelta delta)

theorem matchesWithin_withDeltas (c : Comparison) {deltas : List Delta} (nonempty : deltas ≠ []) :
    (c.withDeltas deltas).MatchesWithin := by
  obtain ⟨earlier, last, rfl⟩ := (List.eq_nil_or_concat' deltas).resolve_left nonempty
  rw [withDeltas, List.foldl_append]
  exact matchesWithin_withDelta _ last

end Comparison

/-! ## Coverage -/

/-- Each record is near some record of the other side. -/
structure Covers (near : Record → Record → Bool) (expected actual : List Record) : Prop where
  expectedCovered : ∀ e ∈ expected, ∃ a ∈ actual, near e a = true
  actualCovered : ∀ a ∈ actual, ∃ e ∈ expected, near e a = true

theorem covers_iff {near : Record → Record → Bool} {expected actual : List Record} :
    Covers near expected actual ↔
      (∀ e ∈ expected, ∃ a ∈ actual, near e a = true) ∧
        ∀ a ∈ actual, ∃ e ∈ expected, near e a = true :=
  ⟨fun covers => ⟨covers.1, covers.2⟩, fun both => ⟨both.1, both.2⟩⟩

theorem Matcher.leaveFar_isEmpty_iff {near : Record → Record → Bool}
    {expected actual : List Record} :
    (leaveFar near expected actual).isEmpty = true ↔ Covers near expected actual := by
  rw [covers_iff]
  simp [Residue.isEmpty, leaveFar, List.filter_eq_nil_iff]

namespace Grouped

/-- Groups pass a tolerant matcher exactly if both sides cover each other as a whole. -/
theorem passes_iff_covers {c : Comparison} {t : Tolerances} (tolerant : c.matcher = .tolerant t)
    (sameKey : ∀ e a, t.isNear c.schema e a = true → c.key.extract e = c.key.extract a)
    {expected actual : List Record} :
    Passes c expected actual ↔ Covers (t.isNear c.schema) expected actual := by
  have matched_iff (values : List Value) :
      (leftOver c expected actual values).isEmpty = true ↔
        Covers (t.isNear c.schema) (c.key.group values expected) (c.key.group values actual) := by
    rw [leftOver, Comparison.residue, tolerant, Matcher.residue, Matcher.leaveFar_isEmpty_iff]
  constructor
  · intro passes
    refine ⟨fun e member => ?_, fun a member => ?_⟩
    · have covers := (matched_iff _).mp (passes.matched e member)
      obtain ⟨a, inGroup, near⟩ := covers.expectedCovered e (Key.mem_group.mpr ⟨member, rfl⟩)
      exact ⟨a, (Key.mem_group.mp inGroup).1, near⟩
    · obtain ⟨e, inExpected, same⟩ := passes.expectedKey a member
      have covers := (matched_iff _).mp (passes.matched e inExpected)
      obtain ⟨e', inGroup, near⟩ :=
        covers.actualCovered a (Key.mem_group.mpr ⟨member, same.symm⟩)
      exact ⟨e', (Key.mem_group.mp inGroup).1, near⟩
  · intro covers
    refine ⟨fun a member => ?_, fun e member => ?_, fun e _ => (matched_iff _).mpr ⟨?_, ?_⟩⟩
    · obtain ⟨e, inExpected, near⟩ := covers.actualCovered a member
      exact ⟨e, inExpected, sameKey e a near⟩
    · obtain ⟨a, inActual, near⟩ := covers.expectedCovered e member
      exact List.ne_nil_of_mem (Key.mem_group.mpr ⟨inActual, (sameKey e a near).symm⟩)
    · intro e' inGroup
      obtain ⟨inExpected, same⟩ := Key.mem_group.mp inGroup
      obtain ⟨a, inActual, near⟩ := covers.expectedCovered e' inExpected
      exact ⟨a, Key.mem_group.mpr ⟨inActual, (sameKey e' a near).symm.trans same⟩, near⟩
    · intro a inGroup
      obtain ⟨inActual, same⟩ := Key.mem_group.mp inGroup
      obtain ⟨e', inExpected, near⟩ := covers.actualCovered a inActual
      exact ⟨e', Key.mem_group.mpr ⟨inExpected, (sameKey e' a near).trans same⟩, near⟩

end Grouped

theorem Covers.congr {near : Record → Record → Bool}
    {expected expected' actual actual' : List Record}
    (expectedPerm : expected.Perm expected') (actualPerm : actual.Perm actual') :
    Covers near expected actual ↔ Covers near expected' actual' := by
  simp only [covers_iff, expectedPerm.mem_iff, actualPerm.mem_iff]

namespace Source

open Grouped

/-- Checking records in memory within tolerances succeeds exactly if each expected record has an
actual one at a distance that is not negative, and each actual record an expected one.  The keys of
the records do not matter. -/
theorem check_tolerant (s : Schema) {deltas : List Comparison.Delta} (tolerated : deltas ≠ [])
    {expected actual : Source} {wanted given : List Record}
    (wantedHeld : expected.HoldsInMemory wanted) (givenHeld : actual.HoldsInMemory given)
    (expectedConfigured : expected.comparison = some ((Comparison.ofSchema s).withDeltas deltas))
    (nonempty : wanted ≠ []) (w : Workspace) :
    ∃ t, ((Comparison.ofSchema s).withDeltas deltas).tolerances = some t ∧
      ((∃ report, (check actual expected w).result = .ok report) ↔
        (∀ e ∈ wanted, ∃ a ∈ given,
          Binary64.zero.le (Tolerance.reported (t.distance? s e a)) = true) ∧
        (∀ a ∈ given, ∃ e ∈ wanted,
          Binary64.zero.le (Tolerance.reported (t.distance? s e a)) = true)) := by
  have keeps := (Comparison.keepsKeyExact_ofSchema s).withDeltas deltas
  obtain ⟨t, kept, tolerant⟩ :=
    Comparison.matchesWithin_withDeltas (Comparison.ofSchema s) tolerated
  refine ⟨t, kept, ?_⟩
  generalize (Comparison.ofSchema s).withDeltas deltas = c at *
  obtain ⟨rfl, inside, exactly⟩ := keeps
  rw [kept] at exactly
  have passes_iff : Passes c (Sorting.stable c.compare wanted) (Sorting.stable c.compare given) ↔
      Covers (t.isNear c.schema) wanted given := by
    rw [passes_iff_covers tolerant fun e a near =>
      Tolerances.extract_eq_of_isNear inside exactly near]
    exact Covers.congr (Key.stable_perm c.compare wanted) (Key.stable_perm c.compare given)
  rcases check_verdict wantedHeld givenHeld expectedConfigured nonempty w with
    ⟨passes, counted⟩ | ⟨fails, failure, found, -⟩
  · rw [counted]
    exact iff_of_true ⟨_, rfl⟩ (covers_iff.mp (passes_iff.mp passes))
  · rw [found]
    refine iff_of_false ?_ fun both => fails (passes_iff.mpr (covers_iff.mpr both))
    rintro ⟨report, ⟨⟩⟩

/-- One expected record may stand for two actual ones, and a null is near nothing but a null. -/
theorem check_tolerant_shared :
    let w := Workspace.ofFiles .empty (.ofName "spill")
    let s := Schema.ofTypes "readings" [.int, .double, .text]
    let c := (Comparison.ofSchema s).withDeltas [.double .one, .integer 1]
    let wanted : List Record := [⟨[.int 7, .null, .text "a"]⟩, ⟨[.int 4, .double .one]⟩]
    let given : List Record :=
      [⟨[.int 5, .double .zero]⟩, ⟨[.int 6, .null, .text "a"]⟩, ⟨[.int 3, .double .one]⟩]
    ∃ report, (check ((ofComparison c).addAll given) ((ofComparison c).addAll wanted) w).result =
      .ok report := by
  intro w s c wanted given
  obtain ⟨t, kept, decided⟩ := check_tolerant s (by simp) (holdsInMemory_addAll c wanted)
    (holdsInMemory_addAll c given) rfl (by simp [wanted]) w
  obtain rfl : ⟨[(1, .double .one), (0, .integer 1)], []⟩ = t := Option.some.inj kept
  exact decided.mpr (by decide +kernel)

end Source

end Reconcile
