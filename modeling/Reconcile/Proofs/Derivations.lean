import Reconcile.Proofs.Distances
import Reconcile.Proofs.LeftOver

/-!
# Derivations

A comparison is derived from that of a schema by one replacement after the other.  A new equality
replaces the matcher unless the comparison has tolerances, and these are always the ones that the
matcher was made from.  But a comparison can also be given a tolerant matcher as it is, and then
it has no tolerances: such a matcher does not outlive a new equality.
-/

namespace Reconcile

namespace Matcher

/-- Each actual record takes at most one of the expected ones. -/
theorem length_le_pairOff (equal : Record → Record → Bool) (expected actual : List Record) :
    expected.length ≤ (pairOff equal expected actual).expected.length + actual.length := by
  have pairs := length_pairOff equal expected actual
  omega

/-- No tolerant matcher does what an exact one does: it lets one record match two. -/
theorem exists_residue_ne (equal : Record → Record → Bool) (t : Tolerances) (s : Schema) :
    ∃ expected actual,
      (exact equal).residue s expected actual ≠ (tolerant t).residue s expected actual := by
  let r : Record := ⟨[]⟩
  refine ⟨[r, r], [r], fun same => ?_⟩
  have near : t.isNear s r r = true := t.isNear_of_row_eq rfl
  have covers : Covers (t.isNear s) [r, r] [r] := ⟨by simpa using near, by simpa using near⟩
  have nothing : (pairOff equal [r, r] [r]).expected = [] := by
    have empty := leaveFar_isEmpty_iff.mpr covers
    rw [Residue.isEmpty, Bool.and_eq_true, List.isEmpty_iff] at empty
    exact (congrArg Residue.expected same).trans empty.1
  have left := length_le_pairOff equal [r, r] [r]
  rw [nothing] at left
  exact absurd left (by decide)

end Matcher

namespace Comparison

/-- A way to derive a comparison from another one. -/
inductive Derivation where
  | key (key : Key)
  | equality (equal : Record → Record → Bool)
  | matcher (matcher : Matcher)
  | render (render : Record → String)
  | serializer (serializer : Serializer)
  | tolerance (tolerance : Tolerance)

def derive (c : Comparison) : Derivation → Comparison
  | .key key => c.withKey key
  | .equality equal => c.withEquality equal
  | .matcher matcher => c.withMatcher matcher
  | .render render => c.withRender render
  | .serializer serializer => c.withSerializer serializer
  | .tolerance tolerance => c.withTolerance tolerance

/-- Derives a comparison from that of a schema, by one derivation after the other. -/
def derived (s : Schema) (derivations : List Derivation) : Comparison :=
  derivations.foldl derive (ofSchema s)

theorem derived_concat (s : Schema) (derivations : List Derivation) (last : Derivation) :
    derived s (derivations ++ [last]) = (derived s derivations).derive last := by
  rw [derived, List.foldl_append]
  rfl

/-! ## The tolerances of a derived comparison -/

/-- Whatever tolerances a comparison has, its matcher was made from them. -/
def TracksMatcher (c : Comparison) : Prop := ∀ t, c.tolerances = some t → c.matcher = .tolerant t

theorem TracksMatcher.derive {c : Comparison} (tracks : c.TracksMatcher)
    (derivation : Derivation) : (c.derive derivation).TracksMatcher := by
  intro t tolerated
  cases derivation with
  | key key => exact tracks t tolerated
  | equality equal =>
      change c.tolerances = some t at tolerated
      have kept : (c.derive (.equality equal)).matcher = c.matcher :=
        if_pos (by rw [tolerated]; rfl)
      exact kept.trans (tracks t tolerated)
  | matcher matcher => cases tolerated
  | render render => exact tracks t tolerated
  | serializer serializer => exact tracks t tolerated
  | tolerance tolerance => exact congrArg Matcher.tolerant (Option.some.inj tolerated)

theorem tracksMatcher_derived (s : Schema) (derivations : List Derivation) :
    (derived s derivations).TracksMatcher := by
  induction derivations using List.reverseRecOn with
  | nil =>
      intro t tolerated
      cases tolerated
  | append_singleton derivations last ih =>
      rw [derived_concat]
      exact ih.derive last

/-- A tolerance is added and the matcher is not replaced after that. -/
def EndsTolerant (derivations : List Derivation) : Prop :=
  ∃ before tolerance after, derivations = before ++ .tolerance tolerance :: after ∧
    ∀ matcher, .matcher matcher ∉ after

theorem not_endsTolerant_nil : ¬ EndsTolerant [] := by
  rintro ⟨before, tolerance, after, split, -⟩
  exact List.append_ne_nil_of_right_ne_nil before (List.cons_ne_nil _ after) split.symm

/-- The last derivation decides, unless it leaves both the matcher and the tolerances. -/
theorem endsTolerant_concat_iff {derivations : List Derivation} {last : Derivation} :
    EndsTolerant (derivations ++ [last]) ↔
      (∃ tolerance, last = .tolerance tolerance) ∨
        EndsTolerant derivations ∧ ∀ matcher, last ≠ .matcher matcher := by
  constructor
  · rintro ⟨before, tolerance, after, split, unreplaced⟩
    rcases List.eq_nil_or_concat' after with rfl | ⟨others, final, rfl⟩
    · exact .inl ⟨tolerance, List.singleton_inj.mp (List.append_inj_right' split rfl)⟩
    · rw [← List.cons_append, ← List.append_assoc] at split
      obtain ⟨rfl, same⟩ := List.append_inj' split rfl
      obtain rfl := List.singleton_inj.mp same
      refine .inr ⟨⟨before, tolerance, others, rfl, fun matcher member =>
        unreplaced matcher (List.mem_append_left _ member)⟩, ?_⟩
      rintro matcher rfl
      exact unreplaced matcher (List.mem_append_right _ (List.mem_singleton_self _))
  · rintro (⟨tolerance, rfl⟩ | ⟨⟨before, tolerance, after, rfl, unreplaced⟩, other⟩)
    · exact ⟨derivations, tolerance, [], rfl, fun _ => List.not_mem_nil⟩
    · refine ⟨before, tolerance, after ++ [last], by simp, fun matcher member => ?_⟩
      rcases List.mem_append.mp member with earlier | final
      · exact unreplaced matcher earlier
      · exact other matcher (List.mem_singleton.mp final).symm

theorem isSome_tolerances_derive_iff {c : Comparison} {derivation : Derivation} :
    (c.derive derivation).tolerances.isSome = true ↔
      (∃ tolerance, derivation = .tolerance tolerance) ∨
        c.tolerances.isSome = true ∧ ∀ matcher, derivation ≠ .matcher matcher := by
  cases derivation with
  | matcher matcher => simp [derive, withMatcher]
  | tolerance tolerance => simp [derive, withTolerance]
  | _ => simp [derive, withKey, withEquality, withRender, withSerializer]

theorem isSome_tolerances_derived_iff (s : Schema) (derivations : List Derivation) :
    (derived s derivations).tolerances.isSome = true ↔ EndsTolerant derivations := by
  induction derivations using List.reverseRecOn with
  | nil => exact iff_of_false Bool.false_ne_true not_endsTolerant_nil
  | append_singleton derivations last ih =>
      rw [derived_concat, isSome_tolerances_derive_iff, endsTolerant_concat_iff, ih]

/-! ## A new equality -/

theorem residue_withEquality_of_isSome {c : Comparison} (equal : Record → Record → Bool)
    (tolerated : c.tolerances.isSome = true) (expected actual : List Record) :
    (c.withEquality equal).residue expected actual = c.residue expected actual := by
  rw [residue, withEquality, if_pos tolerated]
  rfl

theorem residue_withEquality_of_not_isSome {c : Comparison} (equal : Record → Record → Bool)
    (exactly : ¬ c.tolerances.isSome = true) (expected actual : List Record) :
    (c.withEquality equal).residue expected actual =
      (Matcher.exact equal).residue c.schema expected actual := by
  rw [residue, withEquality, if_neg exactly]

/-- Under a new equality an exact matcher becomes the one of that equality.  A tolerant one keeps
what it leaves over exactly if it comes from a tolerance that was added, not from a replaced
matcher. -/
theorem withEquality_residue (s : Schema) (derivations : List Derivation)
    (equal : Record → Record → Bool) :
    let c := derived s derivations
    (∀ t, c.matcher = .tolerant t →
      ((∀ expected actual,
          (c.withEquality equal).residue expected actual = c.residue expected actual) ↔
        EndsTolerant derivations)) ∧
      ∀ earlier, c.matcher = .exact earlier → ∀ expected actual,
        (c.withEquality equal).residue expected actual =
          (Matcher.exact equal).residue c.schema expected actual := by
  intro c
  have decides := isSome_tolerances_derived_iff s derivations
  refine ⟨fun t tolerant => ⟨fun keeps => ?_, fun ends => ?_⟩, fun earlier exactly => ?_⟩
  · by_contra replaced
    obtain ⟨expected, actual, differ⟩ := Matcher.exists_residue_ne equal t c.schema
    apply differ
    rw [← residue_withEquality_of_not_isSome equal fun tolerated => replaced (decides.mp tolerated),
      keeps, residue, tolerant]
  · exact residue_withEquality_of_isSome equal (decides.mpr ends)
  · apply residue_withEquality_of_not_isSome equal
    intro tolerated
    obtain ⟨t, remembered⟩ := Option.isSome_iff_exists.mp tolerated
    have tolerant := tracksMatcher_derived s derivations t remembered
    cases exactly.symm.trans tolerant

/-- Readings that lie half a unit apart match within a matcher given as it is, and no longer do
when the same equality is given anew. -/
theorem withEquality_loses_matcher :
    let s : Schema := .ofTypes "readings" [.int, .double]
    let t : Tolerances := ⟨[(1, .double .one)], []⟩
    let c := derived s [.matcher (.tolerant t)]
    let expected : Record := ⟨[.int 1, .double .one]⟩
    let actual : Record := ⟨[.int 1, .double ⟨0x3ff8000000000000⟩]⟩
    c.matcher = .tolerant t ∧ c.residue [expected] [actual] = ⟨[], []⟩ ∧
      (c.withEquality (Record.agree s.length)).residue [expected] [actual] =
        ⟨[expected], [actual]⟩ := by
  intro s t c expected actual
  refine ⟨rfl, ?_, ?_⟩
  · decide +kernel
  · decide +kernel

end Comparison

end Reconcile
