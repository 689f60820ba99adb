import Mathlib.Data.Fintype.EquivFin
import Mathlib.Data.List.FinRange
import Mathlib.Data.List.OfFn
import Reconcile.Proofs.Diagnosis

/-!
# Exact matching

Exact matching pairs records one to one that have the same row of values, so that nothing is left
over exactly if both sides are the same bag of rows.  A comparison that succeeds has paired all
records in this way, in whatever order they came.
-/

namespace Reconcile

/-! ## Rows -/

namespace Record

/-- The values of the first fields, null where a field is absent. -/
def row (r : Record) (count : Nat) : List Value := (List.range count).map r.valueAt

theorem present?_eq_filter (r : Record) (index : Nat) :
    r.present? index = (some (r.valueAt index)).filter fun value => !value.isNull := by
  unfold present? valueAt
  cases r.field? index <;> rfl

theorem present?_eq_iff {a b : Record} {index : Nat} :
    a.present? index = b.present? index ↔ a.valueAt index = b.valueAt index := by
  constructor
  · intro same
    rw [← present?_eq_valueAt a, ← present?_eq_valueAt b, same]
  · intro same
    rw [present?_eq_filter, present?_eq_filter, same]

/-- Records agree exactly if they have the same row. -/
theorem agree_iff {count : Nat} {a b : Record} :
    agree count a b = true ↔ a.row count = b.row count := by
  rw [agree, List.all_eq_true, row, row, List.map_inj_left]
  simp only [decide_eq_true_eq, present?_eq_iff]

end Record

/-! ## Pairing off -/

namespace Matcher

theorem isEmpty_residue_nil {expected : List Record} :
    (Residue.mk expected []).isEmpty = true ↔ expected = [] := by
  simp [Residue.isEmpty]

/-- Where equality compares what `f` gives of two records, nothing is left over exactly if `f`
gives the same bag on both sides. -/
theorem pairOff_isEmpty_iff {α : Type} {equal : Record → Record → Bool} {f : Record → α}
    (same : ∀ a b, equal a b = true ↔ f a = f b) (expected actual : List Record) :
    (pairOff equal expected actual).isEmpty = true ↔ (expected.map f).Perm (actual.map f) := by
  induction actual generalizing expected with
  | nil =>
      rw [pairOff, isEmpty_residue_nil, List.map_nil, List.perm_nil, List.map_eq_nil_iff]
  | cons a actual ih =>
      rw [pairOff]
      by_cases found : expected.any (equal a) = true
      · obtain ⟨e, member, equals⟩ := List.any_eq_true.mp found
        obtain ⟨partner, front, back, -, paired, whole, erased⟩ :=
          List.exists_of_eraseP member equals
        rw [if_pos found, ih, erased, whole, List.map_append, List.map_append, List.map_cons,
          List.map_cons, (same a partner).mp paired]
        exact (List.perm_cons _).symm.trans
          ⟨List.perm_middle.trans, List.perm_middle.symm.trans⟩
      · rw [if_neg found]
        constructor
        · intro nothing
          simp [Residue.isEmpty] at nothing
        · intro bags
          have member : f a ∈ expected.map f := bags.mem_iff.mpr List.mem_cons_self
          obtain ⟨e, inExpected, equals⟩ := List.mem_map.mp member
          exact absurd (List.any_eq_true.mpr ⟨e, inExpected, (same a e).mpr equals.symm⟩) found

end Matcher

/-! ## Pairings -/

theorem perm_ofFn_comp {α : Type} {n m : Nat} (e : Fin n ≃ Fin m) (f : Fin m → α) :
    (List.ofFn (f ∘ e)).Perm (List.ofFn f) := by
  obtain rfl : n = m := Fin.equiv_iff_eq.mp ⟨e⟩
  exact Equiv.Perm.ofFn_comp_perm e f

/-- What `f` gives is the same bag for two lists exactly if their positions can be paired such that
it gives the same for both of a pair. -/
theorem perm_map_iff_exists_pairing {α β : Type} [DecidableEq β] (f : α → β) (l m : List α) :
    (l.map f).Perm (m.map f) ↔
      ∃ pairing : Fin l.length ≃ Fin m.length, ∀ i, f (l.get i) = f (m.get (pairing i)) := by
  constructor
  · intro bags
    let e : Fin (l.map f).length ≃ Fin (m.map f).length :=
      ⟨bags.idxBij, bags.symm.idxBij, bags.idxBij_rightInverse_idxBij_symm,
        bags.idxBij_leftInverse_idxBij_symm⟩
    have length (items : List α) : (items.map f).length = items.length := List.length_map f
    refine ⟨(finCongr (length l).symm).trans (e.trans (finCongr (length m))), fun i => ?_⟩
    have same := bags.getElem_idxBij_eq_getElem (i.cast (length l).symm)
    rw [List.getElem_map, List.getElem_map] at same
    exact same.symm
  · rintro ⟨pairing, same⟩
    rw [← List.ofFn_getElem_eq_map l f, ← List.ofFn_getElem_eq_map m f]
    have through : (fun i : Fin l.length => f l[(i : Nat)]) =
        (fun j : Fin m.length => f m[(j : Nat)]) ∘ pairing := funext same
    rw [through]
    exact perm_ofFn_comp pairing _

/-! ## Success of a comparison -/

namespace Grouped

/-- A group passes exactly if it has actual records and nothing of it is left over. -/
theorem checkGroup_eq_ok_iff {c : Comparison} {values : List Value} {position : Nat}
    {expected actual : List Record} {held : Option Record} :
    checkGroup c values position expected actual held = .ok () ↔
      actual ≠ [] ∧ (c.residue expected actual).isEmpty = true := by
  have nothing : residueFailure c (Key.display values) position (c.residue expected actual) = none ↔
      (c.residue expected actual).isEmpty = true := residueFailure_eq_none_iff
  unfold checkGroup
  rw [← nothing]
  cases actual with
  | nil => simp
  | cons a rest =>
      cases left : residueFailure c (Key.display values) position
          (c.residue expected (a :: rest)) with
      | none => simp [left]
      | some failure => simp [left]

/-- The bags of the keys and images of records that all have the same key. -/
theorem perm_map_key_of_perm {α : Type} {k : Key} {f : Record → α} {values : List Value}
    {expected actual : List Record} (expectedKey : ∀ e ∈ expected, k.extract e = values)
    (actualKey : ∀ a ∈ actual, k.extract a = values)
    (bags : (expected.map f).Perm (actual.map f)) :
    (expected.map fun e => (k.extract e, f e)).Perm (actual.map fun a => (k.extract a, f a)) := by
  have tag {records : List Record} (key : ∀ r ∈ records, k.extract r = values) :
      (records.map fun r => (k.extract r, f r)) = (records.map f).map fun image =>
        (values, image) := by
    rw [List.map_map]
    exact List.map_congr_left fun r member => by rw [key r member]; rfl
  rw [tag expectedKey, tag actualKey]
  exact bags.map _

theorem extract_of_mem_takeWhile {k : Key} {values : List Value} {records : List Record}
    {r : Record} (member : r ∈ records.takeWhile fun r => k.extract r = values) :
    k.extract r = values := by
  have all := List.all_takeWhile (l := records) (p := fun r => decide (k.extract r = values))
  exact of_decide_eq_true (List.all_eq_true.mp all r member)

/-- What has been taken from both sides of a comparison that succeeds is the same bag of keys and
images, whether the records are sorted or not. -/
theorem checkLists_sound {α : Type} {c : Comparison} {equal : Record → Record → Bool}
    {f : Record → α} (exactMatcher : c.matcher = .exact equal)
    (same : ∀ a b, equal a b = true ↔ f a = f b) {groups taken given : Nat}
    {expected actual : List Record} {report : Report}
    (passes : checkLists c groups taken given expected actual = .ok report) :
    (expected.map fun e => (c.key.extract e, f e)).Perm
      (actual.map fun a => (c.key.extract a, f a)) := by
  fun_induction checkLists c groups taken given expected actual with
  | case1 => exact List.Perm.refl _
  | case2 => cases passes
  | case3 => cases passes
  | case4 groups taken given actual first rest values others group left checked ih =>
      have bags : ((first :: others).map f).Perm (group.map f) := by
        have nothing := (checkGroup_eq_ok_iff.mp checked).2
        rw [Comparison.residue, exactMatcher, Matcher.residue] at nothing
        exact (Matcher.pairOff_isEmpty_iff same _ _).mp nothing
      have inGroup (e : Record) (member : e ∈ first :: others) : c.key.extract e = values := by
        rcases List.mem_cons.mp member with rfl | inOthers
        · rfl
        · exact extract_of_mem_takeWhile inOthers
      have front := perm_map_key_of_perm inGroup (fun a => extract_of_mem_takeWhile) bags
      have whole := front.append (ih passes)
      rw [← List.map_append, ← List.map_append, List.cons_append] at whole
      rwa [List.takeWhile_append_dropWhile, List.takeWhile_append_dropWhile] at whole

/-- Whatever the order of the records, a comparison by exact matching that succeeds has a pairing
of all records, in which both of a pair have the same key and are equal. -/
theorem checkGrouped_sound (s other : Schema) (key : Key) (expected actual : List Record)
    {report : Report} :
    let c := ((Comparison.ofSchema s).withKey key).withEquality (Record.agree other.length)
    c.checkGrouped (.ofRecords expected) (.ofRecords actual) = .ok report →
      ∃ pairing : Fin expected.length ≃ Fin actual.length, ∀ i,
        c.key.extract (expected.get i) = c.key.extract (actual.get (pairing i)) ∧
          c.equal (expected.get i) (actual.get (pairing i)) = true := by
  intro c passes
  rw [checkGrouped_ofRecords] at passes
  have bags := checkLists_sound (f := fun r => r.row other.length) rfl
    (fun _ _ => Record.agree_iff) passes
  obtain ⟨pairing, same⟩ := (perm_map_iff_exists_pairing _ expected actual).mp bags
  refine ⟨pairing, fun i => ?_⟩
  obtain ⟨keys, rows⟩ := Prod.mk.inj (same i)
  exact ⟨keys, Record.agree_iff.mpr rows⟩

/-- Unsorted records whose first key comes back later are paired all the same. -/
theorem checkGrouped_sound_unsorted :
    let c := ((Comparison.ofSchema (.ofTypes "pairs" [.int, .text])).withKey
      (.ofIndices [0])).withEquality (Record.agree (Schema.ofTypes "pairs" [.int, .text]).length)
    let expected : List Record :=
      [⟨[.int 2, .text "a"]⟩, ⟨[.int 2, .text "b"]⟩, ⟨[.int 1]⟩, ⟨[.int 2, .text "a"]⟩]
    let actual : List Record :=
      [⟨[.int 2, .text "b"]⟩, ⟨[.int 2, .text "a"]⟩, ⟨[.int 1, .null]⟩, ⟨[.int 2, .text "a"]⟩]
    c.checkGrouped (.ofRecords expected) (.ofRecords actual) = .ok ⟨3, 4, 4, ⟨0⟩⟩ ∧
      ∃ pairing : Fin expected.length ≃ Fin actual.length, ∀ i,
        c.key.extract (expected.get i) = c.key.extract (actual.get (pairing i)) ∧
          c.equal (expected.get i) (actual.get (pairing i)) = true := by
  intro c expected actual
  have counted : (c.checkGrouped (.ofRecords expected) (.ofRecords actual)).toOption =
      some ⟨3, 4, 4, ⟨0⟩⟩ := by decide +kernel
  cases passes : c.checkGrouped (.ofRecords expected) (.ofRecords actual) with
  | error failure =>
      rw [passes] at counted
      cases counted
  | ok report =>
      rw [passes] at counted
      cases counted
      exact ⟨rfl, checkGrouped_sound _ _ _ expected actual passes⟩

end Grouped

end Reconcile
