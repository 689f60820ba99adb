import Reconcile.Comparison
import Reconcile.Proofs.ValueOrder
import Reconcile.Sorting

/-!
# The order of keys

Ordering records by a key is ordering their values at its places, and a record belongs to a group
exactly if it has the values of the group.  In sorted records a group stands in one piece.
-/

namespace Reconcile

/-! ## Places of fields -/

namespace Schema

variable (fields : List Field) (chosen : Field → Bool) {index : Nat}

theorem mem_places_iff :
    index ∈ (fields.zipIdx.filterMap fun (f, place) => if chosen f then some place else none) ↔
      ∃ f, fields[index]? = some f ∧ chosen f = true := by
  rw [List.mem_filterMap]
  constructor
  · rintro ⟨⟨f, place⟩, member, isChosen⟩
    obtain ⟨here, same⟩ := Option.ite_none_right_eq_some.mp isChosen
    obtain rfl := Option.some.inj same
    exact ⟨f, List.mem_zipIdx_iff_getElem?.mp member, here⟩
  · rintro ⟨f, here, isChosen⟩
    exact ⟨(f, index), List.mem_zipIdx_iff_getElem?.mpr here, if_pos isChosen⟩

theorem increasing_places :
    (fields.zipIdx.filterMap fun (f, place) => if chosen f then some place else none).Pairwise
      (· < ·) := by
  have inOrder : fields.zipIdx.Pairwise fun a b => a.2 < b.2 := by
    rw [← List.pairwise_map, List.zipIdx_map_snd]
    exact List.pairwise_lt_range'
  refine inOrder.filterMap _ ?_
  rintro ⟨_, place⟩ ⟨_, place'⟩ before index found index' found'
  obtain rfl := Option.some.inj (Option.ite_none_right_eq_some.mp found).2
  obtain rfl := Option.some.inj (Option.ite_none_right_eq_some.mp found').2
  exact before

theorem mem_keyIndices_iff {s : Schema} :
    index ∈ s.keyIndices ↔ ∃ f, s.field? index = some f ∧ f.isKey = true :=
  mem_places_iff s.fields Field.isKey

theorem increasing_keyIndices (s : Schema) : s.keyIndices.Pairwise (· < ·) :=
  increasing_places s.fields Field.isKey

end Schema

namespace Key

variable {k : Key}

theorem lt_length_of_mem_ofSchema {s : Schema} {index : Nat}
    (member : index ∈ (ofSchema s).indices) : index < s.length := by
  obtain ⟨f, here, -⟩ := Schema.mem_keyIndices_iff.mp (mem_ofIndices.mp member)
  exact (List.getElem?_eq_some_iff.mp here).1

theorem mem_foldl_remove {index : Nat} {places : List Nat} :
    index ∈ (places.foldl remove k).indices ↔ index ∈ k.indices ∧ index ∉ places := by
  induction places generalizing k with
  | nil => simp
  | cons place places ih =>
      rw [List.foldl_cons, ih]
      simp [remove, and_assoc]

/-- Whether the values of one group come before those of another. -/
def Precedes (a b : List Value) : Prop := Ord.compare a b = .lt

instance : DecidableRel Precedes := fun _ _ => inferInstanceAs (Decidable (_ = _))

theorem precedes_irrefl (values : List Value) : ¬ Precedes values values := by
  simp [Precedes, Std.ReflOrd.compare_self]

theorem Precedes.trans {a b c : List Value} (first : Precedes a b) (second : Precedes b c) :
    Precedes a c :=
  Std.TransCmp.lt_trans first second

theorem Precedes.asymm {a b : List Value} (before : Precedes a b) : ¬ Precedes b a :=
  fun behind => precedes_irrefl a (before.trans behind)

theorem Precedes.ne {a b : List Value} (before : Precedes a b) : a ≠ b := by
  rintro rfl
  exact precedes_irrefl a before

theorem precedes_trichotomy (a b : List Value) : Precedes a b ∨ a = b ∨ Precedes b a := by
  cases order : Ord.compare a b with
  | lt => exact Or.inl order
  | eq => exact Or.inr (Or.inl (Std.LawfulEqOrd.eq_of_compare order))
  | gt => exact Or.inr (Or.inr (Std.OrientedCmp.lt_of_gt order))

/-! ## Comparing and belonging -/

theorem compareAt_eq (a b : Record) (indices : List Nat) :
    compareAt a b indices = Ord.compare (indices.map a.valueAt) (indices.map b.valueAt) := by
  induction indices with
  | nil => rfl
  | cons index rest ih =>
      rw [compareAt, ih]
      exact List.compareLex_cons_cons.symm

theorem compare_eq (a b : Record) :
    k.compare a b = Ord.compare (k.extract a) (k.extract b) :=
  compareAt_eq a b k.indices

instance : Std.TransCmp k.compare := by
  have same : k.compare = compareOn k.extract := funext fun a => funext fun b => compare_eq a b
  rw [same]
  infer_instance

theorem belongs_zip_iff (r : Record) (indices : List Nat) (s : Record) :
    ((indices.zip (indices.map s.valueAt)).all fun (index, value) => r.valueAt index = value) ↔
      indices.map r.valueAt = indices.map s.valueAt := by
  induction indices with
  | nil => simp
  | cons index rest ih =>
      simp only [List.map_cons, List.zip_cons_cons, List.all_cons, Bool.and_eq_true,
        decide_eq_true_eq, List.cons.injEq]
      exact and_congr_right fun _ => ih

@[simp] theorem belongs_extract (r s : Record) :
    k.belongs r (k.extract s) = decide (k.extract r = k.extract s) := by
  rw [Bool.eq_iff_iff, decide_eq_true_eq]
  exact belongs_zip_iff r k.indices s

/-! ## Views of the key -/

theorem length_extract (r : Record) : (k.extract r).length = k.size := List.length_map _

theorem compare_eq_eq_iff {a b : Record} : k.compare a b = .eq ↔ k.extract a = k.extract b := by
  rw [compare_eq]
  exact Std.LawfulEqCmp.compare_eq_iff_eq

/-- A row of the size of the key is written over as a whole. -/
theorem fill_eq_extract {r : Record} {row : List Value} (fits : row.length = k.size) :
    k.fill r row = k.extract r := by
  have whole : (k.extract r).length = row.length := (length_extract r).trans fits.symm
  simp only [fill]
  rw [List.take_of_length_le (Nat.le_of_eq whole), whole, List.drop_length, List.append_nil]

/-- A key is over given places, and all that it says of records follows from the values that it
extracts. -/
structure IsOver (k : Key) (isPlace : Nat → Prop) : Prop where
  increasing : k.indices.Pairwise (· < ·)
  places {index : Nat} : index ∈ k.indices ↔ isPlace index
  compares (a b : Record) :
    k.compare a b = List.compareLex Ord.compare (k.extract a) (k.extract b)
  belongs (a b : Record) : k.belongs a (k.extract b) = true ↔ k.compare a b = .eq
  fills {row : List Value} (r : Record) : row.length = k.size → k.fill r row = k.extract r
  preorder : IsTotalPreorder k.compare

theorem isOver_of_mem_iff {isPlace : Nat → Prop}
    (places : ∀ index, index ∈ k.indices ↔ isPlace index) : k.IsOver isPlace where
  increasing := k.increasing
  places := places _
  compares := compare_eq
  belongs a b := by
    rw [belongs_extract, decide_eq_true_eq, compare_eq_eq_iff]
  fills _ := fill_eq_extract
  preorder := isTotalPreorder_of_transCmp k.compare

/-- A key that was made for a list of places or for a schema, and from which places were removed
again, is over what is left of them. -/
theorem isOver_foldl_remove :
    (∀ given removed : List Nat, (removed.foldl remove (ofIndices given)).IsOver fun index =>
        index ∈ given ∧ index ∉ removed) ∧
      ∀ (s : Schema) (removed : List Nat), (removed.foldl remove (ofSchema s)).IsOver fun index =>
        (∃ f, s.field? index = some f ∧ f.isKey = true) ∧ index ∉ removed := by
  constructor
  · intro given removed
    refine isOver_of_mem_iff fun index => ?_
    rw [mem_foldl_remove, mem_ofIndices]
  · intro s removed
    refine isOver_of_mem_iff fun index => ?_
    rw [mem_foldl_remove, ofSchema, mem_ofIndices, Schema.mem_keyIndices_iff]

/-- The places 3 and 1, of which records may have just the first or none. -/
theorem isOver_foldl_remove_short :
    let k := [2, 7].foldl remove (ofIndices [3, 2, 1, 3])
    let short : Record := ⟨[.int 1, .int 5]⟩
    let long : Record := ⟨[.int 2, .int 5, .int 0, .null, .int 9]⟩
    k.indices = [1, 3] ∧ k.belongs short (k.extract long) = true ∧
      k.fill short [.int 8, .int 8] = [.int 5, .null] ∧
      (k.compare ⟨[]⟩ short).isLE ∧ (k.compare ⟨[]⟩ long).isLE := by
  intro k short long
  have left := isOver_foldl_remove.1 [3, 2, 1, 3] [2, 7]
  have first : (k.compare ⟨[]⟩ short).isLE := by decide
  have same : k.compare short long = .eq := by
    rw [left.compares]
    decide
  refine ⟨by decide, (left.belongs short long).mpr same, left.fills short rfl, first, ?_⟩
  exact left.preorder.trans first (by rw [same]; rfl)

/-! ## Groups -/

/-- The records of a group, in their order. -/
def group (k : Key) (values : List Value) (records : List Record) : List Record :=
  records.filter fun r => k.extract r = values

/-- Whether a record lies behind a group; all do where there is none. -/
def IsBehind (k : Key) (previous : Option (List Value)) (r : Record) : Prop :=
  ∀ values ∈ previous, Precedes values (k.extract r)

instance (previous : Option (List Value)) : DecidablePred (k.IsBehind previous) :=
  fun _ => inferInstanceAs (Decidable (∀ _ ∈ _, _))

@[simp] theorem isBehind_none (r : Record) : k.IsBehind none r := by
  simp [IsBehind]

@[simp] theorem isBehind_some {values : List Value} {r : Record} :
    k.IsBehind (some values) r ↔ Precedes values (k.extract r) := by
  simp [IsBehind]

theorem mem_group {values : List Value} {records : List Record} {r : Record} :
    r ∈ k.group values records ↔ r ∈ records ∧ k.extract r = values := by
  simp [group]

/-! ## Sorted records -/

/-- Records in the order of a key, as far as it tells them apart. -/
def IsSorted (k : Key) (records : List Record) : Prop :=
  records.Pairwise fun a b => (k.compare a b).isLE

theorem isSorted_stable (records : List Record) :
    k.IsSorted (Sorting.stable k.compare records) := by
  apply List.pairwise_mergeSort
  · intro a b c first second
    exact Std.TransCmp.isLE_trans first second
  · intro a b
    have swapped : k.compare a b = (k.compare b a).swap := Std.OrientedCmp.eq_swap
    rw [swapped]
    cases k.compare b a <;> rfl

theorem stable_perm (order : Sorting.Order) (records : List Record) :
    (Sorting.stable order records).Perm records :=
  List.mergeSort_perm _ _

theorem stable_perm_stable (order : Sorting.Order) {records records' : List Record}
    (perm : records'.Perm records) :
    (Sorting.stable order records').Perm (Sorting.stable order records) :=
  (stable_perm order records').trans (perm.trans (stable_perm order records).symm)

theorem IsSorted.not_precedes {first : Record} {rest : List Record}
    (sorted : k.IsSorted (first :: rest)) {r : Record} (member : r ∈ first :: rest) :
    ¬ Precedes (k.extract r) (k.extract first) := by
  rcases List.mem_cons.mp member with rfl | inRest
  · exact precedes_irrefl _
  · have ordered := (List.pairwise_cons.mp sorted).1 r inRest
    rw [compare_eq] at ordered
    exact Std.OrientedCmp.not_lt_of_isLE ordered

theorem takeWhile_eq_filter {α : Type} {p : α → Bool} {items : List α}
    (closed : items.Pairwise fun a b => p b = true → p a = true) :
    items.takeWhile p = items.filter p ∧ items.dropWhile p = items.filter fun a => !p a := by
  induction items with
  | nil => exact ⟨rfl, rfl⟩
  | cons first rest ih =>
      obtain ⟨front, closedRest⟩ := List.pairwise_cons.mp closed
      cases holds : p first with
      | true => simp [holds, ih closedRest]
      | false =>
          have outside (a : α) (member : a ∈ rest) : ¬ p a = true := fun inside => by
            rw [front a member inside] at holds
            cases holds
          rw [List.takeWhile_cons, List.dropWhile_cons, List.filter_cons, List.filter_cons, holds,
            List.filter_eq_nil_iff.mpr outside,
            List.filter_eq_self.mpr fun a member => by simpa using outside a member]
          exact ⟨rfl, rfl⟩

/-- A group that no record comes before stands in front, and everything else lies behind it. -/
theorem IsSorted.splitGroup {records : List Record} (sorted : k.IsSorted records)
    {values : List Value} (front : ∀ r ∈ records, ¬ Precedes (k.extract r) values) :
    (records.takeWhile fun r => k.extract r = values) = k.group values records ∧
      (records.dropWhile fun r => k.extract r = values) =
        records.filter (k.IsBehind (some values)) := by
  have closed : records.Pairwise fun a b =>
      decide (k.extract b = values) = true → decide (k.extract a = values) = true := by
    refine List.Pairwise.imp_of_mem (fun {a b} inA _ ordered => ?_) sorted
    simp only [decide_eq_true_eq]
    rintro rfl
    rw [compare_eq] at ordered
    rcases precedes_trichotomy (k.extract a) (k.extract b) with before | same | behind
    · exact absurd before (front a inA)
    · exact same
    · exact absurd behind (Std.OrientedCmp.not_lt_of_isLE ordered)
  obtain ⟨taken, left⟩ := takeWhile_eq_filter closed
  refine ⟨taken, left.trans (List.filter_congr fun r member => ?_)⟩
  rw [Bool.eq_iff_iff]
  simp only [Bool.not_eq_true', decide_eq_false_iff_not, decide_eq_true_eq, isBehind_some]
  constructor
  · intro other
    rcases precedes_trichotomy (k.extract r) values with before | same | behind
    · exact absurd before (front r member)
    · exact absurd same other
    · exact behind
  · exact fun behind => Ne.symm behind.ne

end Key

namespace Comparison

instance (c : Comparison) : Std.TransCmp c.compare := inferInstanceAs (Std.TransCmp c.key.compare)

end Comparison

end Reconcile
