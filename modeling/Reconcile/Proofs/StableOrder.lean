import Mathlib.Algebra.GroupWithZero.Nat
import Mathlib.Data.List.Sort
import Reconcile.Proofs.KeyOrder

/-!
# Stable sorting

Sorting keeps the records that an order does not tell apart in the order in which they came, and
together with being ordered this determines the sorted list.  Merging sorted lists, of equal heads
the first, sorts their concatenation.
-/

namespace Reconcile

namespace Sorting

variable {order : Order}

/-- The records come in an order, as far as it tells them apart. -/
def IsOrdered (order : Order) (records : List Record) : Prop :=
  records.Pairwise fun a b => (order a b).isLE

/-- The records that an order does not tell from a given one, as they come. -/
def tied (order : Order) (r : Record) (records : List Record) : List Record :=
  records.filter fun s => order r s = .eq

theorem mem_tied {r s : Record} {records : List Record} :
    s ∈ tied order r records ↔ s ∈ records ∧ order r s = .eq := by
  simp [tied]

theorem tied_cons (r s : Record) (records : List Record) :
    tied order r (s :: records) =
      if order r s = .eq then s :: tied order r records else tied order r records := by
  simp only [tied, List.filter_cons, decide_eq_true_eq]

/-- What is greater stays in front of what is inserted. -/
theorem insert_append {r : Record} {before : List Record} (behind : List Record)
    (greater : ∀ s ∈ before, ¬ (order r s).isLE) :
    (before ++ behind).orderedInsert (fun a b => (order a b).isLE) r =
      before ++ behind.orderedInsert (fun a b => (order a b).isLE) r := by
  induction before with
  | nil => rfl
  | cons s before ih =>
      obtain ⟨first, others⟩ := List.forall_mem_cons.mp greater
      rw [List.cons_append, List.orderedInsert_cons, if_neg first, ih others, List.cons_append]

variable [Std.TransCmp order]

theorem isLE_or_isLE (a b : Record) : ((order a b).isLE || (order b a).isLE) = true := by
  have swapped : order b a = (order a b).swap := Std.OrientedCmp.eq_swap
  rw [swapped]
  cases order a b <;> rfl

/-! ## The sorted list -/

theorem isOrdered_stable (records : List Record) : IsOrdered order (stable order records) :=
  List.pairwise_mergeSort (fun _ _ _ => Std.TransCmp.isLE_trans) isLE_or_isLE records

theorem isOrdered_tied (r : Record) (records : List Record) :
    IsOrdered order (tied order r records) := by
  refine List.pairwise_iff_forall_sublist.mpr fun {a b} pair => ?_
  have same {s : Record} (member : s ∈ [a, b]) : order r s = .eq :=
    (mem_tied.mp (pair.subset member)).2
  have back : order a r = .eq := Std.OrientedCmp.eq_symm (same (by simp))
  have together : order a b = .eq := Std.TransCmp.eq_trans back (same (by simp))
  rw [together]
  rfl

/-- Sorting keeps the order of records that are not told apart. -/
theorem tied_stable (r : Record) (records : List Record) :
    tied order r (stable order records) = tied order r records := by
  -- The records tied with `r` are in order as they stand, so sorting keeps them as a sublist.
  have inside : (tied order r records).Sublist (stable order records) :=
    List.sublist_mergeSort (fun _ _ _ => Std.TransCmp.isLE_trans) isLE_or_isLE
      (isOrdered_tied r records) List.filter_sublist
  have kept : (tied order r records).Sublist (tied order r (stable order records)) := by
    have filtered := inside.filter fun s => order r s = .eq
    rwa [List.filter_eq_self.mpr fun s member => by simpa using (mem_tied.mp member).2] at filtered
  have counted := ((Key.stable_perm order records).filter fun s => order r s = .eq).length_eq
  exact (kept.eq_of_length counted.symm).symm

/-- The head of an ordered list comes before whatever else is in it. -/
theorem IsOrdered.head_isLE {a b : Record} {rest : List Record}
    (ordered : IsOrdered order (a :: rest)) (member : b ∈ a :: rest) : (order a b).isLE := by
  rcases List.mem_cons.mp member with rfl | inRest
  · have self : order b b = .eq := Std.ReflCmp.compare_self
    rw [self]
    rfl
  · exact List.rel_of_pairwise_cons ordered inRest

/-- Ordered records are determined by the lists of those that are not told apart. -/
theorem eq_of_tied {xs ys : List Record} (xsOrdered : IsOrdered order xs)
    (ysOrdered : IsOrdered order ys) (same : ∀ r, tied order r xs = tied order r ys) :
    xs = ys := by
  have mem_of_mem {xs ys : List Record} (same : ∀ r, tied order r xs = tied order r ys)
      {r : Record} (member : r ∈ xs) : r ∈ ys := by
    have self : r ∈ tied order r xs := mem_tied.mpr ⟨member, Std.ReflCmp.compare_self⟩
    rw [same] at self
    exact (mem_tied.mp self).1
  induction xs generalizing ys with
  | nil =>
      cases ys with
      | nil => rfl
      | cons b ys => exact absurd (mem_of_mem (fun r => (same r).symm) List.mem_cons_self) (by simp)
  | cons a xs ih =>
      cases ys with
      | nil => exact absurd (mem_of_mem same List.mem_cons_self) (by simp)
      | cons b ys =>
          have below := xsOrdered.head_isLE
            (mem_of_mem (fun r => (same r).symm) (List.mem_cons_self (a := b) (l := ys)))
          have above := ysOrdered.head_isLE
            (mem_of_mem same (List.mem_cons_self (a := a) (l := xs)))
          have equal : order a b = .eq := Std.OrientedCmp.isLE_antisymm below above
          -- the heads are not told apart, so both begin the records tied with the first of them
          have heads := same a
          rw [tied_cons, tied_cons, if_pos Std.ReflCmp.compare_self, if_pos equal] at heads
          obtain rfl : a = b := (List.cons.inj heads).1
          refine congrArg (a :: ·) (ih xsOrdered.of_cons ysOrdered.of_cons fun r => ?_)
          have tails := same r
          rw [tied_cons, tied_cons] at tails
          split at tails
          · exact (List.cons.inj tails).2
          · exact tails

/-- The stable sort is the only ordered list that keeps the order of records not told apart. -/
theorem eq_stable_of_tied {sorted records : List Record} (ordered : IsOrdered order sorted)
    (kept : ∀ r, tied order r sorted = tied order r records) : sorted = stable order records :=
  eq_of_tied ordered (isOrdered_stable records) fun r => (kept r).trans (tied_stable r records).symm

/-- The stable sort inserts record after record, the last one first. -/
theorem stable_eq_insertionSort (records : List Record) :
    stable order records = records.insertionSort fun a b => (order a b).isLE := by
  have trans (a b c : Record) : (order a b).isLE = true → (order b c).isLE = true →
      (order a c).isLE = true := Std.TransCmp.isLE_trans
  induction records with
  | nil => exact List.mergeSort_nil
  | cons r records ih =>
      obtain ⟨before, behind, sorted, others, greater⟩ :=
        List.mergeSort_cons trans isLE_or_isLE r records
      have ordered : IsOrdered order (before ++ r :: behind) :=
        sorted ▸ isOrdered_stable (r :: records)
      obtain ⟨least, -⟩ := List.pairwise_cons.mp (List.pairwise_append.mp ordered).2.1
      have here : behind.orderedInsert (fun a b => (order a b).isLE) r = r :: behind := by
        cases behind with
        | nil => rfl
        | cons s rest => exact List.orderedInsert_cons_of_le _ _ (least s List.mem_cons_self)
      rw [List.insertionSort_cons, ← ih, stable, stable, sorted, others,
        insert_append behind (by simpa using greater), here]

/-! ## Merging lists -/

/-- Merges lists; of equal heads the one of the first list is taken. -/
def mergeLists (order : Order) : List (List Record) → List Record
  | [] => []
  | list :: lists => list.merge (mergeLists order lists) fun a b => (order a b).isLE

omit [Std.TransCmp order] in
theorem length_mergeLists (lists : List (List Record)) :
    (mergeLists order lists).length = (lists.map List.length).sum := by
  induction lists with
  | nil => rfl
  | cons list lists ih => rw [mergeLists, List.length_merge, ih, List.map_cons, List.sum_cons]

theorem isOrdered_mergeLists {lists : List (List Record)}
    (ordered : ∀ list ∈ lists, IsOrdered order list) :
    IsOrdered order (mergeLists order lists) := by
  induction lists with
  | nil => exact List.Pairwise.nil
  | cons list lists ih =>
      have rest := ih fun list member => ordered list (List.mem_cons_of_mem _ member)
      exact List.pairwise_merge (fun _ _ _ => Std.TransCmp.isLE_trans) isLE_or_isLE _ _
        (ordered list List.mem_cons_self) rest

/-- Behind a record that is greater than another, nothing is tied with that other. -/
theorem IsOrdered.tied_eq_nil {r x : Record} {xs : List Record}
    (ordered : IsOrdered order (x :: xs))
    (greater : order r x = .lt) : tied order r (x :: xs) = [] := by
  refine List.filter_eq_nil_iff.mpr fun s member => ?_
  have behind : order r s = .lt := Std.TransCmp.lt_of_lt_of_isLE greater (ordered.head_isLE member)
  simp [behind]

theorem tied_merge (r : Record) {xs : List Record} (ordered : IsOrdered order xs)
    (ys : List Record) :
    tied order r (xs.merge ys fun a b => (order a b).isLE) =
      tied order r xs ++ tied order r ys := by
  induction xs generalizing ys with
  | nil => rw [List.nil_merge]; rfl
  | cons x xs ihFirst =>
      induction ys with
      | nil => rw [List.merge_right, tied, tied, List.filter_nil, List.append_nil]
      | cons y ys ihSecond =>
          rw [List.cons_merge_cons]
          split
          · rw [tied_cons, tied_cons, ihFirst ordered.of_cons]
            split <;> rfl
          · rename_i later
            -- The second head comes first, so it must not overtake a record that is tied with it.
            have less : order y x = .lt := Std.OrientedCmp.lt_of_not_isLE later
            rw [tied_cons r y, tied_cons r y, ihSecond]
            split
            · rename_i equal
              have greater : order r x = .lt := Std.TransCmp.lt_of_eq_of_lt equal less
              rw [ordered.tied_eq_nil greater]
              rfl
            · rfl

theorem tied_mergeLists (r : Record) {lists : List (List Record)}
    (ordered : ∀ list ∈ lists, IsOrdered order list) :
    tied order r (mergeLists order lists) = lists.flatMap (tied order r) := by
  induction lists with
  | nil => rfl
  | cons list lists ih =>
      rw [mergeLists, tied_merge r (ordered list List.mem_cons_self),
        ih fun list member => ordered list (List.mem_cons_of_mem _ member)]
      rfl

/-- Sorting pieces and merging them sorts the whole. -/
theorem mergeLists_map_stable (pieces : List (List Record)) :
    mergeLists order (pieces.map (stable order)) = stable order pieces.flatten := by
  have ordered (list : List Record) (member : list ∈ pieces.map (stable order)) :
      IsOrdered order list := by
    obtain ⟨piece, -, rfl⟩ := List.mem_map.mp member
    exact isOrdered_stable piece
  refine eq_stable_of_tied (isOrdered_mergeLists ordered) fun r => ?_
  rw [tied_mergeLists r ordered, List.flatMap_map]
  simp only [tied_stable]
  rw [tied, List.filter_flatten, List.flatMap_def]
  rfl

end Sorting

end Reconcile
