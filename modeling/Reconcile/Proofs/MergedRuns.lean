import Reconcile.Proofs.StableOrder

/-!
# Merging runs

One step of merging gives the head of the merge of what can be read from the runs, and leaves the
run it came from with what follows.  Runs without a fault are therefore merged as lists are.
-/

namespace Reconcile

@[simp] theorem Feed.untilFailure_ofRecords (records : List Record) :
    Feed.untilFailure (.ofRecords records) = (records, none) := by
  induction records with
  | nil => rfl
  | cons r rest ih =>
      change Feed.untilFailure (.ok r :: Feed.ofRecords rest) = _
      rw [Feed.untilFailure, ih]

namespace Sorting

variable {order : Order}

namespace Run

/-- What can be read of a run from its head on. -/
def readable (run : Run) : List Record :=
  match run.head with
  | none => []
  | some r => r :: run.rest.untilFailure.1

/-- Nothing stands in the way of reading a run to its end. -/
def IsSound (run : Run) : Prop := run.rest.untilFailure.2 = none

theorem readable_of_none {run : Run} (ended : run.head = none) : run.readable = [] := by
  rw [readable, ended]

theorem readable_of_some {run : Run} {r : Record} (head : run.head = some r) :
    run.readable = r :: run.rest.untilFailure.1 := by
  rw [readable, head]

/-- Reading on leaves what was behind the head. -/
theorem readable_advance {run next : Run} (advanced : run.advance = .ok next) :
    next.readable = run.rest.untilFailure.1 := by
  unfold advance at advanced
  split at advanced
  · rename_i ended
    cases advanced
    rw [ended]
    rfl
  · rename_i r rest more
    cases advanced
    rw [more]
    rfl
  · cases advanced

theorem IsSound.exists_advance {run : Run} (sound : run.IsSound) :
    ∃ next, run.advance = .ok next ∧ next.IsSound := by
  unfold advance
  split
  · exact ⟨_, rfl, rfl⟩
  · rename_i r rest more
    rw [IsSound, more] at sound
    exact ⟨_, rfl, sound⟩
  · rename_i e rest fault
    rw [IsSound, fault] at sound
    cases sound

/-- The run that stands before given records. -/
def ofList : List Record → Run
  | [] => ⟨none, []⟩
  | r :: rest => ⟨some r, .ofRecords rest⟩

@[simp] theorem readable_ofList (records : List Record) : (ofList records).readable = records := by
  cases records with
  | nil => rfl
  | cons r rest => rw [readable_of_some rfl, ofList, Feed.untilFailure_ofRecords]

@[simp] theorem size_ofList (records : List Record) : (ofList records).size = records.length := by
  cases records with
  | nil => rfl
  | cons r rest => simp [ofList, size, Feed.ofRecords, Nat.add_comm]

theorem isSound_ofList (records : List Record) : (ofList records).IsSound := by
  cases records with
  | nil => rfl
  | cons r rest => rw [IsSound, ofList, Feed.untilFailure_ofRecords]

theorem advance_eq_ofList {run : Run} {records : List Record}
    (given : run.rest = .ofRecords records) : run.advance = .ok (ofList records) := by
  unfold advance
  rw [given]
  cases records <;> rfl

end Run

/-! ## One step -/

theorem head_eq_none_of_least {runs : List Run} (none_ : least order runs = none) :
    ∀ run ∈ runs, run.head = none := by
  induction runs with
  | nil => simp
  | cons run runs ih =>
      unfold least at none_
      cases head : run.head with
      | none =>
          cases others : least order runs with
          | none =>
              intro other member
              rcases List.mem_cons.mp member with rfl | inRest
              · exact head
              · exact ih others other inRest
          | some choice => simp [head, others] at none_
      | some first =>
          cases others : least order runs with
          | none => simp [head, others] at none_
          | some choice =>
              simp only [head, others] at none_
              split at none_ <;> cases none_

/-- Without a least head there is nothing to merge. -/
theorem mergeLists_of_least_eq_none {runs : List Run} (none_ : least order runs = none) :
    mergeLists order (runs.map Run.readable) = [] := by
  rw [← List.length_eq_zero_iff, length_mergeLists, List.map_map]
  refine List.sum_eq_zero_iff_forall_eq_nat.mpr fun count member => ?_
  obtain ⟨run, inRuns, rfl⟩ := List.mem_map.mp member
  rw [Function.comp, Run.readable_of_none (head_eq_none_of_least none_ run inRuns)]
  rfl

variable [Std.TransCmp order]

/-- The least head is the first record of the merge, the rest of which is merged from what follows
it in its run and from the other runs. -/
theorem mergeLists_of_least {runs : List Run} {number : Nat} {r : Record}
    (given : least order runs = some (number, r)) :
    ∃ run, runs[number]? = some run ∧ run.head = some r ∧
      mergeLists order (runs.map Run.readable) =
        r :: mergeLists order ((runs.map Run.readable).set number run.rest.untilFailure.1) := by
  -- The least head of the later runs begins their merge, and is compared with that of this one.
  induction runs generalizing number r with
  | nil => cases given
  | cons run runs ih =>
      unfold least at given
      cases head : run.head with
      | none =>
          cases others : least order runs with
          | none => simp [head, others] at given
          | some choice =>
              simp only [head, others] at given
              cases given
              obtain ⟨found, inRuns, foundHead, merged⟩ := ih others
              refine ⟨found, inRuns, foundHead, ?_⟩
              rw [List.map_cons, Run.readable_of_none head, List.set_cons_succ, mergeLists,
                mergeLists, List.nil_merge, List.nil_merge, merged]
      | some first =>
          cases others : least order runs with
          | none =>
              simp only [head, others] at given
              cases given
              refine ⟨run, rfl, head, ?_⟩
              rw [List.map_cons, Run.readable_of_some head, List.set_cons_zero, mergeLists,
                mergeLists, mergeLists_of_least_eq_none others, List.merge_right, List.merge_right]
          | some choice =>
              obtain ⟨found, inRuns, foundHead, merged⟩ := ih others
              simp only [head, others] at given
              split at given
              · rename_i before
                cases given
                refine ⟨found, inRuns, foundHead, ?_⟩
                have later := Std.OrientedCmp.not_isLE_of_lt before
                rw [List.map_cons, Run.readable_of_some head, List.set_cons_succ, mergeLists,
                  mergeLists, merged, List.cons_merge_cons, if_neg later]
              · rename_i notBefore
                cases given
                refine ⟨run, rfl, head, ?_⟩
                have ordered : (order r choice.2).isLE = true :=
                  Decidable.byContradiction fun later =>
                    notBefore (Std.OrientedCmp.lt_of_not_isLE later)
                rw [List.map_cons, Run.readable_of_some head, List.set_cons_zero, mergeLists,
                  mergeLists, merged, List.cons_merge_cons, if_pos ordered]

/-! ## All steps -/

/-- Runs without a fault are merged as the lists that can be read from them. -/
theorem merge_eq {runs : List Run} (sound : ∀ run ∈ runs, run.IsSound) {fuel : Nat}
    (enough : (mergeLists order (runs.map Run.readable)).length < fuel) :
    merge order fuel runs = .ofRecords (mergeLists order (runs.map Run.readable)) := by
  -- Each step takes one record off the merge, so the fuel outlasts it.
  induction fuel generalizing runs with
  | zero => exact absurd enough (Nat.not_lt_zero _)
  | succ fuel ih =>
      unfold merge
      cases given : least order runs with
      | none =>
          rw [mergeLists_of_least_eq_none given]
          rfl
      | some choice =>
          obtain ⟨number, r⟩ := choice
          obtain ⟨run, inRuns, head, merged⟩ := mergeLists_of_least given
          obtain ⟨next, advanced, nextSound⟩ :=
            (sound run (List.mem_of_getElem? inRuns)).exists_advance
          have nextReadable : (runs.set number next).map Run.readable =
              (runs.map Run.readable).set number run.rest.untilFailure.1 := by
            rw [List.map_set, Run.readable_advance advanced]
          have stillSound : ∀ run ∈ runs.set number next, run.IsSound := by
            intro other member
            rcases List.mem_or_eq_of_mem_set member with before | rfl
            · exact sound other before
            · exact nextSound
          rw [merged] at enough ⊢
          rw [← nextReadable] at enough ⊢
          simp only [inRuns, advanced]
          rw [ih stillSound (Nat.lt_of_succ_lt_succ enough)]
          rfl

omit [Std.TransCmp order] in
theorem mapM_advance {runs : List Run} {lists : List (List Record)}
    (given : runs.map Run.rest = lists.map Feed.ofRecords) :
    runs.mapM Run.advance = .ok (lists.map Run.ofList) := by
  induction runs generalizing lists with
  | nil =>
      cases lists with
      | nil => rfl
      | cons list lists => cases given
  | cons run runs ih =>
      cases lists with
      | nil => cases given
      | cons list lists =>
          obtain ⟨first, others⟩ := List.cons.inj given
          rw [List.mapM_cons, Run.advance_eq_ofList first, ih others]
          rfl

omit [Std.TransCmp order] in
theorem foldr_size (lists : List (List Record)) :
    (lists.map Run.ofList).foldr (fun run count => run.size + count) 1 =
      (lists.map List.length).sum + 1 := by
  induction lists with
  | nil => rfl
  | cons list lists ih =>
      rw [List.map_cons, List.foldr_cons, ih, Run.size_ofList, List.map_cons, List.sum_cons]
      omega

/-- Merging the runs that hold lists gives the merge of the lists. -/
theorem mergeRuns_eq {runs : List Run} {lists : List (List Record)}
    (given : runs.map Run.rest = lists.map Feed.ofRecords) :
    mergeRuns order runs = .ok (.ofRecords (mergeLists order lists)) := by
  have same : (lists.map Run.ofList).map Run.readable = lists := by
    rw [List.map_map]
    exact List.map_id'' Run.readable_ofList lists
  have sound : ∀ run ∈ lists.map Run.ofList, run.IsSound := by
    intro run member
    obtain ⟨list, -, rfl⟩ := List.mem_map.mp member
    exact Run.isSound_ofList list
  have enough : (mergeLists order ((lists.map Run.ofList).map Run.readable)).length <
      (lists.map Run.ofList).foldr (fun run count => run.size + count) 1 := by
    rw [same, foldr_size, length_mergeLists]
    exact Nat.lt_succ_self _
  have merged := merge_eq sound enough
  rw [same] at merged
  unfold mergeRuns
  rw [mapM_advance given]
  exact congrArg Except.ok merged

end Sorting

end Reconcile
