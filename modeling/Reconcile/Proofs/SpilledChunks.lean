import Mathlib.Data.List.Infix
import Mathlib.Data.List.Nodup
import Reconcile.Proofs.DigitText
import Reconcile.Spilling

/-!
# Chunks cut by a budget

Records are cut wherever what has come since the last cut exceeds a budget.  What is cut off that
way, with the rest behind it, is what a sort writes into its files.
-/

namespace Reconcile

namespace Serializer

variable {serializer : Serializer}

/-- How many octets records count together. -/
def sizeOf (serializer : Serializer) : List Record → Nat
  | [] => 0
  | r :: rest => serializer.size r + serializer.sizeOf rest

@[simp] theorem sizeOf_nil : serializer.sizeOf [] = 0 := rfl

@[simp] theorem sizeOf_singleton (r : Record) : serializer.sizeOf [r] = serializer.size r := rfl

@[simp] theorem sizeOf_append (front back : List Record) :
    serializer.sizeOf (front ++ back) = serializer.sizeOf front + serializer.sizeOf back := by
  induction front with
  | nil => rw [List.nil_append, sizeOf_nil, Nat.zero_add]
  | cons r front ih => rw [List.cons_append, sizeOf, ih, sizeOf, Nat.add_assoc]

@[simp] theorem sizeOf_reverse (records : List Record) :
    serializer.sizeOf records.reverse = serializer.sizeOf records := by
  induction records with
  | nil => rfl
  | cons r rest ih =>
      rw [List.reverse_cons, sizeOf_append, ih, sizeOf_singleton, sizeOf, Nat.add_comm]

theorem sizeOf_dropLast_le (records : List Record) :
    serializer.sizeOf records.dropLast ≤ serializer.sizeOf records := by
  rcases List.eq_nil_or_concat records with rfl | ⟨front, last, rfl⟩
  · exact Nat.le_refl 0
  · rw [List.concat_eq_append, List.dropLast_concat, sizeOf_append]
    exact Nat.le_add_right _ _

end Serializer

namespace Sorting

variable {serializer : Serializer} {order : Order} {budget : Nat} {root : SpillRoot}
  {records left : List Record} {chunks : List (List Record)}

/-! ## Cutting by a budget -/

/-- Records are cut into chunks, each of which exceeds the budget only with its last record, and a
rest that does not exceed it. -/
structure IsCut (serializer : Serializer) (budget : Nat) (records : List Record)
    (chunks : List (List Record)) (left : List Record) : Prop where
  whole : chunks.flatten ++ left = records
  above : ∀ chunk ∈ chunks, budget < serializer.sizeOf chunk
  within : ∀ chunk ∈ chunks, serializer.sizeOf chunk.dropLast ≤ budget
  rest : serializer.sizeOf left ≤ budget

theorem isCut_nil : IsCut serializer budget [] [] [] where
  whole := rfl
  above := List.forall_mem_nil _
  within := List.forall_mem_nil _
  rest := Nat.zero_le _

namespace IsCut

theorem keep (cut : IsCut serializer budget records chunks left) {r : Record}
    (fits : serializer.sizeOf (left ++ [r]) ≤ budget) :
    IsCut serializer budget (records ++ [r]) chunks (left ++ [r]) where
  whole := by rw [← List.append_assoc, cut.whole]
  above := cut.above
  within := cut.within
  rest := fits

theorem close (cut : IsCut serializer budget records chunks left) {r : Record}
    (exceeds : budget < serializer.sizeOf (left ++ [r])) :
    IsCut serializer budget (records ++ [r]) (chunks ++ [left ++ [r]]) [] where
  whole := by simp [← cut.whole]
  above := List.forall_mem_append.mpr ⟨cut.above, List.forall_mem_singleton.mpr exceeds⟩
  within := by
    refine List.forall_mem_append.mpr ⟨cut.within, List.forall_mem_singleton.mpr ?_⟩
    rw [List.dropLast_concat]
    exact cut.rest
  rest := Nat.zero_le _

/-- However it goes on, the chunks that are cut so far stay. -/
theorem extend (cut : IsCut serializer budget records chunks left) (more : List Record) :
    ∃ later left', IsCut serializer budget (records ++ more) (chunks ++ later) left' := by
  induction more generalizing records chunks left with
  | nil => exact ⟨[], left, by simpa using cut⟩
  | cons r more ih =>
      rw [List.append_cons records r more]
      by_cases fits : serializer.sizeOf (left ++ [r]) ≤ budget
      · exact ih (cut.keep fits)
      · obtain ⟨later, left', whole⟩ := ih (cut.close (Nat.lt_of_not_le fits))
        exact ⟨(left ++ [r]) :: later, left', by rwa [List.append_cons chunks]⟩

/-- Nothing is cut off exactly if all records fit. -/
theorem eq_nil_iff (cut : IsCut serializer budget records chunks left) :
    chunks = [] ↔ serializer.sizeOf records ≤ budget := by
  constructor
  · rintro rfl
    rw [← cut.whole]
    exact cut.rest
  · intro fits
    cases chunks with
    | nil => rfl
    | cons chunk later =>
        have exceeds := cut.above chunk List.mem_cons_self
        rw [← cut.whole, List.flatten_cons, List.append_assoc, Serializer.sizeOf_append] at fits
        omega

/-- The first chunk cannot end earlier than it does. -/
theorem eq_nil_of_head_append {chunk more : List Record}
    (cut : IsCut serializer budget records (chunk :: chunks) left)
    (within : serializer.sizeOf (chunk ++ more).dropLast ≤ budget) : more = [] := by
  by_contra some_
  rw [List.dropLast_append_of_ne_nil some_, Serializer.sizeOf_append] at within
  exact absurd (cut.above chunk List.mem_cons_self) (Nat.not_lt_of_le (by omega))

theorem tail {chunk : List Record} (cut : IsCut serializer budget records (chunk :: chunks) left) :
    IsCut serializer budget (chunks.flatten ++ left) chunks left where
  whole := rfl
  above := (List.forall_mem_cons.mp cut.above).2
  within := (List.forall_mem_cons.mp cut.within).2
  rest := cut.rest

/-- There is one way only in which the budget cuts records. -/
theorem unique {chunks' : List (List Record)} {left' : List Record}
    (cut : IsCut serializer budget records chunks left)
    (cut' : IsCut serializer budget records chunks' left') : chunks = chunks' ∧ left = left' := by
  induction chunks generalizing records chunks' with
  | nil =>
      have none_ : chunks' = [] := cut'.eq_nil_iff.mpr (cut.eq_nil_iff.mp rfl)
      subst none_
      exact ⟨rfl, cut.whole.trans cut'.whole.symm⟩
  | cons chunk chunks ih =>
      cases chunks' with
      | nil => exact absurd (cut.eq_nil_iff.mpr (cut'.eq_nil_iff.mp rfl)) (List.cons_ne_nil _ _)
      | cons chunk' chunks' =>
          have same : chunk ++ (chunks.flatten ++ left) = chunk' ++ (chunks'.flatten ++ left') := by
            rw [← List.append_assoc, ← List.append_assoc, ← List.flatten_cons, ← List.flatten_cons,
              cut.whole, cut'.whole]
          have first : chunk = chunk' := by
            rcases List.append_eq_append_iff.mp same with ⟨more, longer, -⟩ | ⟨more, longer, -⟩
            · have within := longer ▸ cut'.within chunk' List.mem_cons_self
              rw [longer, cut.eq_nil_of_head_append within, List.append_nil]
            · have within := longer ▸ cut.within chunk List.mem_cons_self
              rw [longer, cut'.eq_nil_of_head_append within, List.append_nil]
          subst first
          obtain ⟨rfl, rfl⟩ := ih cut.tail (List.append_cancel_left same ▸ cut'.tail)
          exact ⟨rfl, rfl⟩

end IsCut

/-! ## What is spilled -/

/-- The chunks that are spilled: the rest is one of them, unless it is empty or all there is. -/
def spilled (chunks : List (List Record)) (left : List Record) : List (List Record) :=
  if chunks.isEmpty || left.isEmpty then chunks else chunks ++ [left]

theorem spilled_of_left_nil (chunks : List (List Record)) : spilled chunks [] = chunks := by
  simp [spilled]

theorem spilled_of_ne_nil (some_ : chunks ≠ []) (more : left ≠ []) :
    spilled chunks left = chunks ++ [left] := by
  simp [spilled, some_, more]

theorem spilled_eq_nil_iff : spilled chunks left = [] ↔ chunks = [] := by
  unfold spilled
  split
  · exact Iff.rfl
  · rename_i both
    simp_all

theorem prefix_spilled (chunks : List (List Record)) (left : List Record) :
    chunks <+: spilled chunks left := by
  unfold spilled
  split
  · exact List.prefix_rfl
  · exact List.prefix_append chunks [left]

/-- The parts in which records are spilled under a budget: none if they fit, and otherwise all of
the records, every part but the last above the budget and only so by its last record. -/
structure IsSpilling (serializer : Serializer) (budget : Nat) (records : List Record)
    (parts : List (List Record)) : Prop where
  none_iff : parts = [] ↔ serializer.sizeOf records ≤ budget
  whole : parts ≠ [] → parts.flatten = records
  nonempty : [] ∉ parts
  above : ∀ part ∈ parts.dropLast, budget < serializer.sizeOf part
  within : ∀ part ∈ parts, serializer.sizeOf part.dropLast ≤ budget

theorem IsCut.isSpilling (cut : IsCut serializer budget records chunks left) :
    IsSpilling serializer budget records (spilled chunks left) := by
  have nonempty : [] ∉ chunks := fun member =>
    absurd (cut.above [] member) (Nat.not_lt_zero _)
  by_cases some_ : chunks = []
  · subst some_
    exact ⟨iff_of_true rfl (cut.eq_nil_iff.mp rfl), fun impossible => absurd rfl impossible,
      nonempty, cut.above, cut.within⟩
  by_cases more : left = []
  · subst more
    rw [spilled_of_left_nil]
    refine ⟨cut.eq_nil_iff, fun _ => ?_, nonempty, fun part member => ?_, cut.within⟩
    · rw [← cut.whole, List.append_nil]
    · exact cut.above part (List.mem_of_mem_dropLast member)
  · rw [spilled_of_ne_nil some_ more]
    refine ⟨?_, fun _ => ?_, ?_, ?_, ?_⟩
    · rw [← cut.eq_nil_iff]
      exact iff_of_false (by simp) some_
    · rw [List.flatten_append, List.flatten_singleton, cut.whole]
    · intro member
      rcases List.mem_append.mp member with early | late
      · exact nonempty early
      · exact more (List.mem_singleton.mp late).symm
    · rw [List.dropLast_concat]
      exact cut.above
    · refine List.forall_mem_append.mpr ⟨cut.within, List.forall_mem_singleton.mpr ?_⟩
      exact Nat.le_trans (Serializer.sizeOf_dropLast_le left) cut.rest

/-! ## Files -/

/-- The files of chunks. -/
def filesOf (order : Order) (chunks : List (List Record)) : List RunFile :=
  chunks.zipIdx.map fun (chunk, number) => ⟨runName number, stable order chunk⟩

theorem length_filesOf (order : Order) (chunks : List (List Record)) :
    (filesOf order chunks).length = chunks.length := by
  rw [filesOf, List.length_map, List.length_zipIdx]

theorem filesOf_concat (order : Order) (chunks : List (List Record)) (chunk : List Record) :
    filesOf order (chunks ++ [chunk]) =
      filesOf order chunks ++ [⟨runName chunks.length, stable order chunk⟩] := by
  simp [filesOf, List.zipIdx_append]

theorem filesOf_eq_nil_iff : filesOf order chunks = [] ↔ chunks = [] := by
  rw [← List.length_eq_zero_iff, length_filesOf, List.length_eq_zero_iff]

theorem isPrefix_filesOf {chunks more : List (List Record)} (front : chunks <+: more)
    (order : Order) : filesOf order chunks <+: filesOf order more := by
  obtain ⟨later, rfl⟩ := front
  simp [filesOf, List.zipIdx_append]

theorem map_records_filesOf (order : Order) (chunks : List (List Record)) :
    (filesOf order chunks).map RunFile.records = chunks.map (stable order) := by
  conv => rhs; rw [← List.zipIdx_map_fst 0 chunks, List.map_map]
  rw [filesOf, List.map_map]
  rfl

theorem runName_injective {number other : Nat} (same : runName number = runName other) :
    number = other := by
  have digits : Text.padded 5 number = Text.padded 5 other := by
    simpa [runName] using congrArg String.toList same
  have values := congrArg (Text.natOfDigits? 10 0) digits
  rw [Text.natOfDigits?_padded, Text.natOfDigits?_padded] at values
  exact Option.some.inj values

/-- No two files have the same name. -/
theorem nodup_filesOf (order : Order) (chunks : List (List Record)) :
    ((filesOf order chunks).map RunFile.name).Nodup := by
  have names : (filesOf order chunks).map RunFile.name =
      (List.range chunks.length).map runName := by
    rw [List.range_eq_range', ← List.zipIdx_map_snd 0 chunks, List.map_map, filesOf, List.map_map]
    rfl
  rw [names]
  exact List.nodup_range.map fun _ _ => runName_injective

end Sorting

end Reconcile
