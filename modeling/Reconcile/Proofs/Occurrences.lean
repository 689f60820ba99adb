import Mathlib.Data.List.Infix
import Reconcile.Proofs.Placeholders

/-!
# Occurrences

All places at which a mark stands in a text.  A mark whose first character does not occur in it again
never overlaps itself.  What stands in place of the first mark leaves the others as they are and makes
no new one, if it has neither the first nor the last character of the mark and is as long.
-/

namespace Reconcile

namespace Pattern

variable {mark text before behind front back between inner : List Char}

/-! ## Fronts without a mark -/

theorem isPassed_cons_iff {c : Char} :
    IsPassed mark (c :: front) text ↔
      ¬ mark <+: c :: (front ++ text) ∧ IsPassed mark front text := by
  refine ⟨fun passed => ?_, fun ⟨other, passed⟩ => isPassed_cons other passed⟩
  have other : ¬ mark <+: c :: (front ++ text) := by
    intro starts
    rw [IsPassed, List.cons_append, split?, if_pos (by simpa using starts)] at passed
    cases found : split? mark text <;> simp [found] at passed
  refine ⟨other, ?_⟩
  rw [IsPassed, List.cons_append, split?, if_neg (by simpa using other)] at passed
  have injective : Function.Injective
      fun parts : List Char × List Char => (c :: parts.1, parts.2) := by
    intro one two same
    simpa [Prod.ext_iff] using same
  refine Option.map_injective injective ?_
  rw [Option.map_map]
  exact passed

theorem IsPassed.append (first : IsPassed mark front (back ++ text))
    (second : IsPassed mark back text) : IsPassed mark (front ++ back) text := by
  rw [IsPassed, List.append_assoc, first, second, Option.map_map]
  congr 1
  funext parts
  exact congrArg (·, parts.2) (List.append_assoc front back parts.1).symm

/-- In front of the first mark of a text there is none. -/
theorem isPassed_before (marked : mark ≠ []) (found : split? mark text = some (before, behind)) :
    IsPassed mark before (mark ++ behind) := by
  rw [IsPassed, ← List.append_assoc, ← eq_of_split? found, found, split?_append_self _ marked]
  exact congrArg (fun front => some (front, behind)) (List.append_nil before).symm

/-- A mark does not reach into a text that lacks its last character and is as long. -/
theorem not_prefix_across {last : Char} (ends : mark.getLast? = some last)
    (foreign : last ∉ between) (long : mark.length ≤ between.length) (absent : ¬ mark <+: front)
    (behind : List Char) : ¬ mark <+: front ++ (between ++ behind) := by
  intro starts
  rcases List.prefix_or_prefix_of_prefix starts (List.prefix_append front _) with
    within | ⟨rest, rfl⟩
  · exact absent within
  · have across := (List.prefix_append_right_inj front).mp starts
    have within : rest <+: between := by
      refine List.prefix_of_prefix_length_le across (List.prefix_append between behind) ?_
      rw [List.length_append] at long
      exact (Nat.le_add_left _ _).trans long
    have left : rest ≠ [] := by
      rintro rfl
      rw [List.append_nil] at absent
      exact absent List.prefix_rfl
    rw [List.getLast?_append_of_ne_nil _ left] at ends
    exact foreign (within.subset (List.mem_of_getLast? ends))

/-- Such a text in place of a mark makes no new mark with what is in front of it. -/
theorem IsPassed.across {last : Char} (ends : mark.getLast? = some last)
    (foreign : last ∉ between) (long : mark.length ≤ between.length)
    (passed : IsPassed mark front (mark ++ behind)) :
    IsPassed mark front (between ++ behind) := by
  induction front with
  | nil => exact isPassed_nil mark _
  | cons c front ih =>
      obtain ⟨other, passed⟩ := isPassed_cons_iff.mp passed
      refine isPassed_cons (fun starts => ?_) (ih passed)
      have absent : ¬ mark <+: c :: front := fun within =>
        other (within.trans (List.prefix_append (c :: front) _))
      exact not_prefix_across ends foreign long absent behind starts

/-- What is put in place of the first mark of a text is passed over with all that is in front of
it. -/
theorem isPassed_replaced {first last : Char} (opens : mark = first :: inner)
    (ends : mark.getLast? = some last) (foreignFirst : first ∉ between)
    (foreignLast : last ∉ between) (long : mark.length ≤ between.length)
    (found : split? mark text = some (before, behind)) :
    IsPassed mark (before ++ between) behind := by
  subst opens
  have front := isPassed_before (List.cons_ne_nil first inner) found
  exact (front.across ends foreignLast long).append (isPassed_of_not_mem foreignFirst behind)

/-! ## Places -/

/-- The places at which a mark stands: how many characters are in front of it. -/
def places (mark text : List Char) : List Nat := text.tails.findIdxs mark.isPrefixOf

theorem places_cons (mark : List Char) (c : Char) (text : List Char) :
    places mark (c :: text) =
      (if mark.isPrefixOf (c :: text) then [0] else []) ++ (places mark text).map (· + 1) := by
  rw [places, List.tails_cons, List.findIdxs_cons, List.findIdxs_start]
  split <;> rfl

theorem mem_places_iff (marked : mark ≠ []) {place : Nat} :
    place ∈ places mark text ↔ mark <+: text.drop place := by
  rw [places, List.mem_findIdxs_iff_exists_getElem_pos]
  simp only [List.getElem_tails, List.length_tails, List.isPrefixOf_iff_prefix, exists_prop]
  refine ⟨fun found => found.2, fun starts => ⟨?_, starts⟩⟩
  by_contra outside
  rw [List.drop_eq_nil_of_le (by omega)] at starts
  exact marked (List.prefix_nil.mp starts)

theorem places_of_none (marked : mark ≠ []) (found : split? mark text = none) :
    places mark text = [] := by
  rw [split?_eq_none_iff] at found
  refine List.eq_nil_iff_forall_not_mem.mpr fun place member => found ?_
  exact ((mem_places_iff marked).mp member).isInfix.trans (List.drop_suffix place text).isInfix

theorem places_append (passed : IsPassed mark front text) :
    places mark (front ++ text) = (places mark text).map (· + front.length) := by
  induction front with
  | nil => exact (List.map_id' _).symm
  | cons c front ih =>
      obtain ⟨other, passed⟩ := isPassed_cons_iff.mp passed
      rw [← List.isPrefixOf_iff_prefix] at other
      rw [List.cons_append, places_cons, if_neg other, ih passed, List.nil_append, List.map_map]
      rfl

section

variable {first : Char} (opens : mark = first :: inner) (single : first ∉ inner)

include opens single

theorem places_mark (text : List Char) :
    places mark (mark ++ text) = 0 :: (places mark text).map (· + mark.length) := by
  have starts : mark.isPrefixOf (mark ++ text) = true :=
    List.isPrefixOf_iff_prefix.mpr (List.prefix_append mark text)
  subst opens
  rw [List.cons_append] at starts ⊢
  rw [places_cons, if_pos starts, places_append (isPassed_of_not_mem single text), List.map_map]
  rfl

theorem places_of_some (found : split? mark text = some (before, behind)) :
    places mark text =
      before.length :: (places mark behind).map (· + (before.length + mark.length)) := by
  have marked : mark ≠ [] := opens ▸ List.cons_ne_nil first inner
  rw [eq_of_split? found, List.append_assoc, places_append (isPassed_before marked found),
    places_mark opens single, List.map_cons, List.map_map, Nat.zero_add]
  congr 2
  funext place
  rw [Function.comp_apply, Nat.add_assoc, Nat.add_comm mark.length]

/-- The places of a mark are apart by its length at least. -/
theorem apart_places (text : List Char) :
    (places mark text).Pairwise fun place next => place + mark.length ≤ next := by
  have marked : mark ≠ [] := opens ▸ List.cons_ne_nil first inner
  induction length : text.length using Nat.strongRecOn generalizing text with
  | ind length ih =>
      subst length
      cases found : split? mark text with
      | none =>
          rw [places_of_none marked found]
          exact .nil
      | some parts =>
          obtain ⟨before, behind⟩ := parts
          have others := ih _ (split?_shorter marked found) behind rfl
          rw [places_of_some opens single found]
          refine .cons (fun next member => ?_) (List.pairwise_map.mpr (others.imp fun apart => ?_))
          · obtain ⟨place, -, rfl⟩ := List.mem_map.mp member
            exact Nat.le_add_left _ _
          · rw [Nat.add_right_comm]
            exact Nat.add_le_add_right apart _

end

/-- The brace in front opens no placeholder. -/
example : places uuidMark "\x7b\x7buuid\x7d-\x7buuid\x7d".toList = [1, 8] := by decide

end Pattern

end Reconcile
