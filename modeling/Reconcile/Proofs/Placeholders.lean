import Mathlib.Data.List.Infix
import Reconcile.Generation.Pattern
import Reconcile.Proofs.DigitText

/-!
# Placeholders

Where a mark is found in a text, and what filling a pattern does to a text without the marks it looks
for: nothing.  A number that is put into a text brings no mark with it, since marks have no digits.
-/

namespace Reconcile

namespace Pattern

variable {mark text before behind : List Char}

/-! ## Finding a mark -/

/-- A text with a mark consists of what is before the mark, the mark and what is behind it. -/
theorem eq_of_split? (found : split? mark text = some (before, behind)) :
    text = before ++ mark ++ behind := by
  induction text generalizing before with
  | nil =>
      unfold split? at found
      split at found
      · rename_i empty
        cases found
        rw [List.isEmpty_iff.mp empty]
        rfl
      · cases found
  | cons c text ih =>
      unfold split? at found
      split at found
      · rename_i starts
        cases found
        obtain ⟨rest, same⟩ := List.isPrefixOf_iff_prefix.mp starts
        rw [← same, List.drop_left]
        rfl
      · simp only [Option.map_eq_some_iff, Prod.mk.injEq] at found
        obtain ⟨⟨inner, rest⟩, found, rfl, rfl⟩ := found
        rw [ih found]
        rfl

theorem split?_eq_none_iff : split? mark text = none ↔ ¬ mark <:+: text := by
  induction text with
  | nil =>
      unfold split?
      cases mark <;> simp
  | cons c text ih =>
      unfold split?
      rw [List.infix_cons_iff, not_or, ← ih, ← List.isPrefixOf_iff_prefix]
      split <;> simp_all

theorem split?_append_self (text : List Char) (marked : mark ≠ []) :
    split? mark (mark ++ text) = some ([], text) := by
  cases mark with
  | nil => exact absurd rfl marked
  | cons c mark =>
      have starts : (c :: mark).isPrefixOf (c :: (mark ++ text)) = true :=
        List.isPrefixOf_iff_prefix.mpr (List.prefix_append (c :: mark) text)
      rw [List.cons_append, split?, if_pos starts, ← List.cons_append, List.drop_left]

/-- A mark is not found in a text that lacks one of its characters. -/
theorem split?_eq_none_of_not_mem {c : Char} (member : c ∈ mark) (absent : c ∉ text) :
    split? mark text = none :=
  split?_eq_none_iff.mpr fun within => absent (within.subset member)

/-- A text is left at the first mark of one character. -/
theorem split?_singleton {c : Char} (absent : c ∉ before) (behind : List Char) :
    split? [c] (before ++ c :: behind) = some (before, behind) := by
  induction before with
  | nil => simp [split?]
  | cons d before ih =>
      rw [List.mem_cons, not_or] at absent
      rw [List.cons_append, split?, ih absent.2]
      simp [absent.1]

theorem not_mem_of_split?_singleton {c : Char} (found : split? [c] text = some (before, behind)) :
    c ∉ before := by
  induction text generalizing before with
  | nil => cases found
  | cons d text ih =>
      unfold split? at found
      split at found
      · cases found
        exact List.not_mem_nil
      · rename_i other
        simp only [Option.map_eq_some_iff, Prod.mk.injEq] at found
        obtain ⟨⟨inner, rest⟩, found, rfl, rfl⟩ := found
        have apart : c ≠ d := by simpa using other
        exact List.not_mem_cons_of_ne_of_not_mem apart (ih found)

/-- A text that a search for a mark passes over. -/
def IsPassed (mark front text : List Char) : Prop :=
  split? mark (front ++ text) =
    (split? mark text).map fun (before, behind) => (front ++ before, behind)

theorem isPassed_cons {c : Char} {front : List Char} (other : ¬ mark <+: c :: (front ++ text))
    (passed : IsPassed mark front text) : IsPassed mark (c :: front) text := by
  rw [IsPassed, List.cons_append, split?, if_neg (by simpa using other), passed, Option.map_map]
  rfl

theorem isPassed_nil (mark text : List Char) : IsPassed mark [] text := by
  rw [IsPassed, List.nil_append]
  exact Option.map_id'.symm

/-- A mark begins in no text without its first character. -/
theorem isPassed_of_not_mem {first : Char} {front : List Char} (absent : first ∉ front)
    (text : List Char) : IsPassed (first :: mark) front text := by
  induction front with
  | nil => exact isPassed_nil _ text
  | cons c front ih =>
      rw [List.mem_cons, not_or] at absent
      refine isPassed_cons (fun starts => ?_) (ih absent.2)
      exact absent.1 (List.cons_prefix_cons.mp starts).1

/-! ## Texts without a mark -/

/-- A character that a mark has not keeps the mark from standing across it. -/
theorem infix_of_infix_cons {c : Char} (foreign : c ∉ mark)
    (within : mark <:+: before ++ c :: behind) : mark <:+: before ∨ mark <:+: behind := by
  obtain ⟨front, back, same⟩ := within
  rcases List.append_eq_append_iff.mp same with ⟨inner, rfl, -⟩ | ⟨inner, whole, rest⟩
  · exact .inl (List.infix_append front mark inner)
  · cases inner with
    | nil =>
        rw [List.append_nil] at whole
        exact .inl (whole ▸ (List.suffix_append front mark).isInfix)
    | cons other inner =>
        obtain ⟨rfl, rfl⟩ := List.cons.inj rest
        rcases List.append_eq_append_iff.mp whole with ⟨inside, -, rfl⟩ | ⟨inside, -, last⟩
        · simp at foreign
        · cases inside with
          | nil =>
              rw [List.nil_append] at last
              simp [← last] at foreign
          | cons other inside =>
              obtain ⟨-, rfl⟩ := List.cons.inj last
              exact .inr (List.infix_append inside mark back)

/-- So does a text of such characters, unless it is empty. -/
theorem infix_of_infix_between {between : List Char} (some_ : between ≠ [])
    (foreign : ∀ c ∈ between, c ∉ mark) (within : mark <:+: before ++ (between ++ behind)) :
    mark <:+: before ∨ mark <:+: behind := by
  induction between generalizing before with
  | nil => exact absurd rfl some_
  | cons c between ih =>
      obtain ⟨other, foreign⟩ := List.forall_mem_cons.mp foreign
      rcases infix_of_infix_cons other within with early | late
      · exact .inl early
      · cases between with
        | nil => exact .inr late
        | cons d between =>
            have late : mark <:+: [] ++ (d :: between ++ behind) := late
            rcases ih (List.cons_ne_nil d between) foreign late with empty | late
            · exact .inl (empty.trans List.nil_infix)
            · exact .inr late

/-! ## Filling -/

theorem fillIndex_of_none (index : UInt64) (found : split? indexMark text = none) :
    fillIndex index text = text := by
  rw [fillIndex]
  split
  · rfl
  · simp_all

theorem fillIndex_of_some (index : UInt64) (found : split? indexMark text = some (before, behind)) :
    fillIndex index text = before ++ (Text.decimal index.toNat ++ fillIndex index behind) := by
  rw [fillIndex]
  split
  · simp_all
  · rename_i found'
    cases found.symm.trans found'
    rw [List.append_assoc]

theorem fillUuids_of_none (found : split? uuidMark text = none) : fillUuids text = pure text := by
  rw [fillUuids]
  split
  · rfl
  · simp_all

theorem fillDigits_of_none (found : split? digitsMark text = none) :
    fillDigits text = pure text := by
  rw [fillDigits]
  split
  · rfl
  · simp_all

theorem fillUuids_of_some (found : split? uuidMark text = some (before, behind)) :
    fillUuids text = do return before ++ (← Draw.uuid).text ++ (← fillUuids behind) := by
  rw [fillUuids]
  split
  · simp_all
  · rename_i found'
    cases found.symm.trans found'
    rfl

theorem fillDigits_of_open (found : split? digitsMark text = some (before, behind))
    (open_ : split? ['}'] behind = none) : fillDigits text = pure text := by
  rw [fillDigits]
  split
  · rfl
  · rename_i found'
    cases found.symm.trans found'
    split
    · rfl
    · simp_all

/-- What stands for a placeholder of digits in the end. -/
def filling (inside : List Char) : OptionT Draw (List Char) :=
  match digitCount? inside with
  | some n => Draw.digits n
  | none => pure (digitsMark ++ inside ++ ['}'])

theorem fillDigits_of_closed {inside rest : List Char}
    (found : split? digitsMark text = some (before, behind))
    (closed : split? ['}'] behind = some (inside, rest)) :
    fillDigits text = do return before ++ (← filling inside) ++ (← fillDigits rest) := by
  rw [fillDigits]
  split
  · simp_all
  · rename_i found'
    cases found.symm.trans found'
    split
    · simp_all
    · rename_i closed'
      cases closed.symm.trans closed'
      rw [filling]
      cases digitCount? inside <;> rfl

/-- A text in which no placeholder is closed draws no digits. -/
theorem fillDigits_of_not_mem (open_ : '}' ∉ text) : fillDigits text = pure text := by
  cases found : split? digitsMark text with
  | none => exact fillDigits_of_none found
  | some parts =>
      obtain ⟨before, behind⟩ := parts
      rw [eq_of_split? found, List.mem_append, not_or] at open_
      exact fillDigits_of_open found (split?_eq_none_of_not_mem (List.mem_singleton_self _) open_.2)

/-- A mark without digits is nowhere in a text with the index filled in, unless it was there
before. -/
theorem not_infix_fillIndex (index : UInt64) (foreign : mark.any Text.isDigit = false)
    (absent : ¬ mark <:+: text) : ¬ mark <:+: fillIndex index text := by
  fun_induction fillIndex index text with
  | case1 text found => exact absent
  | case2 text before behind found shorter ih =>
      have whole := eq_of_split? found
      have last : behind <:+: text := whole ▸ (List.suffix_append _ behind).isInfix
      rw [List.append_assoc] at whole
      have first : before <:+: text := whole ▸ (List.prefix_append before _).isInfix
      have digits : ∀ c ∈ Text.decimal index.toNat, c ∉ mark := fun c digit member =>
        List.any_eq_false.mp foreign c member (Text.isDigit_of_mem_decimal digit)
      intro within
      rw [List.append_assoc] at within
      rcases infix_of_infix_between (Text.decimal_ne_nil _) digits within with early | late
      · exact absent (early.trans first)
      · exact ih (fun there => absent (there.trans last)) late

/-! ## Texts that are passed over -/

theorem fillIndex_append (index : UInt64) {front : List Char}
    (passed : IsPassed indexMark front text) :
    fillIndex index (front ++ text) = front ++ fillIndex index text := by
  unfold IsPassed at passed
  cases found : split? indexMark text with
  | none =>
      rw [found] at passed
      rw [fillIndex_of_none index found, fillIndex_of_none index passed]
  | some parts =>
      obtain ⟨before, behind⟩ := parts
      rw [found] at passed
      rw [fillIndex_of_some index found, fillIndex_of_some index passed, List.append_assoc]

theorem fillUuids_append {front : List Char} (passed : IsPassed uuidMark front text) :
    fillUuids (front ++ text) = (front ++ ·) <$> fillUuids text := by
  unfold IsPassed at passed
  cases found : split? uuidMark text with
  | none =>
      rw [found] at passed
      rw [fillUuids_of_none found, fillUuids_of_none passed, map_pure]
  | some parts =>
      obtain ⟨before, behind⟩ := parts
      rw [found] at passed
      rw [fillUuids_of_some found, fillUuids_of_some passed]
      simp only [map_bind, map_pure, List.append_assoc]

theorem fillDigits_append {front : List Char} (passed : IsPassed digitsMark front text) :
    fillDigits (front ++ text) = (front ++ ·) <$> fillDigits text := by
  unfold IsPassed at passed
  cases found : split? digitsMark text with
  | none =>
      rw [found] at passed
      rw [fillDigits_of_none found, fillDigits_of_none passed, map_pure]
  | some parts =>
      obtain ⟨before, behind⟩ := parts
      rw [found] at passed
      cases closed : split? ['}'] behind with
      | none => rw [fillDigits_of_open found closed, fillDigits_of_open passed closed, map_pure]
      | some parts =>
          obtain ⟨inside, rest⟩ := parts
          rw [fillDigits_of_closed found closed, fillDigits_of_closed passed closed]
          simp only [map_bind, map_pure, List.append_assoc]

end Pattern

end Reconcile
