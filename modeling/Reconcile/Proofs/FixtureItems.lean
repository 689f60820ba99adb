import Reconcile.Fixture.Reading
import Reconcile.Proofs.DigitText

/-!
# Written lists

Items written between brackets with commas between them are read one after another, up to the
first that fails.
-/

namespace Reconcile

namespace Json

/-! ## Marks -/

theorem skipBlanks_cons {c : Char} (visible : isBlank c = false) (rest : List Char) :
    skipBlanks (c :: rest) = c :: rest := by
  rw [skipBlanks, List.dropWhile_cons_of_neg (by simp [visible])]

theorem closing_cons {bracket : Char} (visible : isBlank bracket = false) (rest : List Char) :
    closing bracket (bracket :: rest) = .ok rest := by
  rw [closing, skipBlanks_cons visible]
  exact if_pos rfl

theorem afterColon_cons (rest : List Char) : afterColon (':' :: rest) = .ok rest := by
  rw [afterColon, skipBlanks_cons (by decide)]
  rfl

theorem nextItem_closing (first : Bool) (rest : List Char) :
    nextItem first (']' :: rest) = .ok none := by
  rw [nextItem, skipBlanks_cons (by decide)]
  rfl

/-- The first item begins at once. -/
theorem nextItem_first {c : Char} (visible : isBlank c = false) (inside : c ≠ ']')
    (rest : List Char) : nextItem true (c :: rest) = .ok (some (c :: rest)) := by
  rw [nextItem, skipBlanks_cons visible]
  split
  · rename_i same
    cases same
  · rename_i same
    exact absurd (List.cons.inj same).1 inside
  · rename_i same
    cases same
    rfl

/-- A further item begins behind a comma. -/
theorem nextItem_comma {c : Char} (visible : isBlank c = false) (inside : c ≠ ']')
    (rest : List Char) : nextItem false (',' :: c :: rest) = .ok (some (c :: rest)) := by
  have comma : isBlank ',' = false := by decide
  simp [nextItem, skipBlanks_cons comma, skipBlanks_cons visible, inside]

theorem isBlank_of_startsNumber {c : Char} (starts : startsNumber c = true) :
    isBlank c = false := by
  rcases Bool.or_eq_true_iff.mp starts with minus | digit
  · rw [eq_of_beq minus]
    rfl
  · exact Text.of_isDigit (p := fun c => isBlank c = false) (by decide) digit

end Json

namespace Fixture

open Json (Fault Reader)

/-! ## Lists -/

/-- The text goes on as behind an item of a list. -/
def EndsItem (rest : List Char) : Prop := ∃ more, rest = ',' :: more ∨ rest = ']' :: more

/-- An item does not begin like the end of a list. -/
def StartsItem (text : List Char) : Prop :=
  ∃ c rest, text = c :: rest ∧ Json.isBlank c = false ∧ c ≠ ']'

variable {α : Type} {item : Reader α} {write : α → List Char} {outcome : α → Except Fault α}

/-- An item is read, and then the others. -/
theorem readItems_step {fuel : Nat} {first : Bool} {text after rest : List Char} {x : α}
    {items : List α} (next : Json.nextItem first text = .ok (some (write x ++ after)))
    (read : item (write x ++ after) = (outcome x).map fun x => (x, after))
    (later : readItems item fuel false after =
      (items.mapM outcome).map fun items => (items, rest)) :
    readItems item (fuel + 1) first text =
      ((x :: items).mapM outcome).map fun items => (items, rest) := by
  rw [readItems, next, List.mapM_cons]
  simp only [bind, Except.bind, read]
  cases outcome x with
  | error fault => rfl
  | ok x =>
      simp only [Except.map, later]
      cases items.mapM outcome with
      | error fault => rfl
      | ok items => rfl

theorem readItems_closing (fuel : Nat) (first : Bool) (rest : List Char) :
    readItems item (fuel + 1) first (']' :: rest) = .ok ([], rest) := by
  rw [readItems, Json.nextItem_closing]
  simp only [bind, Except.bind, Json.closing_cons (show Json.isBlank ']' = false by decide)]

theorem endsItem_commas (items : List α) (rest : List Char) :
    EndsItem ((items.flatMap fun x => ',' :: write x) ++ ']' :: rest) := by
  cases items with
  | nil => exact ⟨rest, Or.inr rfl⟩
  | cons y items => exact ⟨_, Or.inl rfl⟩

/-- Items behind commas are read one after another, up to the first that fails. -/
theorem readItems_commas {items : List α} (starts : ∀ x ∈ items, StartsItem (write x))
    (reads : ∀ x ∈ items, ∀ rest, EndsItem rest →
      item (write x ++ rest) = (outcome x).map fun x => (x, rest))
    {fuel : Nat} (enough : items.length < fuel) (rest : List Char) :
    readItems item fuel false ((items.flatMap fun x => ',' :: write x) ++ ']' :: rest) =
      (items.mapM outcome).map fun items => (items, rest) := by
  induction items generalizing fuel with
  | nil =>
      cases fuel with
      | zero => cases enough
      | succ fuel => exact readItems_closing fuel false rest
  | cons x items ih =>
      cases fuel with
      | zero => cases enough
      | succ fuel =>
          obtain ⟨c, text, begins, visible, inside⟩ := starts x List.mem_cons_self
          refine readItems_step (x := x) ?_
            (reads x List.mem_cons_self _ (endsItem_commas items rest))
            (ih (fun y member => starts y (List.mem_cons_of_mem x member))
              (fun y member => reads y (List.mem_cons_of_mem x member))
              (Nat.lt_of_succ_lt_succ enough))
          rw [List.flatMap_cons, List.cons_append, List.cons_append, List.append_assoc, begins]
          exact Json.nextItem_comma visible inside _

theorem bracketed_cons (x : α) (items : List α) :
    bracketed ((x :: items).map write) =
      '[' :: (write x ++ (items.flatMap fun x => ',' :: write x) ++ [']']) := by
  have joined : [','].intercalate ((x :: items).map write) =
      write x ++ items.flatMap fun x => ',' :: write x := by
    induction items generalizing x with
    | nil => simp
    | cons y items ih =>
        rw [List.map_cons, List.map_cons, List.intercalate_cons_cons, ← List.map_cons, ih,
          List.flatMap_cons,
          List.append_assoc]
        rfl
  rw [bracketed, joined]
  rfl

theorem length_le_commas (write : α → List Char) (items : List α) :
    items.length ≤ (items.flatMap fun x => ',' :: write x).length := by
  induction items with
  | nil => exact Nat.le_refl 0
  | cons x items ih =>
      rw [List.flatMap_cons, List.length_append, List.length_cons, List.length_cons]
      omega

/-- Items between brackets. -/
theorem readItems_bracketed {items : List α} (starts : ∀ x ∈ items, StartsItem (write x))
    (reads : ∀ x ∈ items, ∀ rest, EndsItem rest →
      item (write x ++ rest) = (outcome x).map fun x => (x, rest)) (rest : List Char) :
    ∃ text, bracketed (items.map write) ++ rest = '[' :: text ∧
      readItems item (text.length + 1) true text =
        (items.mapM outcome).map fun items => (items, rest) := by
  cases items with
  | nil => exact ⟨']' :: rest, rfl, readItems_closing _ true rest⟩
  | cons x items =>
      obtain ⟨c, text, begins, visible, inside⟩ := starts x List.mem_cons_self
      have commas := length_le_commas write items
      refine ⟨write x ++ ((items.flatMap fun x => ',' :: write x) ++ ']' :: rest), ?_, ?_⟩
      · rw [bracketed_cons]
        simp
      · refine readItems_step (x := x) ?_
          (reads x List.mem_cons_self _ (endsItem_commas items rest))
          (readItems_commas (fun y member => starts y (List.mem_cons_of_mem x member))
            (fun y member => reads y (List.mem_cons_of_mem x member)) ?_ rest)
        · rw [begins]
          exact Json.nextItem_first visible inside _
        · simp only [List.length_append, List.length_cons]
          omega

end Fixture

end Reconcile
