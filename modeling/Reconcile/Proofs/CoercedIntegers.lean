import Reconcile.Proofs.DigitText
import Reconcile.Proofs.GeneratedRecords
import Reconcile.Proofs.WholeDoubles

/-!
# Coerced integers

An integer can be kept by a value of another type: a wider or narrower number, the decimal text, the
seconds of a time.  Coercion gives a value that keeps the integer or refuses it, for every type but
one: into a double field the nearest double is put, whether or not it is the integer.
-/

namespace Reconcile

/-! ## Values that stand for integers -/

theorem Text.integer_injective {m n : Int} (same : Text.integer m = Text.integer n) : m = n := by
  have size_eq {k l : Nat} (digits : Text.decimal k = Text.decimal l) : k = l := by
    apply Option.some.inj
    rw [← Text.natOfDigits?_decimal k, digits, Text.natOfDigits?_decimal]
  have no_sign {k l : Nat} (digits : '-' :: Text.decimal k = Text.decimal l) : False := by
    have digit : '-' ∈ Text.decimal l := digits ▸ List.mem_cons_self
    exact absurd (Text.isDigit_of_mem_decimal digit) (by decide)
  unfold Text.integer at same
  split at same <;> split at same
  · have sizes := size_eq (List.cons.inj same).2
    omega
  · exact (no_sign same).elim
  · exact (no_sign same.symm).elim
  · have sizes := size_eq same
    omega

namespace Value

/-- Whether a value stands for an integer: it is the integer, its decimal text, or the time so many
seconds from the beginning of 1970. -/
def Holds : Value → Int → Prop
  | int k, n => k.toInt = n
  | bigInt k, n => k.toInt = n
  | double x, n => x.Holds n
  | text s, n => s.toList = Text.integer n
  | dateTime t, n => t.seconds = n ∧ t.nanos = 0
  | null, _ | bool _, _ | bytes _, _ | uuid _, _ => False

theorem Holds.unique {value : Value} {m n : Int} (first : value.Holds m) (second : value.Holds n) :
    m = n := by
  cases value with
  | int k => exact first.symm.trans second
  | bigInt k => exact first.symm.trans second
  | double x => exact Binary64.Holds.unique first second
  | text s => exact Text.integer_injective (first.symm.trans second)
  | dateTime t => exact first.1.symm.trans second.1
  | null => exact first.elim
  | bool b => exact first.elim
  | bytes b => exact first.elim
  | uuid u => exact first.elim

/-- An integer value is of one of the two widths. -/
theorem integer?_eq_some_iff {value : Value} {n : Int} :
    value.integer? = some n ↔
      (∃ k : Int32, value = .int k ∧ k.toInt = n) ∨ ∃ k : Int64, value = .bigInt k ∧ k.toInt = n := by
  cases value <;> simp [integer?]

/-- Of one width there is one value for an integer. -/
theorem eq_of_integer? {a b : Value} {n : Int} (alike : a.fieldType? = b.fieldType?)
    (first : a.integer? = some n) (second : b.integer? = some n) : a = b := by
  rcases integer?_eq_some_iff.mp first with ⟨k, rfl, number⟩ | ⟨k, rfl, number⟩ <;>
    rcases integer?_eq_some_iff.mp second with ⟨l, rfl, other⟩ | ⟨l, rfl, other⟩
  · rw [Int32.toInt_inj.mp (number.trans other.symm)]
  · cases alike
  · cases alike
  · rw [Int64.toInt_inj.mp (number.trans other.symm)]

end Value

/-- Whether a type has a value that stands for an integer. -/
def FieldType.CanHold (type : FieldType) (n : Int) : Prop :=
  ∃ value : Value, value.fieldType? = some type ∧ value.Holds n

namespace FieldType

theorem canHold_double_iff {n : Int} : double.CanHold n ↔ ∃ x : Binary64, x.Holds n := by
  constructor
  · rintro ⟨value, typed, holds⟩
    cases value with
    | double x => exact ⟨x, holds⟩
    | _ => cases typed
  · rintro ⟨x, holds⟩
    exact ⟨.double x, rfl, holds⟩

/-- All integers of 32 bits are doubles. -/
theorem canHold_double_toInt (k : Int32) : double.CanHold k.toInt := by
  have least := Int32.le_toInt k
  have most := Int32.toInt_lt k
  rw [canHold_double_iff, Binary64.exists_holds_iff (by omega)]
  exact ⟨k.toInt.natAbs, 0, by omega, (Nat.mul_one _).symm⟩

end FieldType

/-! ## Coercion of integers -/

namespace Value

variable {a result : Value} {n : Int} {type : FieldType}

/-- In a double field every integer is the nearest double. -/
theorem toType?_double (number : a.integer? = some n) :
    a.toType? .double = some (.double (Binary64.ofInt n)) := by
  rcases integer?_eq_some_iff.mp number with ⟨k, rfl, rfl⟩ | ⟨k, rfl, rfl⟩ <;> rfl

/-- In any other field it is kept, where it is not refused. -/
theorem holds_of_toType? (number : a.integer? = some n) (exact_ : type ≠ .double)
    (made : a.toType? type = some result) : result.Holds n := by
  rcases integer?_eq_some_iff.mp number with ⟨k, rfl, rfl⟩ | ⟨k, rfl, rfl⟩
  · cases type with
    | int =>
        cases made
        rfl
    | bigInt =>
        cases made
        have least := Int32.le_toInt k
        have most := Int32.toInt_lt k
        exact Int64.toInt_ofInt_of_le (by omega) (by omega)
    | double => exact absurd rfl exact_
    | text =>
        cases made
        exact String.toList_ofList
    | _ => cases made
  · cases type with
    | int =>
        obtain ⟨range, made⟩ := Option.ite_none_right_eq_some.mp made
        cases made
        exact Int32.toInt_ofInt_of_le range.1 range.2
    | bigInt =>
        cases made
        rfl
    | double => exact absurd rfl exact_
    | text =>
        cases made
        exact String.toList_ofList
    | dateTime =>
        obtain ⟨t, parts, rfl⟩ := Option.map_eq_some_iff.mp made
        obtain ⟨valid, parts⟩ := Option.dite_none_right_eq_some.mp parts
        cases parts
        exact ⟨rfl, rfl⟩
    | _ => cases made

end Value

namespace Generation

variable {field : Field} {a b result : Value} {m n : Int}

/-- What an integer is made into stands for the integer exactly if anything of the type does. -/
theorem holds_of_coerced_iff (number : a.integer? = some n)
    (made : coerced field a = .ok result) : result.Holds n ↔ field.type.CanHold n := by
  constructor
  · intro holds
    rcases fits_of_coerced made with rfl | typed
    · exact holds.elim
    · exact ⟨result, typed, holds⟩
  · intro can
    rw [coerced_eq_ok_iff] at made
    by_cases inexact : field.type = .double
    · rw [inexact] at made can
      rw [Value.toType?_double number] at made
      cases made
      obtain ⟨x, holds⟩ := FieldType.canHold_double_iff.mp can
      exact holds.ofInt
    · exact Value.holds_of_toType? number inexact made

/-- An integer that no value of the type stands for is refused, save by a double field. -/
theorem coerced_eq_error_of_not_canHold (number : a.integer? = some n)
    (foreign : ¬ field.type.CanHold n) :
    coerced field a = .error (.coercion field.name a.display field.type) ↔
      field.type ≠ .double := by
  rw [coerced_eq_error_iff]
  constructor
  · rintro ⟨refused, -⟩ inexact
    rw [inexact, Value.toType?_double number] at refused
    cases refused
  · intro exact_
    refine ⟨Option.eq_none_iff_forall_ne_some.mpr ?_, rfl⟩
    intro result made
    exact foreign ((holds_of_coerced_iff number (coerced_eq_ok_iff.mpr made)).mp
      (Value.holds_of_toType? number exact_ made))

/-- Integers of one width that are made into one value are the same, if each could be kept. -/
theorem eq_of_coerced (alike : a.fieldType? = b.fieldType?) (first : a.integer? = some m)
    (second : b.integer? = some n) (one : coerced field a = .ok result)
    (other : coerced field b = .ok result) (can : field.type.CanHold m ∧ field.type.CanHold n) :
    a = b := by
  have holds := (holds_of_coerced_iff first one).mpr can.1
  have same := holds.unique ((holds_of_coerced_iff second other).mpr can.2)
  exact Value.eq_of_integer? alike first (same ▸ second)

/-- An integer put into a field is kept exactly if the field's type can keep it.  One that the type
cannot keep is refused with an error that tells the field, the integer and the type, save by a
double field; and only there do two integers of one width become the same value, wide ones of which
one is no double. -/
theorem coerced_integer_exact (alike : a.fieldType? = b.fieldType?) (first : a.integer? = some m)
    (second : b.integer? = some n) :
    (∀ result, coerced field a = .ok result → (result.Holds m ↔ field.type.CanHold m)) ∧
      (¬ field.type.CanHold m →
        (coerced field a = .error (.coercion field.name a.display field.type) ↔
          field.type ≠ .double)) ∧
      ∀ result, coerced field a = .ok result → coerced field b = .ok result → a ≠ b →
        field.type = .double ∧ a.fieldType? = some .bigInt ∧
          ¬ (field.type.CanHold m ∧ field.type.CanHold n) := by
  refine ⟨fun result => holds_of_coerced_iff first, coerced_eq_error_of_not_canHold first, ?_⟩
  intro result one other different
  have lost : ¬ (field.type.CanHold m ∧ field.type.CanHold n) := fun can =>
    different (eq_of_coerced alike first second one other can)
  have inexact : field.type = .double := by
    refine Decidable.byContradiction fun exact_ => lost ⟨?_, ?_⟩
    · exact (holds_of_coerced_iff first one).mp
        (Value.holds_of_toType? first exact_ (coerced_eq_ok_iff.mp one))
    · exact (holds_of_coerced_iff second other).mp
        (Value.holds_of_toType? second exact_ (coerced_eq_ok_iff.mp other))
  refine ⟨inexact, ?_, lost⟩
  rcases Value.integer?_eq_some_iff.mp first with ⟨k, rfl, rfl⟩ | ⟨k, rfl, -⟩
  · -- all narrow integers are doubles
    rcases Value.integer?_eq_some_iff.mp second with ⟨l, rfl, rfl⟩ | ⟨l, rfl, -⟩
    · rw [inexact] at lost
      exact absurd ⟨FieldType.canHold_double_toInt k, FieldType.canHold_double_toInt l⟩ lost
    · cases alike
  · rfl

/-- The least integer that is no double becomes the same double as the integer before it, so that
the theorem tells them apart: what they become stands for the one and cannot stand for the other. -/
theorem coerced_integer_exact_even :
    let field : Field := ⟨"f", .double, none, false, none⟩
    let made : Value := .double (Binary64.ofInt 9007199254740992)
    coerced field (.bigInt 9007199254740992) = .ok made ∧
      coerced field (.bigInt 9007199254740993) = .ok made ∧
      made.Holds 9007199254740992 ∧ ¬ field.type.CanHold 9007199254740993 := by
  intro field made
  have even : coerced field (.bigInt 9007199254740992) = .ok made := by decide +kernel
  have odd : coerced field (.bigInt 9007199254740993) = .ok made := by decide +kernel
  have holds : made.Holds 9007199254740992 :=
    ⟨by decide +kernel, by decide +kernel⟩
  have alike : (Value.bigInt 9007199254740992).fieldType? =
      (Value.bigInt 9007199254740993).fieldType? := rfl
  obtain ⟨kept, -, collide⟩ := @coerced_integer_exact field _ _ _ _ alike rfl rfl
  obtain ⟨-, -, lost⟩ := collide made even odd (by decide)
  exact ⟨even, odd, holds, fun can => lost ⟨(kept made even).mp holds, can⟩⟩

/-- Two wide integers become one double, and the one that is no double is not refused. -/
theorem coerced_integers_collide :
    let field : Field := ⟨"f", .double, none, false, none⟩
    (Value.bigInt 9007199254740992 ≠ .bigInt 9007199254740993) ∧
      coerced field (.bigInt 9007199254740992) =
        .ok (.double (Binary64.ofInt 9007199254740992)) ∧
      coerced field (.bigInt 9007199254740993) =
        .ok (.double (Binary64.ofInt 9007199254740992)) ∧
      ¬ field.type.CanHold 9007199254740993 := by
  refine ⟨by decide, by decide +kernel, by decide +kernel, ?_⟩
  intro can
  obtain ⟨x, holds⟩ := FieldType.canHold_double_iff.mp can
  exact absurd holds.ofInt.2 (by decide +kernel)

end Generation

end Reconcile
