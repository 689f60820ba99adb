import Reconcile.Proofs.DigitText
import Reconcile.Uuid

/-!
# Identifiers as text

The grouped form of an identifier reads back as that identifier.
-/

namespace Reconcile

namespace Uuid

/-- The lowest digits of a number, from the most significant down, are what it leaves modulo the
power that comes before them. -/
theorem natOfDigits?_places (number count start : Nat) :
    Text.natOfDigits? 16 start
        ((List.range count).reverse.map fun place => Nat.digitChar (number / 16 ^ place % 16)) =
      some (start * 16 ^ count + number % 16 ^ count) := by
  induction count generalizing start with
  | zero => simp [Text.natOfDigits?, Nat.mod_one]
  | succ count ih =>
      have small : number / 16 ^ count % 16 < 16 := Nat.mod_lt _ (by decide)
      rw [List.range_succ, List.reverse_append, List.reverse_singleton, List.singleton_append,
        List.map_cons, Text.natOfDigits?, Text.hexValue?_digitChar small]
      simp only [if_pos small]
      rw [ih, Nat.mod_pow_succ, Nat.pow_succ, Nat.add_mul, Nat.mul_assoc, Nat.mul_comm 16]
      have swapped := Nat.mul_comm (number / 16 ^ count % 16) (16 ^ count)
      exact congrArg some (by omega)

theorem ofDigits?_digits (u : Uuid) : ofDigits? u.digits = some u := by
  have length : u.digits.length = 32 := rfl
  have value : Text.natOfDigits? 16 0 u.digits = some u.bits.toNat := by
    have places := natOfDigits?_places u.bits.toNat 32 0
    have bounded : u.bits.toNat % 16 ^ 32 = u.bits.toNat := Nat.mod_eq_of_lt u.bits.isLt
    rwa [bounded, Nat.zero_mul, Nat.zero_add] at places
  rw [ofDigits?, if_pos length, value, Option.map_some, BitVec.ofNat_toNat, BitVec.setWidth_eq]

/-- Digits in five groups with hyphens between them read as the digits together. -/
theorem ofGroups?_text (u : Uuid) : ofGroups? u.text = some u := by
  have grouped : u.text.length = 36 ∧ u.text[8]? = some '-' ∧ u.text[13]? = some '-' ∧
      u.text[18]? = some '-' ∧ u.text[23]? = some '-' := ⟨rfl, rfl, rfl, rfl, rfl⟩
  have joined : u.text.take 8 ++ (u.text.drop 9).take 4 ++ (u.text.drop 14).take 4 ++
      (u.text.drop 19).take 4 ++ u.text.drop 24 = u.digits := rfl
  rw [ofGroups?, if_pos grouped, joined]
  exact ofDigits?_digits u

theorem ofText?_text (u : Uuid) : ofText? u.text = some u := by
  have length : u.text.length = 36 := rfl
  rw [ofText?, length, if_neg (by decide), if_pos rfl]
  exact ofGroups?_text u

end Uuid

end Reconcile
