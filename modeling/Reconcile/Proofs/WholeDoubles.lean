import Reconcile.Proofs.DoubleArithmetic

/-!
# Doubles that are whole numbers

A double stands for at most one integer.  Where some double stands for an integer, the double nearest
to it is one that does, and this is so for the integers of up to fifty-three binary digits with any
number of zeros behind them.
-/

namespace Reconcile

namespace Binary64

/-- Whether a double is an integer. -/
def Holds (x : Binary64) (n : Int) : Prop := x.isFinite = true ∧ x.signedUnits = n * unitsPerOne

theorem unitsPerOne_ne_zero : (unitsPerOne : Int) ≠ 0 :=
  Int.natCast_ne_zero.mpr (Nat.ne_of_gt unitsPerOne_pos)

theorem Holds.unique {x : Binary64} {m n : Int} (first : x.Holds m) (second : x.Holds n) :
    m = n := by
  apply Int.eq_of_mul_eq_mul_right unitsPerOne_ne_zero
  rw [← first.2, second.2]

theorem natAbs_signedUnits (x : Binary64) : x.signedUnits.natAbs = x.units := by
  unfold signedUnits
  split <;> omega

theorem signedUnits_ofMagnitude {negative : Bool} {magnitude : Nat}
    (small : magnitude < 2 ^ 63) :
    (ofMagnitude negative magnitude).signedUnits =
      if negative then -(unitsOf magnitude : Int) else unitsOf magnitude := by
  rw [signedUnits, units, magnitude_ofMagnitude small, isNegative_ofMagnitude small]

/-- A magnitude of as many units as the size of an integer, and the sign of the integer, make a
double that is it. -/
theorem holds_ofMagnitude {n : Int} {magnitude : Nat} (finite : magnitude < infiniteMagnitude)
    (units : unitsOf magnitude = n.natAbs * unitsPerOne) :
    (ofMagnitude (decide (n < 0)) magnitude).Holds n := by
  refine ⟨isFinite_ofMagnitude finite, ?_⟩
  rw [signedUnits_ofMagnitude (Nat.lt_trans finite infiniteMagnitude_lt), units, Int.natCast_mul]
  by_cases negative : n < 0
  · rw [if_pos (decide_eq_true negative), ← Int.neg_mul]
    congr 1
    omega
  · rw [if_neg (by simpa using negative)]
    congr 1
    omega

/-- The double nearest to an integer is the integer, if any double is. -/
theorem Holds.ofInt {x : Binary64} {n : Int} (holds : x.Holds n) : (ofInt n).Holds n := by
  have finite : x.magnitude < infiniteMagnitude := of_decide_eq_true holds.1
  have units : unitsOf x.magnitude = n.natAbs * unitsPerOne := by
    have sizes := congrArg Int.natAbs holds.2
    rwa [natAbs_signedUnits, Int.natAbs_mul, Int.natAbs_natCast] at sizes
  rw [Binary64.ofInt, ofRatio, ← units, magnitudeOfRatio_unitsOf finite]
  exact holds_ofMagnitude finite units

/-! ## Which integers are doubles -/

/-- Numbers of up to fifty-three binary digits, moved up far enough, are counts of units. -/
theorem exists_unitsOf {digits power : Nat} (few : digits < 2 ^ 53) (least : 52 ≤ power)
    (most : power ≤ 2045) :
    ∃ magnitude < infiniteMagnitude, unitsOf magnitude = digits * 2 ^ power := by
  by_cases zero : digits = 0
  · exact ⟨0, by decide, by rw [zero, Nat.zero_mul]; rfl⟩
  · have bits : digits.log2 ≤ 52 := Nat.le_of_lt_succ ((Nat.log2_lt zero).mpr few)
    -- the digits moved up until the leading one stands at the place of the implicit bit
    obtain ⟨lead, leads⟩ : ∃ lead, lead = digits * 2 ^ (52 - digits.log2) := ⟨_, rfl⟩
    have places : digits.log2 + (52 - digits.log2) = 52 := by omega
    have normal : 2 ^ 52 ≤ lead := by
      have scaled := Nat.mul_le_mul_right (2 ^ (52 - digits.log2)) (Nat.log2_self_le zero)
      rwa [← Nat.pow_add, places, ← leads] at scaled
    have bounded : lead < 2 ^ 53 := by
      have shorter : digits < 2 ^ (digits.log2 + 1) := Nat.lt_log2_self
      have scaled := Nat.mul_lt_mul_of_pos_right shorter (Nat.two_pow_pos (52 - digits.log2))
      rwa [← Nat.pow_add, Nat.add_right_comm, places, ← leads] at scaled
    refine ⟨(power - 52 + digits.log2) * 2 ^ 52 + lead, ?_, ?_⟩
    · unfold infiniteMagnitude
      omega
    · have fraction : ((power - 52 + digits.log2) * 2 ^ 52 + lead) % 2 ^ 52 = lead - 2 ^ 52 := by
        omega
      have binade : ((power - 52 + digits.log2) * 2 ^ 52 + lead) / 2 ^ 52 =
          power - 52 + digits.log2 + 1 := by
        omega
      have total : 52 - digits.log2 + (power - 52 + digits.log2) = power := by omega
      rw [unitsOf, if_neg (by omega), fraction, binade, Nat.add_sub_cancel,
        Nat.add_sub_cancel' normal, leads, Nat.mul_assoc, ← Nat.pow_add, total]

/-- Nothing else is a count of units that ends in so many zeros. -/
theorem exists_digits_of_unitsOf {magnitude n power : Nat} (enough : 52 ≤ power)
    (units : unitsOf magnitude = n * 2 ^ power) :
    ∃ digits zeros, digits < 2 ^ 53 ∧ n = digits * 2 ^ zeros := by
  unfold unitsOf at units
  split at units
  · rename_i subnormal
    have large : (2 : Nat) ^ 52 ≤ 2 ^ power := Nat.pow_le_pow_right (by decide) enough
    refine ⟨0, 0, by decide, Nat.eq_zero_of_not_pos ?_⟩
    intro positive
    have least := Nat.le_mul_of_pos_left (2 ^ power) positive
    omega
  · have fraction : magnitude % 2 ^ 52 < 2 ^ 52 := Nat.mod_lt _ (Nat.two_pow_pos 52)
    generalize magnitude / 2 ^ 52 - 1 = shift at units
    by_cases far : power ≤ shift
    · refine ⟨2 ^ 52 + magnitude % 2 ^ 52, shift - power, by omega, ?_⟩
      apply Nat.eq_of_mul_eq_mul_right (Nat.two_pow_pos power)
      rw [← units, Nat.mul_assoc, ← Nat.pow_add, Nat.sub_add_cancel far]
    · refine ⟨n, 0, ?_, (Nat.mul_one n).symm⟩
      have split : power = power - shift + shift := by omega
      rw [split, Nat.pow_add, ← Nat.mul_assoc] at units
      have same := Nat.eq_of_mul_eq_mul_right (Nat.two_pow_pos shift) units
      have least := Nat.le_mul_of_pos_right n (Nat.two_pow_pos (power - shift))
      omega

/-- An integer of 64 bits is a double if it has at most fifty-three binary digits before the zeros
that it ends in. -/
theorem exists_holds_iff {n : Int} (small : n.natAbs < 2 ^ 64) :
    (∃ x : Binary64, x.Holds n) ↔
      ∃ digits zeros, digits < 2 ^ 53 ∧ n.natAbs = digits * 2 ^ zeros := by
  obtain ⟨power, units, enough, few⟩ :
      ∃ power, unitsPerOne = 2 ^ power ∧ 52 ≤ power ∧ power + 64 ≤ 2045 :=
    ⟨1074, rfl, by decide, by decide⟩
  constructor
  · rintro ⟨x, -, holds⟩
    have sizes := congrArg Int.natAbs holds
    rw [natAbs_signedUnits, Int.natAbs_mul, Int.natAbs_natCast, units] at sizes
    exact exists_digits_of_unitsOf enough sizes
  · rintro ⟨digits, zeros, short, size⟩
    have moved : ∃ zeros ≤ 64, n.natAbs = digits * 2 ^ zeros := by
      by_cases zero : digits = 0
      · exact ⟨0, by decide, by rw [size, zero, Nat.zero_mul, Nat.zero_mul]⟩
      · refine ⟨zeros, Nat.le_of_not_lt ?_, size⟩
        intro many
        have large : (2 : Nat) ^ 64 ≤ 2 ^ zeros := Nat.pow_le_pow_right (by decide) (by omega)
        have least := Nat.le_mul_of_pos_left (2 ^ zeros) (Nat.pos_of_ne_zero zero)
        omega
    obtain ⟨zeros, most, size⟩ := moved
    have least : 52 ≤ power + zeros := by omega
    have bound : power + zeros ≤ 2045 := by omega
    obtain ⟨magnitude, finite, counted⟩ := exists_unitsOf short least bound
    refine ⟨_, holds_ofMagnitude finite ?_⟩
    rw [counted, size, units, Nat.add_comm, Nat.pow_add, Nat.mul_assoc]

end Binary64

end Reconcile
