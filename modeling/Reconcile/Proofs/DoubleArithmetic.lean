import Reconcile.Proofs.DecimalMagnitude

/-!
# Arithmetic on doubles

The difference of two doubles has the same size whichever is subtracted from the other, and zero
stays zero when it is added to itself or divided by a count.  Rounding never makes a NaN, and sums
and means of numbers without a sign are such numbers.
-/

namespace Reconcile

namespace Binary64

/-! ## Signs and magnitudes -/

theorem infiniteMagnitude_lt : infiniteMagnitude < 2 ^ 63 := by decide

theorem toNat_ofMagnitude {negative : Bool} {magnitude : Nat} (small : magnitude < 2 ^ 63) :
    (ofMagnitude negative magnitude).bits.toNat = magnitude + if negative then 2 ^ 63 else 0 := by
  rw [ofMagnitude, UInt64.toNat_ofNat', Nat.mod_eq_of_lt]
  split <;> omega

theorem magnitude_ofMagnitude {negative : Bool} {magnitude : Nat} (small : magnitude < 2 ^ 63) :
    (ofMagnitude negative magnitude).magnitude = magnitude := by
  rw [Binary64.magnitude, toNat_ofMagnitude small]
  split <;> omega

theorem isNegative_ofMagnitude {negative : Bool} {magnitude : Nat} (small : magnitude < 2 ^ 63) :
    (ofMagnitude negative magnitude).isNegative = negative := by
  rw [isNegative, toNat_ofMagnitude small]
  cases negative with
  | false => simpa using small
  | true => simp

@[simp] theorem magnitude_neg (x : Binary64) : x.neg.magnitude = x.magnitude :=
  magnitude_ofMagnitude x.magnitude_lt

@[simp] theorem isNegative_neg (x : Binary64) : x.neg.isNegative = !x.isNegative :=
  isNegative_ofMagnitude x.magnitude_lt

@[simp] theorem isNaN_neg (x : Binary64) : x.neg.isNaN = x.isNaN := by
  rw [isNaN, isNaN, magnitude_neg]

@[simp] theorem isInfinite_neg (x : Binary64) : x.neg.isInfinite = x.isInfinite := by
  rw [isInfinite, isInfinite, magnitude_neg]

@[simp] theorem signedUnits_neg (x : Binary64) : x.neg.signedUnits = -x.signedUnits := by
  rw [signedUnits, signedUnits, units, magnitude_neg, isNegative_neg, ← units]
  cases x.isNegative with
  | false => rfl
  | true => exact (Int.neg_neg _).symm

theorem abs_eq_of_magnitude_eq {x y : Binary64} (same : x.magnitude = y.magnitude) :
    x.abs = y.abs :=
  congrArg (ofMagnitude false) same

/-! ## Rounding -/

theorem magnitudeOfRatio_le (numerator denominator : Nat) :
    magnitudeOfRatio numerator denominator ≤ infiniteMagnitude :=
  Nat.min_le_left _ _

theorem magnitudeOfRatio_lt (numerator denominator : Nat) :
    magnitudeOfRatio numerator denominator < 2 ^ 63 :=
  Nat.lt_of_le_of_lt (magnitudeOfRatio_le numerator denominator) infiniteMagnitude_lt

theorem isNaN_ofRatio (negative : Bool) (numerator denominator : Nat) :
    (ofRatio negative numerator denominator).isNaN = false := by
  rw [isNaN, ofRatio, magnitude_ofMagnitude (magnitudeOfRatio_lt ..), decide_eq_false_iff_not]
  exact Nat.not_lt_of_le (magnitudeOfRatio_le ..)

theorem abs_ofRatio (negative : Bool) (numerator denominator : Nat) :
    (ofRatio negative numerator denominator).abs = ofRatio false numerator denominator := by
  rw [abs, ofRatio, magnitude_ofMagnitude (magnitudeOfRatio_lt ..), ofRatio]

theorem magnitudeOfRatio_zero (denominator : Nat) : magnitudeOfRatio 0 denominator = 0 := by
  have rounded : roundHalfEven 0 denominator = 0 := by simp [roundHalfEven]
  simp [magnitudeOfRatio, rounded]

/-- A ratio of at least one unit does not round to zero. -/
theorem magnitudeOfRatio_ne_zero {numerator denominator : Nat} (positive : 0 < denominator)
    (large : denominator ≤ numerator) : magnitudeOfRatio numerator denominator ≠ 0 := by
  have rounded : 0 < roundHalfEven numerator denominator :=
    Nat.lt_of_lt_of_le (Nat.div_pos large positive) (div_le_roundHalfEven numerator denominator)
  have infinite : 0 < infiniteMagnitude := by decide
  refine Nat.ne_of_gt (Nat.lt_min.mpr ⟨infinite, ?_⟩)
  generalize Nat.log2 (numerator / denominator) - 52 = shift
  cases shift with
  | zero =>
      rw [Nat.pow_zero, Nat.mul_one]
      exact Nat.add_pos_right _ rounded
  | succ shift => exact Nat.add_pos_left (Nat.mul_pos (Nat.succ_pos shift) (Nat.two_pow_pos 52)) _

theorem roundHalfEven_le (numerator denominator : Nat) :
    roundHalfEven numerator denominator ≤ numerator / denominator + 1 := by
  unfold roundHalfEven
  simp only
  split
  · exact Nat.le_succ _
  · split <;> omega

/-- A count of units below the last binade is not rounded to infinity. -/
theorem magnitudeOfRatio_of_small {numerator power : Nat} (few : power ≤ 2097)
    (small : numerator < 2 ^ power) : magnitudeOfRatio numerator 1 < infiniteMagnitude := by
  have bits : numerator.log2 ≤ 2096 := by
    by_cases zero : numerator = 0
    · rw [zero, Nat.log2_zero]
      exact Nat.zero_le _
    · have below := (Nat.log2_lt zero).mpr small
      omega
  have digits : numerator < 2 ^ 53 * 2 ^ (numerator.log2 - 52) := by
    rw [← Nat.pow_add]
    refine Nat.lt_of_lt_of_le Nat.lt_log2_self ?_
    exact Nat.pow_le_pow_right (by decide) (by omega)
  have quotient := Nat.div_lt_of_lt_mul (Nat.mul_comm _ _ ▸ digits)
  have rounded := roundHalfEven_le numerator (2 ^ (numerator.log2 - 52))
  have binades : (numerator.log2 - 52) * 2 ^ 52 ≤ 2044 * 2 ^ 52 :=
    Nat.mul_le_mul_right _ (by omega)
  unfold magnitudeOfRatio infiniteMagnitude
  simp only [Nat.div_one, Nat.one_mul]
  omega

theorem isFinite_ofMagnitude {negative : Bool} {magnitude : Nat}
    (finite : magnitude < infiniteMagnitude) :
    (ofMagnitude negative magnitude).isFinite = true := by
  rw [isFinite, magnitude_ofMagnitude (Nat.lt_trans finite infiniteMagnitude_lt)]
  exact decide_eq_true finite

/-! ## Differences -/

theorem abs_zero_of_sign (negative : Bool) : (ofMagnitude negative 0).abs = zero := by
  rw [abs, magnitude_ofMagnitude (Nat.two_pow_pos 63)]
  rfl

/-- The sizes of the differences of two doubles are the same. -/
theorem abs_sub_comm (x y : Binary64) : (x - y).abs = (y - x).abs := by
  change (add x y.neg).abs = (add y x.neg).abs
  simp only [add, isNaN_neg, isInfinite_neg, isNegative_neg, signedUnits_neg]
  by_cases nan : (x.isNaN || y.isNaN) = true
  · have nan' : (y.isNaN || x.isNaN) = true := by rwa [Bool.or_comm]
    rw [if_pos nan, if_pos nan']
  have number : ¬ (y.isNaN || x.isNaN) = true := by rwa [Bool.or_comm]
  rw [if_neg nan, if_neg number]
  cases xInfinite : x.isInfinite with
  | true =>
      cases yInfinite : y.isInfinite with
      | true =>
          have sameSize : x.abs = y.abs := abs_eq_of_magnitude_eq
            ((of_decide_eq_true xInfinite).trans (of_decide_eq_true yInfinite).symm)
          have signs : (x.isNegative != !y.isNegative) = (y.isNegative != !x.isNegative) := by
            cases x.isNegative <;> cases y.isNegative <;> rfl
          simp only [if_true, Bool.true_and, signs]
          split
          · rfl
          · exact sameSize
      | false => exact abs_eq_of_magnitude_eq x.magnitude_neg.symm
  | false =>
      cases yInfinite : y.isInfinite with
      | true => exact abs_eq_of_magnitude_eq y.magnitude_neg
      | false =>
          have opposite : y.signedUnits + -x.signedUnits = -(x.signedUnits + -y.signedUnits) := by
            omega
          rw [opposite]
          generalize x.signedUnits + -y.signedUnits = difference
          by_cases nothing : difference = 0
          · simp only [nothing, Int.neg_zero, if_true, Bool.false_eq_true, if_false,
              abs_zero_of_sign]
          · have something : ¬ -difference = 0 := by omega
            simp only [nothing, something, if_false, Bool.false_eq_true, abs_ofRatio,
              Int.natAbs_neg]

theorem sameNumber_comm (x y : Binary64) : x.sameNumber y = y.sameNumber x := by
  rw [sameNumber, sameNumber, Bool.and_comm (!x.isNaN)]
  simp only [eq_comm]

theorem sameNumber_self {x : Binary64} (number : x.isNaN = false) : x.sameNumber x = true := by
  simp [sameNumber, number]

/-! ## Zero -/

theorem unitsPerOne_pos : 0 < unitsPerOne := by
  unfold unitsPerOne
  generalize 1074 = power
  exact Nat.two_pow_pos power

theorem zero_add_zero : zero + zero = zero := by decide

theorem ofNat_zero : ofNat 0 = zero := by
  rw [ofNat, ofRatio, Nat.zero_mul, magnitudeOfRatio_zero]
  rfl

/-! ## Whole numbers -/

theorem isFinite_ofInt {n : Int} (least : -2 ^ 64 < n) (most : n < 2 ^ 64) :
    (ofInt n).isFinite = true := by
  have size : n.natAbs < 2 ^ 64 := by omega
  obtain ⟨power, few, units⟩ : ∃ power ≤ 1074, unitsPerOne = 2 ^ power := ⟨1074, Nat.le_refl _, rfl⟩
  have small : n.natAbs * unitsPerOne < 2 ^ (64 + power) := by
    rw [units, Nat.pow_add]
    exact Nat.mul_lt_mul_of_pos_right size (Nat.two_pow_pos power)
  exact isFinite_ofMagnitude (magnitudeOfRatio_of_small (by omega) small)

theorem isFinite_ofNat {n : Nat} (small : n < 2 ^ 64) : (ofNat n).isFinite = true := by
  have counted : ofInt n = ofNat n := by
    rw [ofInt, ofNat, decide_eq_false (Int.not_lt.mpr (Int.natCast_nonneg n)), Int.natAbs_natCast]
  rw [← counted]
  exact isFinite_ofInt (by omega) (by omega)

theorem magnitude_ofNat_ne_zero {n : Nat} (positive : 0 < n) : (ofNat n).magnitude ≠ 0 := by
  rw [ofNat, ofRatio, magnitude_ofMagnitude (magnitudeOfRatio_lt ..)]
  exact magnitudeOfRatio_ne_zero Nat.one_pos (Nat.mul_pos positive unitsPerOne_pos)

/-- The mean of any number of zeros is zero. -/
theorem zero_div_ofNat {count : Nat} (positive : 0 < count) : zero / ofNat count = zero := by
  have some_ := magnitude_ofNat_ne_zero positive
  have number : (ofNat count).isNaN = false := isNaN_ofRatio false _ 1
  have sign : (ofNat count).isNegative = false := isNegative_ofMagnitude (magnitudeOfRatio_lt ..)
  have zeroNumber : zero.isNaN = false := by decide
  have zeroFinite : zero.isInfinite = false := by decide
  have zeroSign : zero.isNegative = false := by decide
  have zeroUnits : zero.units = 0 := by decide
  change div zero (ofNat count) = zero
  simp only [div, number, sign, zeroNumber, zeroFinite, zeroSign, zeroUnits, some_, Bool.or_self,
    Bool.false_eq_true, bne_self_eq_false, if_false, ofRatio, Nat.zero_mul, magnitudeOfRatio_zero]
  exact ite_self _

/-! ## Numbers without a sign -/

/-- A number, infinite perhaps, the sign of which is not set. -/
structure IsUnsigned (x : Binary64) : Prop where
  number : x.isNaN = false
  unsigned : x.isNegative = false

variable {x y : Binary64}

theorem IsUnsigned.signedMagnitude_eq (positive : x.IsUnsigned) :
    x.signedMagnitude = x.magnitude := by
  rw [signedMagnitude, positive.unsigned]
  rfl

theorem IsUnsigned.signedUnits_eq (positive : x.IsUnsigned) : x.signedUnits = x.units := by
  rw [signedUnits, positive.unsigned]
  rfl

theorem isUnsigned_zero : zero.IsUnsigned := ⟨by decide, by decide⟩

theorem isUnsigned_infinity : (infinity false).IsUnsigned := ⟨by decide, by decide⟩

theorem isUnsigned_ofRatio (numerator denominator : Nat) :
    (ofRatio false numerator denominator).IsUnsigned :=
  ⟨isNaN_ofRatio .., isNegative_ofMagnitude (magnitudeOfRatio_lt ..)⟩

theorem isUnsigned_abs (number : x.isNaN = false) : x.abs.IsUnsigned := by
  refine ⟨?_, isNegative_ofMagnitude x.magnitude_lt⟩
  rwa [isNaN, abs, magnitude_ofMagnitude x.magnitude_lt]

/-- Numbers without a sign compare as their magnitudes do. -/
theorem IsUnsigned.le_iff (first : x.IsUnsigned) (second : y.IsUnsigned) :
    x.le y = true ↔ x.magnitude ≤ y.magnitude := by
  simp only [le, first.number, second.number, first.signedMagnitude_eq, second.signedMagnitude_eq,
    Bool.not_false, Bool.true_and, decide_eq_true_eq, Int.ofNat_le]

theorem IsUnsigned.zero_le (positive : x.IsUnsigned) : zero.le x = true :=
  (isUnsigned_zero.le_iff positive).mpr (Nat.zero_le _)

/-- Sums of numbers without a sign have none, however large they are. -/
theorem IsUnsigned.add (first : x.IsUnsigned) (second : y.IsUnsigned) : (x + y).IsUnsigned := by
  change (Binary64.add x y).IsUnsigned
  simp only [Binary64.add, first.number, second.number, first.unsigned, second.unsigned,
    first.signedUnits_eq, second.signedUnits_eq, Bool.or_self, Bool.false_eq_true, if_false,
    bne_self_eq_false, Bool.and_false]
  split
  · exact first
  · split
    · exact second
    · split
      · exact isUnsigned_zero
      · have sum : decide ((x.units : Int) + y.units < 0) = false := decide_eq_false (by omega)
        rw [sum]
        exact isUnsigned_ofRatio _ 1

/-- Nor have their quotients, unless both are infinite or both are zero. -/
theorem IsUnsigned.div (first : x.IsUnsigned) (second : y.IsUnsigned)
    (finite : y.isFinite = true) (nonzero : y.magnitude ≠ 0) : (x / y).IsUnsigned := by
  have bounded : y.isInfinite = false :=
    decide_eq_false (Nat.ne_of_lt (of_decide_eq_true finite))
  change (Binary64.div x y).IsUnsigned
  simp only [Binary64.div, first.number, second.number, first.unsigned, second.unsigned, bounded,
    nonzero, Bool.or_self, Bool.false_eq_true, if_false, bne_self_eq_false]
  split
  · exact isUnsigned_infinity
  · exact isUnsigned_ofRatio _ _

theorem IsUnsigned.div_ofNat (positive : x.IsUnsigned) {count : Nat} (some_ : 0 < count)
    (small : count < 2 ^ 64) : (x / ofNat count).IsUnsigned :=
  positive.div (isUnsigned_ofRatio _ 1) (isFinite_ofNat small) (magnitude_ofNat_ne_zero some_)

end Binary64

end Reconcile
