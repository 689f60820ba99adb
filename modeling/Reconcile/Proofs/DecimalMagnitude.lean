import Reconcile.Binary64.Decimal

/-!
# Magnitudes of decimals

The magnitude nearest to a decimal does not depend on how many zeros its digits end in, nor on the
short cuts taken for very large and very small powers of ten.  The fewest digits that are found for
a finite magnitude have that magnitude.
-/

namespace Reconcile

namespace Binary64

/-! ## Rounding ratios -/

theorem roundHalfEven_mul_right (numerator denominator : Nat) {factor : Nat}
    (positive : 0 < factor) :
    roundHalfEven (numerator * factor) (denominator * factor) =
      roundHalfEven numerator denominator := by
  have twice : 2 * (numerator % denominator * factor) =
      2 * (numerator % denominator) * factor := (Nat.mul_assoc ..).symm
  unfold roundHalfEven
  simp only [Nat.mul_div_mul_right _ _ positive, Nat.mul_mod_mul_right, twice,
    Nat.mul_lt_mul_right positive]

theorem roundHalfEven_self_mul (quotient : Nat) {denominator : Nat} (positive : 0 < denominator) :
    roundHalfEven (quotient * denominator) denominator = quotient := by
  unfold roundHalfEven
  simp [Nat.mul_div_cancel _ positive, positive]

theorem div_le_roundHalfEven (numerator denominator : Nat) :
    numerator / denominator ≤ roundHalfEven numerator denominator := by
  unfold roundHalfEven
  simp only
  split
  · exact Nat.le_refl _
  · split <;> omega

theorem magnitudeOfRatio_mul_right (numerator denominator : Nat) {factor : Nat}
    (positive : 0 < factor) :
    magnitudeOfRatio (numerator * factor) (denominator * factor) =
      magnitudeOfRatio numerator denominator := by
  unfold magnitudeOfRatio
  simp only [Nat.mul_div_mul_right _ _ positive, Nat.mul_right_comm denominator factor,
    roundHalfEven_mul_right _ _ positive]

/-- A ratio below one half rounds to zero. -/
theorem magnitudeOfRatio_of_lt_half {numerator denominator : Nat}
    (small : 2 * numerator < denominator) : magnitudeOfRatio numerator denominator = 0 := by
  have below : numerator < denominator := by omega
  have rounded : roundHalfEven numerator denominator = 0 := by
    unfold roundHalfEven
    simp [Nat.div_eq_of_lt below, Nat.mod_eq_of_lt below, small]
  unfold magnitudeOfRatio
  simp [Nat.div_eq_of_lt below, Nat.log2_zero, rounded]

/-- From the first number past the largest binade on, everything rounds to infinity. -/
theorem magnitudeOfRatio_of_large {numerator power : Nat} (past : 2098 ≤ power)
    (large : 2 ^ power ≤ numerator) : magnitudeOfRatio numerator 1 = infiniteMagnitude := by
  have positive : numerator ≠ 0 := by
    rintro rfl
    exact absurd large (Nat.not_le_of_lt (Nat.two_pow_pos _))
  have bits : power ≤ Nat.log2 numerator :=
    Nat.le_of_not_lt fun less => Nat.not_lt_of_le large ((Nat.log2_lt positive).mp less)
  have normal : 2 ^ 52 ≤ numerator / 2 ^ (Nat.log2 numerator - 52) := by
    rw [Nat.le_div_iff_mul_le (Nat.two_pow_pos _), ← Nat.pow_add]
    have sum : 52 + (Nat.log2 numerator - 52) = Nat.log2 numerator := by omega
    rw [sum]
    exact Nat.log2_self_le positive
  have rounded := div_le_roundHalfEven numerator (2 ^ (Nat.log2 numerator - 52))
  have binades : 2046 * 2 ^ 52 ≤ (Nat.log2 numerator - 52) * 2 ^ 52 :=
    Nat.mul_le_mul_right _ (by omega)
  unfold magnitudeOfRatio infiniteMagnitude
  simp only [Nat.div_one, Nat.one_mul]
  refine Nat.min_eq_left ?_
  omega

/-- Counting the units of a finite magnitude and rounding the count gives the magnitude back. -/
theorem magnitudeOfRatio_unitsOf {magnitude : Nat} (finite : magnitude < infiniteMagnitude) :
    magnitudeOfRatio (unitsOf magnitude) 1 = magnitude := by
  unfold magnitudeOfRatio
  simp only [Nat.div_one, Nat.one_mul]
  unfold unitsOf
  split
  · rename_i subnormal
    have bits : Nat.log2 magnitude - 52 = 0 := by
      by_cases zero : magnitude = 0
      · rw [zero, Nat.log2_zero]
      · have few := (Nat.log2_lt zero).mpr subnormal
        omega
    have exact_ := roundHalfEven_self_mul magnitude (Nat.two_pow_pos 0)
    rw [Nat.pow_zero, Nat.mul_one] at exact_
    rw [bits, Nat.pow_zero, exact_, Nat.zero_mul, Nat.zero_add]
    exact Nat.min_eq_right (Nat.le_of_lt finite)
  · rename_i normal
    -- the leading bit stands `magnitude / 2 ^ 52 - 1` places above the fraction
    have fraction : magnitude % 2 ^ 52 < 2 ^ 52 := Nat.mod_lt _ (Nat.two_pow_pos _)
    have bits : Nat.log2 ((2 ^ 52 + magnitude % 2 ^ 52) * 2 ^ (magnitude / 2 ^ 52 - 1)) =
        52 + (magnitude / 2 ^ 52 - 1) := by
      have positive := Nat.two_pow_pos (magnitude / 2 ^ 52 - 1)
      rw [Nat.log2_eq_iff (Nat.mul_ne_zero (by omega) (by omega)), Nat.pow_add,
        Nat.add_right_comm, Nat.pow_add]
      exact ⟨Nat.mul_le_mul_right _ (by omega), Nat.mul_lt_mul_of_pos_right (by omega) positive⟩
    have shift : 52 + (magnitude / 2 ^ 52 - 1) - 52 = magnitude / 2 ^ 52 - 1 := by omega
    rw [bits, shift, roundHalfEven_self_mul _ (Nat.two_pow_pos _)]
    have whole : (magnitude / 2 ^ 52 - 1) * 2 ^ 52 + (2 ^ 52 + magnitude % 2 ^ 52) = magnitude := by
      omega
    rw [whole]
    exact Nat.min_eq_right (Nat.le_of_lt finite)

end Binary64

namespace Decimal

open Binary64

/-! ## Trailing zeros -/

/-- A decimal with a further zero behind its digits. -/
theorem magnitude_mul_ten (digits : Nat) (exponent : Int) :
    magnitude ⟨digits * 10, exponent - 1⟩ = magnitude ⟨digits, exponent⟩ := by
  unfold magnitude
  simp only
  by_cases positive : 0 < exponent
  · obtain ⟨power, rfl⟩ : ∃ power : Nat, exponent = power + 1 :=
      ⟨(exponent - 1).toNat, by omega⟩
    have lower : ((power : Int) + 1 - 1).toNat = power := by omega
    have upper : ((power : Int) + 1).toNat = power + 1 := by omega
    have lowerBelow : (-((power : Int) + 1 - 1)).toNat = 0 := by omega
    have upperBelow : (-((power : Int) + 1)).toNat = 0 := by omega
    rw [lower, upper, lowerBelow, upperBelow, Nat.pow_succ', Nat.mul_assoc digits]
  · obtain ⟨power, rfl⟩ : ∃ power : Nat, exponent = -(power : Int) := ⟨(-exponent).toNat, by omega⟩
    have lower : (-(power : Int) - 1).toNat = 0 := by omega
    have upper : (-(power : Int)).toNat = 0 := by omega
    have lowerBelow : (-(-(power : Int) - 1)).toNat = power + 1 := by omega
    have upperBelow : (-(-(power : Int))).toNat = power := by omega
    rw [lower, upper, lowerBelow, upperBelow, Nat.pow_zero, Nat.mul_one, Nat.mul_one,
      Nat.mul_right_comm, Nat.pow_succ]
    exact magnitudeOfRatio_mul_right _ _ (by decide)

/-- A decimal with further zeros behind its digits. -/
theorem magnitude_mul_pow_ten (digits : Nat) (exponent : Int) (zeros : Nat) :
    magnitude ⟨digits * 10 ^ zeros, exponent - zeros⟩ = magnitude ⟨digits, exponent⟩ := by
  induction zeros with
  | zero => rw [Nat.pow_zero, Nat.mul_one, Int.natCast_zero, Int.sub_zero]
  | succ zeros ih =>
      have lower : exponent - (zeros + 1 : Nat) = exponent - zeros - 1 := by omega
      rw [Nat.pow_succ, ← Nat.mul_assoc, lower, magnitude_mul_ten, ih]

theorem magnitude_dropZeros (fuel : Nat) (d : Decimal) :
    (d.dropZeros fuel).magnitude = d.magnitude := by
  induction fuel generalizing d with
  | zero => rfl
  | succ fuel ih =>
      unfold dropZeros
      split
      · rename_i ends
        have digits : d.digits / 10 * 10 = d.digits := by omega
        have exponent : d.exponent + 1 - 1 = d.exponent := by omega
        rw [ih, ← magnitude_mul_ten, digits, exponent]
      · rfl

/-! ## Short cuts -/

/-- A power of ten is larger than the same power of eight. -/
theorem eight_pow_le_ten_pow (power : Nat) : (2 : Nat) ^ (3 * power) ≤ 10 ^ power := by
  rw [Nat.pow_mul]
  exact Nat.pow_le_pow_left (by decide) power

theorem two_mul_lt_ten_pow {digits bits scale power : Nat} (few : digits < 2 ^ bits)
    (enough : bits + (scale + 1) ≤ 3 * power) : 2 * (digits * 2 ^ scale) < 10 ^ power := by
  calc
    2 * (digits * 2 ^ scale) = digits * 2 ^ (scale + 1) := by
      rw [Nat.mul_left_comm, ← Nat.pow_succ']
    _ < 2 ^ bits * 2 ^ (scale + 1) := Nat.mul_lt_mul_of_pos_right few (Nat.two_pow_pos _)
    _ = 2 ^ (bits + (scale + 1)) := (Nat.pow_add ..).symm
    _ ≤ 2 ^ (3 * power) := Nat.pow_le_pow_right (by decide) enough
    _ ≤ 10 ^ power := eight_pow_le_ten_pow _

/-- Where the exponent alone decides it decides rightly. -/
theorem nearestMagnitude_eq_magnitude (d : Decimal) : d.nearestMagnitude = d.magnitude := by
  unfold nearestMagnitude
  split
  · rename_i zero
    unfold magnitude
    rw [zero, Nat.zero_mul, Nat.zero_mul]
    exact (magnitudeOfRatio_of_lt_half (Nat.pow_pos (by decide))).symm
  · rename_i nonzero
    split
    · rename_i large
      have power : 401 ≤ d.exponent.toNat := by omega
      have noDenominator : (-d.exponent).toNat = 0 := by omega
      unfold magnitude unitsPerOne
      rw [noDenominator, Nat.pow_zero]
      have past : 2098 ≤ 3 * d.exponent.toNat + 1074 := by omega
      refine (magnitudeOfRatio_of_large past ?_).symm
      rw [Nat.pow_add]
      calc
        2 ^ (3 * d.exponent.toNat) * 2 ^ 1074 ≤ 10 ^ d.exponent.toNat * 2 ^ 1074 :=
          Nat.mul_le_mul_right _ (eight_pow_le_ten_pow _)
        _ ≤ d.digits * 10 ^ d.exponent.toNat * 2 ^ 1074 :=
          Nat.mul_le_mul_right _ (Nat.le_mul_of_pos_left _ (by omega))
    · split
      · rename_i tiny
        have noPower : d.exponent.toNat = 0 := by omega
        have digits : d.digits < 2 ^ (Nat.log2 d.digits + 1) := (Nat.log2_lt nonzero).mp (by omega)
        unfold magnitude unitsPerOne
        rw [noPower, Nat.pow_zero, Nat.mul_one]
        exact (magnitudeOfRatio_of_lt_half (two_mul_lt_ten_pow digits (by omega))).symm
      · rfl

end Decimal

namespace Binary64

/-! ## The fewest digits -/

theorem accepted_of_nearestNeighbour? {tie : Tie} {numerator denominator digits : Nat}
    {accepted : Nat → Bool}
    (given : nearestNeighbour? tie numerator denominator accepted = some digits) :
    accepted digits = true := by
  unfold nearestNeighbour? at given
  simp only at given
  split at given
  · cases given
  · rename_i below _
    cases given
    exact below
  · rename_i _ above
    cases given
    exact above
  · rename_i below above
    split at given
    · cases given
      exact below
    · split at given
      · cases given
        exact above
      · cases tie with
        | up =>
            cases given
            exact above
        | even =>
            cases given
            rcases Nat.mod_two_eq_zero_or_one (numerator / denominator) with even | odd
            · rw [even]
              exact below
            · rw [odd]
              exact above

/-- Digits are only given if they read back. -/
theorem magnitude_of_searchDigits {tie : Tie} {magnitude places : Nat} {exponent : Int}
    {d : Decimal} (given : searchDigits tie magnitude places exponent = some d) :
    d.magnitude = magnitude := by
  induction places generalizing exponent with
  | zero => cases given
  | succ places ih =>
      rw [searchDigits] at given
      cases found : digitsAt? tie magnitude exponent with
      | some digits =>
          rw [found] at given
          obtain rfl : ⟨digits, exponent⟩ = d := Option.some.inj given
          rw [digitsAt?] at found
          have accepted := accepted_of_nearestNeighbour? found
          rw [readsBack] at accepted
          exact beq_iff_eq.mp accepted
      | none =>
          rw [found] at given
          exact ih given

/-- All digits of the exact value read back. -/
theorem magnitude_exact {magnitude : Nat} (finite : magnitude < infiniteMagnitude) (power : Nat)
    (units : unitsPerOne = 2 ^ power) :
    (Decimal.mk (unitsOf magnitude * 5 ^ power) (-(power : Int))).magnitude = magnitude := by
  have noPower : (-(power : Int)).toNat = 0 := by omega
  have places : (-(-(power : Int))).toNat = power := by omega
  unfold Decimal.magnitude
  simp only
  rw [noPower, places, units, Nat.pow_zero, Nat.mul_one, Nat.mul_assoc, ← Nat.mul_pow]
  have scaled := magnitudeOfRatio_mul_right (unitsOf magnitude) 1
    (Nat.pow_pos (n := power) (show 0 < 5 * 2 by decide))
  rw [Nat.one_mul] at scaled
  exact scaled.trans (magnitudeOfRatio_unitsOf finite)

/-- The fewest digits of a finite magnitude read back to it. -/
theorem magnitude_shortest (tie : Tie) {magnitude : Nat} (finite : magnitude < infiniteMagnitude) :
    (shortest tie magnitude).magnitude = magnitude := by
  unfold shortest
  split
  · rename_i zero
    rw [zero, ← Decimal.nearestMagnitude_eq_magnitude]
    rfl
  · split
    · rename_i d found
      rw [Decimal.magnitude_dropZeros]
      exact magnitude_of_searchDigits found
    · rw [Decimal.magnitude_dropZeros]
      exact magnitude_exact finite 1074 rfl

/-! ## Signs -/

theorem ofMagnitude_self (x : Binary64) : ofMagnitude x.isNegative x.magnitude = x := by
  obtain ⟨bits⟩ := x
  have below := bits.toNat_lt
  refine congrArg Binary64.mk (UInt64.toNat_inj.mp ?_)
  simp only [isNegative, magnitude, decide_eq_true_eq, UInt64.toNat_ofNat']
  split <;> omega

/-- A finite double is read from the fewest digits of its magnitude and its sign. -/
theorem ofDecimal_eq_self {x : Binary64} {d : Decimal} (same : d.magnitude = x.magnitude) :
    ofDecimal x.isNegative d = x := by
  rw [ofDecimal, Decimal.nearestMagnitude_eq_magnitude, same]
  exact ofMagnitude_self x

end Binary64

end Reconcile
