import Reconcile.Json.Number
import Reconcile.Proofs.DecimalMagnitude
import Reconcile.Proofs.DigitText

/-!
# Written JSON numbers

A spelled number reads back as its parts.  Integers and finite doubles are spelled such that the
parts stand for the number itself.
-/

namespace Reconcile

namespace Json

open Text

/-! ## Spelled numbers -/

/-- A power of ten as doubles spell it, with its sign. -/
def powerText : Option Int → List Char
  | none => []
  | some power => 'e' :: (if power < 0 then '-' else '+') :: decimal power.natAbs

/-- The spelling of the parts of a number. -/
def NumberToken.text (token : NumberToken) : List Char :=
  (if token.negative then ['-'] else []) ++ token.whole ++
    (if token.fraction.isEmpty then [] else '.' :: token.fraction) ++ powerText token.power

/-- The parts are digits, and a zero in front stands alone. -/
structure NumberToken.IsPlain (token : NumberToken) : Prop where
  whole_ne_nil : token.whole ≠ []
  whole_digits : ∀ c ∈ token.whole, isDigit c = true
  leading : token.whole.head? = some '0' → token.whole.length = 1
  fraction_digits : ∀ c ∈ token.fraction, isDigit c = true

/-- The text does not go on as a number. -/
def EndsNumber (rest : List Char) : Prop :=
  ∀ c ∈ rest.head?, isDigit c = false ∧ c ≠ '.' ∧ c ≠ 'e' ∧ c ≠ 'E'

theorem EndsNumber.endsDigits {rest : List Char} (ends : EndsNumber rest) : EndsDigits rest :=
  fun c member => (ends c member).1

theorem readDigits_append {digits rest : List Char} (nonempty : digits ≠ [])
    (all : ∀ c ∈ digits, isDigit c = true) (ends : EndsDigits rest) :
    readDigits (digits ++ rest) = .ok (digits, rest) := by
  obtain ⟨taken, left⟩ := takeWhile_isDigit all ends
  cases digits with
  | nil => exact absurd rfl nonempty
  | cons c digits =>
      rw [List.cons_append] at taken left ⊢
      simp only [readDigits, taken, left]
      rfl

theorem readWhole_append {digits rest : List Char} (nonempty : digits ≠ [])
    (all : ∀ c ∈ digits, isDigit c = true)
    (leading : digits.head? = some '0' → digits.length = 1) (ends : EndsDigits rest) :
    readWhole (digits ++ rest) = .ok (digits, rest) := by
  rw [readWhole, readDigits_append nonempty all ends]
  refine if_neg ?_
  rintro ⟨zero, more⟩
  rw [leading zero] at more
  exact absurd more (by decide)

theorem readPower_append (power : Option Int) {rest : List Char} (ends : EndsNumber rest) :
    readPower (powerText power ++ rest) = .ok (power, rest) := by
  cases power with
  | none =>
      cases rest with
      | nil => rfl
      | cons c rest =>
          obtain ⟨-, -, notSmall, notLarge⟩ := ends c rfl
          simp [powerText, readPower, notSmall, notLarge]
  | some power =>
      have read := readDigits_append (decimal_ne_nil power.natAbs)
        (fun _ => isDigit_of_mem_decimal) ends.endsDigits
      by_cases negative : power < 0
      · simp only [powerText, if_pos negative, List.cons_append, readPower, true_or, if_true, read]
        have value : -((power.natAbs : Nat) : Int) = power := by omega
        change Except.ok (some (-(((natOfDigits? 10 0 (decimal power.natAbs)).getD 0 : Nat) : Int)),
          rest) = _
        rw [natOfDigits?_decimal, Option.getD_some, value]
      · simp only [powerText, if_neg negative, List.cons_append, readPower, true_or, if_true, read]
        have value : ((power.natAbs : Nat) : Int) = power := by omega
        change Except.ok (some (((natOfDigits? 10 0 (decimal power.natAbs)).getD 0 : Nat) : Int),
          rest) = _
        rw [natOfDigits?_decimal, Option.getD_some, value]

theorem readFraction_append {fraction rest : List Char}
    (all : ∀ c ∈ fraction, isDigit c = true) (ends : EndsDigits rest)
    (noPoint : rest.head? ≠ some '.') :
    readFraction ((if fraction.isEmpty then [] else '.' :: fraction) ++ rest) =
      .ok (fraction, rest) := by
  cases fraction with
  | nil =>
      change readFraction rest = .ok ([], rest)
      unfold readFraction
      split
      · exact absurd rfl noPoint
      · rfl
  | cons c fraction => exact readDigits_append (List.cons_ne_nil _ _) all ends

theorem endsDigits_powerText (power : Option Int) {rest : List Char} (ends : EndsDigits rest) :
    EndsDigits (powerText power ++ rest) := by
  cases power with
  | none => exact ends
  | some power => exact endsDigits_cons (by decide) _

theorem readSign_append (negative : Bool) {digits : List Char} (nonempty : digits ≠ [])
    (all : ∀ c ∈ digits, isDigit c = true) (rest : List Char) :
    readSign ((if negative then ['-'] else []) ++ (digits ++ rest)) =
      (negative, digits ++ rest) := by
  cases negative with
  | true => rfl
  | false =>
      cases digits with
      | nil => exact absurd rfl nonempty
      | cons c digits =>
          have digit := all c List.mem_cons_self
          change readSign (c :: (digits ++ rest)) = _
          unfold readSign
          split
          · rename_i more same
            rw [(List.cons.inj same).1] at digit
            exact absurd digit (by decide)
          · rfl

/-- The spelling of a number reads back as its parts, whatever does not go on with it. -/
theorem readNumber_text {token : NumberToken} (plain : token.IsPlain) {rest : List Char}
    (ends : EndsNumber rest) : readNumber (token.text ++ rest) = .ok (token, rest) := by
  obtain ⟨negative, whole, fraction, power⟩ := token
  have afterFraction := endsDigits_powerText power ends.endsDigits
  have noPoint : (powerText power ++ rest).head? ≠ some '.' := by
    cases power with
    | none => exact fun point => (ends '.' point).2.1 rfl
    | some power => simp [powerText]
  have afterWhole :
      EndsDigits
        ((if fraction.isEmpty then [] else '.' :: fraction) ++ (powerText power ++ rest)) := by
    cases fraction with
    | nil => exact afterFraction
    | cons c fraction => exact endsDigits_cons (by decide) _
  have signRead := readSign_append negative plain.whole_ne_nil plain.whole_digits
    ((if fraction.isEmpty then [] else '.' :: fraction) ++ (powerText power ++ rest))
  have wholeRead := readWhole_append plain.whole_ne_nil plain.whole_digits plain.leading afterWhole
  have fractionRead := readFraction_append plain.fraction_digits afterFraction noPoint
  have powerRead := readPower_append power ends
  simp only [readNumber, NumberToken.text, List.append_assoc, signRead, wholeRead, fractionRead,
    powerRead, bind, Except.bind]

/-! ## Integers -/

/-- The parts of an integer. -/
def NumberToken.ofInteger (n : Int) : NumberToken := ⟨decide (n < 0), decimal n.natAbs, [], none⟩

namespace NumberToken

theorem text_ofInteger (n : Int) : (ofInteger n).text = integer n := by
  unfold integer
  split
  · rename_i negative
    simp [text, ofInteger, powerText, negative]
  · rename_i nonnegative
    simp [text, ofInteger, powerText, nonnegative]

theorem isPlain_ofInteger (n : Int) : (ofInteger n).IsPlain where
  whole_ne_nil := decimal_ne_nil _
  whole_digits := fun _ => isDigit_of_mem_decimal
  leading := fun zero => by
    rw [show (ofInteger n).whole = decimal n.natAbs from rfl, eq_zero_of_head?_decimal zero]
    rfl
  fraction_digits := by simp [ofInteger]

/-- An integer that fits 64 bits is kept exactly. -/
theorem integer?_ofInteger {n : Int} (least : -2 ^ 63 ≤ n) (bound : n < 2 ^ 64) :
    (ofInteger n).integer? = some n := by
  unfold integer?
  simp only [ofInteger, isWhole, natOfDigits?_decimal, Option.getD_some, List.isEmpty_nil,
    Option.isNone_none, Bool.and_self, Bool.not_true, Bool.false_eq_true, if_false,
    decide_eq_true_eq]
  split
  · rw [if_pos (by omega)]
    exact congrArg some (by omega)
  · rw [if_pos (by omega)]
    exact congrArg some (by omega)

end NumberToken

/-! ## Doubles -/

/-- A text is the spelling of a double whose digits have the magnitude of a decimal. -/
structure NumberToken.Spells (token : NumberToken) (negative : Bool) (text : List Char)
    (d : Decimal) : Prop where
  plain : token.IsPlain
  negative_eq : token.negative = negative
  notWhole : token.isWhole = false
  text_eq : token.text = (if negative then ['-'] else []) ++ text
  magnitude_eq : (Decimal.ofDigits token.whole token.fraction (token.power.getD 0)).magnitude =
    d.magnitude

theorem natDigits_eq_decimal (n : Nat) : Binary64.natDigits n = decimal n := rfl

theorem powerText_some (power : Int) :
    powerText (some power) =
      'e' :: ((if power < 0 then ['-'] else if true then ['+'] else []) ++
        decimal power.natAbs) := by
  by_cases negative : power < 0
  · simp [powerText, negative]
  · simp [powerText, negative]

theorem ofDigits_eq {whole fraction : List Char} {power : Int} {n : Nat}
    (reads : natOfDigits? 10 0 (whole ++ fraction) = some n) :
    Decimal.ofDigits whole fraction power = ⟨n, power - fraction.length⟩ := by
  rw [Decimal.ofDigits, reads, Option.getD_some]

variable (negative : Bool) {n : Nat}

/-- A whole number with its zeros, and one behind the point. -/
theorem spells_whole {zeros : Nat} (zero : n = 0 → zeros = 0) :
    NumberToken.Spells ⟨negative, decimal n ++ List.replicate zeros '0', ['0'], none⟩ negative
      (decimal n ++ List.replicate zeros '0' ++ ['.', '0']) ⟨n, zeros⟩ where
  plain := {
    whole_ne_nil := by simp [decimal_ne_nil]
    whole_digits := fun c member => by
      rcases List.mem_append.mp member with front | back
      · exact isDigit_of_mem_decimal front
      · rw [(List.mem_replicate.mp back).2]
        rfl
    leading := fun first => by
      have head : (decimal n).head? = some '0' := by
        rw [← first]
        cases digits : decimal n with
        | nil => exact absurd digits (decimal_ne_nil n)
        | cons c rest => rfl
      have isZero := eq_zero_of_head?_decimal head
      simp only [isZero, zero isZero]
      rfl
    fraction_digits := by simp [show isDigit '0' = true by decide] }
  negative_eq := rfl
  notWhole := rfl
  text_eq := by simp [NumberToken.text, powerText]
  magnitude_eq := by
    have reads : natOfDigits? 10 0 ((decimal n ++ List.replicate zeros '0') ++ ['0']) =
        some (n * 10 ^ (zeros + 1)) := by
      rw [List.append_assoc, ← List.replicate_succ', natOfDigits?_append, natOfDigits?_decimal]
      exact natOfDigits?_replicate n (zeros + 1)
    have exponent : (0 : Int) - (['0'].length : Nat) = (zeros : Int) - (zeros + 1 : Nat) := by
      simp only [List.length_singleton]
      omega
    rw [ofDigits_eq reads, Option.getD_none, exponent]
    exact Decimal.magnitude_mul_pow_ten n zeros (zeros + 1)

/-- Digits on both sides of the point. -/
theorem spells_point {places : Nat} (inside : places < (decimal n).length) (some_ : 0 < places) :
    NumberToken.Spells
      ⟨negative, (decimal n).take ((decimal n).length - places),
        (decimal n).drop ((decimal n).length - places), none⟩ negative
      ((decimal n).take ((decimal n).length - places) ++
        '.' :: (decimal n).drop ((decimal n).length - places)) ⟨n, -(places : Int)⟩ where
  plain := {
    whole_ne_nil := List.ne_nil_of_length_pos (by rw [List.length_take]; omega)
    whole_digits := fun c member => isDigit_of_mem_decimal (List.mem_of_mem_take member)
    leading := fun first => by
      rw [List.head?_take, if_neg (by omega)] at first
      have isZero := eq_zero_of_head?_decimal first
      rw [isZero] at inside
      rw [decimal, Nat.toDigits_zero, List.length_singleton] at inside
      omega
    fraction_digits := fun c member => isDigit_of_mem_decimal (List.mem_of_mem_drop member) }
  negative_eq := rfl
  notWhole := by
    have behind : (decimal n).drop ((decimal n).length - places) ≠ [] :=
      List.ne_nil_of_length_pos (by rw [List.length_drop]; omega)
    simp [NumberToken.isWhole, behind]
  text_eq := by
    have behind : (decimal n).drop ((decimal n).length - places) ≠ [] :=
      List.ne_nil_of_length_pos (by rw [List.length_drop]; omega)
    simp [NumberToken.text, powerText, behind]
  magnitude_eq := by
    have reads : natOfDigits? 10 0 ((decimal n).take ((decimal n).length - places) ++
        (decimal n).drop ((decimal n).length - places)) = some n := by
      rw [List.take_append_drop]
      exact natOfDigits?_decimal n
    have exponent : (0 : Int) - ((decimal n).drop ((decimal n).length - places)).length =
        -(places : Int) := by
      rw [List.length_drop]
      omega
    rw [ofDigits_eq reads, Option.getD_none, exponent]

/-- All digits behind the point, after zeros. -/
theorem spells_fraction {places : Nat} (outside : (decimal n).length ≤ places) :
    NumberToken.Spells
      ⟨negative, ['0'], List.replicate (places - (decimal n).length) '0' ++ decimal n, none⟩
      negative
      ('0' :: '.' :: (List.replicate (places - (decimal n).length) '0' ++ decimal n))
      ⟨n, -(places : Int)⟩ where
  plain := {
    whole_ne_nil := List.cons_ne_nil _ _
    whole_digits := by simp [show isDigit '0' = true by decide]
    leading := fun _ => rfl
    fraction_digits := fun c member => by
      rcases List.mem_append.mp member with front | back
      · rw [(List.mem_replicate.mp front).2]
        rfl
      · exact isDigit_of_mem_decimal back }
  negative_eq := rfl
  notWhole := by simp [NumberToken.isWhole, decimal_ne_nil]
  text_eq := by simp [NumberToken.text, powerText, decimal_ne_nil]
  magnitude_eq := by
    have reads : natOfDigits? 10 0 (['0'] ++
        (List.replicate (places - (decimal n).length) '0' ++ decimal n)) = some n := by
      have zeros := natOfDigits?_zeros (places - (decimal n).length + 1) (decimal n)
      rw [List.replicate_succ, natOfDigits?_decimal] at zeros
      exact zeros
    have exponent : (0 : Int) -
        (List.replicate (places - (decimal n).length) '0' ++ decimal n).length =
        -(places : Int) := by
      rw [List.length_append, List.length_replicate]
      omega
    rw [ofDigits_eq reads, Option.getD_none, exponent]

/-- One digit before the point, and a power of ten. -/
theorem spells_power (exponent : Int) :
    NumberToken.Spells
      ⟨negative, (decimal n).take 1, (decimal n).drop 1,
        some (exponent + ((decimal n).length - 1 : Nat))⟩ negative
      (Binary64.exponentText true ⟨n, exponent⟩) ⟨n, exponent⟩ where
  plain := {
    whole_ne_nil := List.ne_nil_of_length_pos (by
      have positive := List.length_pos_iff.mpr (decimal_ne_nil n)
      rw [List.length_take]
      omega)
    whole_digits := fun c member => isDigit_of_mem_decimal (List.mem_of_mem_take member)
    leading := fun _ => by
      have positive := List.length_pos_iff.mpr (decimal_ne_nil n)
      rw [List.length_take]
      omega
    fraction_digits := fun c member => isDigit_of_mem_decimal (List.mem_of_mem_drop member) }
  negative_eq := rfl
  notWhole := by simp [NumberToken.isWhole]
  text_eq := by
    simp only [NumberToken.text, powerText_some, Binary64.exponentText, natDigits_eq_decimal,
      List.append_assoc]
    rfl
  magnitude_eq := by
    have reads : natOfDigits? 10 0 ((decimal n).take 1 ++ (decimal n).drop 1) = some n := by
      rw [List.take_append_drop]
      exact natOfDigits?_decimal n
    have power : exponent + ((decimal n).length - 1 : Nat) - ((decimal n).drop 1).length =
        exponent := by
      rw [List.length_drop]
      omega
    rw [ofDigits_eq reads, Option.getD_some, power]

/-- Every decimal is laid out as the spelling of a double. -/
theorem exists_spells {d : Decimal} (zero : d.digits = 0 → d.exponent = 0) :
    ∃ token : NumberToken, token.Spells negative (doubleLayout.decimalText d) d := by
  obtain ⟨n, exponent⟩ := d
  simp only at zero
  simp only [Binary64.Layout.decimalText, doubleLayout]
  split
  · unfold Binary64.positionalText
    simp only
    split
    · obtain ⟨zeros, rfl⟩ : ∃ zeros : Nat, exponent = zeros := ⟨exponent.toNat, by omega⟩
      exact ⟨_, spells_whole negative fun isZero => Int.ofNat_eq_zero.mp (zero isZero)⟩
    · obtain ⟨places, rfl⟩ : ∃ places : Nat, exponent = -(places : Int) :=
        ⟨(-exponent).toNat, by omega⟩
      have count : (-(-(places : Int))).toNat = places := by omega
      rw [count]
      by_cases inside : places < (Binary64.natDigits n).length
      · rw [if_pos inside]
        exact ⟨_, spells_point negative inside (by omega)⟩
      · rw [if_neg inside]
        exact ⟨_, spells_fraction negative (Nat.le_of_not_lt inside)⟩
  · exact ⟨_, spells_power negative exponent⟩

/-- The fewest digits of a magnitude are zero only for zero. -/
theorem exponent_shortest (tie : Binary64.Tie) {magnitude : Nat}
    (finite : magnitude < Binary64.infiniteMagnitude)
    (zero : (Binary64.shortest tie magnitude).digits = 0) :
    (Binary64.shortest tie magnitude).exponent = 0 := by
  have reads := Binary64.magnitude_shortest tie finite
  rw [← Decimal.nearestMagnitude_eq_magnitude, Decimal.nearestMagnitude, if_pos zero] at reads
  subst reads
  rfl

/-- The spelling of a finite double stands for it. -/
theorem exists_token_of_double {x : Binary64} (finite : x.isFinite = true) :
    ∃ token : NumberToken, token.IsPlain ∧ (doubleLayout.text x).toList = token.text ∧
      token.number? = some (.double x) := by
  have below : x.magnitude < Binary64.infiniteMagnitude := of_decide_eq_true finite
  have notNaN : x.isNaN = false := decide_eq_false (by omega)
  have notInfinite : x.isInfinite = false := decide_eq_false (by omega)
  obtain ⟨token, spells⟩ := exists_spells x.isNegative (exponent_shortest .even below)
  refine ⟨token, spells.plain, ?_, ?_⟩
  · rw [spells.text_eq, Binary64.Layout.text, notNaN, notInfinite, if_neg (by simp),
      if_neg (by simp), String.toList_ofList]
    rfl
  · have value : token.double? = some x := by
      have magnitude := spells.magnitude_eq.trans (Binary64.magnitude_shortest .even below)
      rw [NumberToken.double?, spells.negative_eq, Binary64.ofDecimal_eq_self magnitude]
      simp [notInfinite]
    have notInteger : token.integer? = none := by
      simp [NumberToken.integer?, spells.notWhole]
    rw [NumberToken.number?, notInteger, value]
    rfl

end Json

end Reconcile
