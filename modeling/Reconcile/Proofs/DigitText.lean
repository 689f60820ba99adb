import Reconcile.Text.Digits

/-!
# Written numbers

The digits of a written number read back as that number, with any zeros in front, and end where
the first other character stands.
-/

namespace Reconcile

namespace Text

/-! ## Single digits -/

theorem isDigit_digitChar {digit : Nat} (small : digit < 10) :
    isDigit (Nat.digitChar digit) = true := by
  have all : ∀ digit : Fin 10, isDigit (Nat.digitChar digit) = true := by decide
  exact all ⟨digit, small⟩

theorem hexValue?_digitChar {digit : Nat} (small : digit < 16) :
    hexValue? (Nat.digitChar digit) = some digit := by
  have all : ∀ digit : Fin 16, hexValue? (Nat.digitChar digit) = some digit.val := by decide
  exact all ⟨digit, small⟩

/-- A digit is one of ten characters. -/
theorem isDigit_iff {c : Char} : isDigit c = true ↔ ∃ digit < 10, c = Nat.digitChar digit := by
  constructor
  · intro isOne
    unfold isDigit digitValue? at isOne
    split at isOne
    · rename_i within
      have lower : 48 ≤ c.toNat := within.1
      have upper : c.toNat ≤ 57 := within.2
      refine ⟨c.toNat - 48, by omega, Char.toNat_inj.mp ?_⟩
      rw [Nat.toNat_digitChar_of_lt_ten (by omega)]
      omega
    · cases isOne
  · rintro ⟨digit, small, rfl⟩
    exact isDigit_digitChar small

/-- What holds of the ten digits holds of every digit. -/
theorem of_isDigit {p : Char → Prop} (holds : ∀ digit : Fin 10, p (Nat.digitChar digit)) {c : Char}
    (isOne : isDigit c = true) : p c := by
  obtain ⟨digit, small, rfl⟩ := isDigit_iff.mp isOne
  exact holds ⟨digit, small⟩

/-! ## Reading digits -/

theorem natOfDigits?_append (base start : Nat) (text rest : List Char) :
    natOfDigits? base start (text ++ rest) =
      (natOfDigits? base start text).bind fun value => natOfDigits? base value rest := by
  induction text generalizing start with
  | nil => rfl
  | cons c text ih =>
      rw [List.cons_append, natOfDigits?, natOfDigits?]
      cases hexValue? c with
      | none => rfl
      | some value =>
          simp only
          split
          · exact ih _
          · rfl

/-- Digits behind others count for as much less as they are many. -/
theorem natOfDigits?_start {base : Nat} (start : Nat) {text : List Char} {value : Nat}
    (reads : natOfDigits? base 0 text = some value) :
    natOfDigits? base start text = some (start * base ^ text.length + value) := by
  have shifted (start before value : Nat) (text : List Char)
      (reads : natOfDigits? base before text = some value) :
      natOfDigits? base (start + before) text = some (start * base ^ text.length + value) := by
    induction text generalizing start before with
    | nil =>
        cases reads
        simp [natOfDigits?]
    | cons c text ih =>
        rw [natOfDigits?] at reads ⊢
        cases given : hexValue? c with
        | none => simp [given] at reads
        | some digit =>
            simp only [given] at reads ⊢
            split at reads
            · rename_i small
              rw [if_pos small, Nat.add_mul, Nat.add_assoc, ih (start * base) _ reads,
                List.length_cons, Nat.pow_succ, Nat.mul_assoc, Nat.mul_comm base]
            · cases reads
  exact shifted start 0 value text reads

theorem natOfDigits?_lt {base start value : Nat} {text : List Char}
    (reads : natOfDigits? base start text = some value) :
    value < (start + 1) * base ^ text.length := by
  induction text generalizing start with
  | nil =>
      cases reads
      simp
  | cons c text ih =>
      rw [natOfDigits?] at reads
      cases given : hexValue? c with
      | none => simp [given] at reads
      | some digit =>
          simp only [given] at reads
          split at reads
          · rename_i small
            calc value
              _ < (start * base + digit + 1) * base ^ text.length := ih reads
              _ ≤ (start + 1) * base * base ^ text.length := by
                  refine Nat.mul_le_mul_right _ ?_
                  rw [Nat.add_mul, Nat.one_mul]
                  omega
              _ = (start + 1) * base ^ (c :: text).length := by
                  rw [List.length_cons, Nat.pow_succ, Nat.mul_assoc, Nat.mul_comm base]
          · cases reads

theorem natOfDigits?_toDigits {base : Nat} (least : 1 < base) (most : base ≤ 16) (n : Nat) :
    natOfDigits? base 0 (Nat.toDigits base n) = some n := by
  induction n using Nat.strongRecOn with
  | ind n ih =>
      have single {digit : Nat} (small : digit < base) (start : Nat) :
          natOfDigits? base start [Nat.digitChar digit] = some (start * base + digit) := by
        rw [natOfDigits?, hexValue?_digitChar (by omega)]
        simp only [if_pos small, natOfDigits?]
      rw [Nat.toDigits_eq_if least]
      split
      · rename_i small
        rw [single small, Nat.zero_mul, Nat.zero_add]
      · rename_i large
        have shorter : n / base < n := Nat.div_lt_self (by omega) least
        rw [natOfDigits?_append, ih _ shorter, Option.bind_some,
          single (Nat.mod_lt _ (by omega))]
        exact congrArg some (Nat.div_add_mod' n base)

theorem natOfDigits?_zeros (count : Nat) (text : List Char) :
    natOfDigits? 10 0 (List.replicate count '0' ++ text) = natOfDigits? 10 0 text := by
  induction count with
  | zero => rfl
  | succ count ih =>
      rw [List.replicate_succ, List.cons_append, natOfDigits?]
      exact ih

theorem natOfDigits?_replicate (start count : Nat) :
    natOfDigits? 10 start (List.replicate count '0') = some (start * 10 ^ count) := by
  have zeros := natOfDigits?_zeros count []
  rw [List.append_nil] at zeros
  have shifted := natOfDigits?_start start zeros
  rwa [List.length_replicate, Nat.add_zero] at shifted

/-! ## Written numbers -/

theorem natOfDigits?_decimal (n : Nat) : natOfDigits? 10 0 (decimal n) = some n :=
  natOfDigits?_toDigits (by decide) (by decide) n

theorem decimal_ne_nil (n : Nat) : decimal n ≠ [] :=
  Nat.toDigits_ne_nil

theorem isDigit_of_mem_decimal {n : Nat} {c : Char} (member : c ∈ decimal n) :
    isDigit c = true := by
  induction n using Nat.strongRecOn with
  | ind n ih =>
      rw [decimal, Nat.toDigits_eq_if (by decide)] at member
      split at member
      · rename_i small
        rw [List.mem_singleton.mp member]
        exact isDigit_digitChar small
      · rcases List.mem_append.mp member with front | last
        · exact ih (n / 10) (by omega) front
        · rw [List.mem_singleton.mp last]
          exact isDigit_digitChar (Nat.mod_lt _ (by decide))

/-- Only zero begins with the digit zero. -/
theorem head?_decimal {n : Nat} (positive : 0 < n) : (decimal n).head? ≠ some '0' := by
  induction n using Nat.strongRecOn with
  | ind n ih =>
      rw [decimal, Nat.toDigits_eq_if (by decide)]
      split
      · intro same
        have zero : n = 0 := Nat.digitChar_eq_zero.mp (Option.some.inj same)
        omega
      · have front := ih (n / 10) (by omega) (by omega)
        rw [decimal] at front
        cases digits : Nat.toDigits 10 (n / 10) with
        | nil => exact absurd digits Nat.toDigits_ne_nil
        | cons c rest =>
            rw [digits] at front
            exact front

/-- Where a number begins with the digit zero, that is all of it. -/
theorem eq_zero_of_head?_decimal {n : Nat} (zero : (decimal n).head? = some '0') : n = 0 :=
  Nat.eq_zero_of_not_pos fun positive => head?_decimal positive zero

theorem length_decimal_le {n width : Nat} (positive : 0 < width) (small : n < 10 ^ width) :
    (decimal n).length ≤ width :=
  (Nat.length_toDigits_le_iff (by decide) positive).mpr small

/-! ## Padded numbers -/

theorem natOfDigits?_padded (width n : Nat) : natOfDigits? 10 0 (padded width n) = some n := by
  rw [padded, natOfDigits?_zeros]
  exact natOfDigits?_decimal n

theorem isDigit_of_mem_padded {width n : Nat} {c : Char} (member : c ∈ padded width n) :
    isDigit c = true := by
  rcases List.mem_append.mp member with front | back
  · rw [(List.mem_replicate.mp front).2]
    rfl
  · exact isDigit_of_mem_decimal back

theorem length_padded {width n : Nat} (positive : 0 < width) (small : n < 10 ^ width) :
    (padded width n).length = width := by
  have short := length_decimal_le positive small
  rw [padded, List.length_append, List.length_replicate]
  omega

theorem le_length_padded (width n : Nat) : width ≤ (padded width n).length := by
  rw [padded, List.length_append, List.length_replicate]
  omega

/-! ## Where digits end -/

/-- The text does not go on with a digit. -/
def EndsDigits (rest : List Char) : Prop := ∀ c ∈ rest.head?, isDigit c = false

theorem endsDigits_nil : EndsDigits [] := by
  simp [EndsDigits]

theorem endsDigits_cons {c : Char} (other : isDigit c = false) (rest : List Char) :
    EndsDigits (c :: rest) := by
  simpa [EndsDigits] using other

theorem takeWhile_isDigit {digits : List Char} (all : ∀ c ∈ digits, isDigit c = true)
    {rest : List Char} (ends : EndsDigits rest) :
    (digits ++ rest).takeWhile isDigit = digits ∧ (digits ++ rest).dropWhile isDigit = rest := by
  rw [List.takeWhile_append_of_pos all, List.dropWhile_append_of_pos all]
  cases rest with
  | nil => simp
  | cons c rest =>
      have other : isDigit c = false := ends c rfl
      simp [other]

end Text

end Reconcile
