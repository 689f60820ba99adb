import Mathlib.Algebra.GroupWithZero.Nat
import Reconcile.Calendar

/-!
# Dates of day numbers

Every day number is the number of the date that is found for it, and that date exists.
-/

namespace Reconcile

namespace Date

/-! ## Years -/

/-- A year is as long as its months are together. -/
theorem daysBeforeYear_add_one (year : Int) :
    daysBeforeYear (year + 1) = daysBeforeYear year + (monthLengths year).sum := by
  have months : ((monthLengths year).sum : Int) = 365 + if isLeapYear year then 1 else 0 := by
    unfold monthLengths
    split <;> rfl
  rw [months]
  simp only [daysBeforeYear, isLeapYear, Bool.and_eq_true, Bool.or_eq_true, beq_iff_eq, bne_iff_ne]
  split <;> omega

/-- The year that is found holds the day. -/
theorem yearOfDay_spec (day : Int) :
    daysBeforeYear (yearOfDay day) ≤ day ∧ day < daysBeforeYear (yearOfDay day + 1) := by
  have least : 146097 * (day * 400 / 146097) ≤ day * 400 := by omega
  have most : day * 400 < 146097 * (day * 400 / 146097) + 146097 := by omega
  unfold yearOfDay
  simp only
  generalize day * 400 / 146097 = guess at *
  split
  · rename_i later
    refine ⟨later, ?_⟩
    unfold daysBeforeYear
    omega
  · rename_i notLater
    split
    · rename_i earlier
      rw [Int.sub_add_cancel]
      refine ⟨?_, earlier⟩
      unfold daysBeforeYear
      omega
    · rename_i notEarlier
      exact ⟨Int.not_lt.mp notEarlier, Int.not_le.mp notLater⟩

/-! ## Months -/

/-- The month that is found is as many months on as have passed, and holds the day. -/
theorem monthAndDay_spec (lengths : List Nat) (day first : Nat) (inside : day < lengths.sum) :
    ∃ passed length, monthAndDay lengths first day =
        (first + passed, day - (lengths.take passed).sum + 1) ∧
      lengths[passed]? = some length ∧ (lengths.take passed).sum ≤ day ∧
      day < (lengths.take passed).sum + length := by
  induction lengths generalizing day first with
  | nil => exact absurd inside (by simp)
  | cons length lengths ih =>
      rw [monthAndDay]
      by_cases here : day < length
      · refine ⟨0, length, ?_, rfl, ?_, ?_⟩
        · rw [if_pos here]
          simp
        · simp
        · simpa using here
      · rw [List.sum_cons] at inside
        obtain ⟨passed, last, found, exists_, behind, before⟩ :=
          ih (day - length) (first + 1) (by omega)
        refine ⟨passed + 1, last, ?_, exists_, ?_, ?_⟩
        · rw [if_neg here, found, List.take_succ_cons, List.sum_cons, Nat.sub_sub, Nat.add_assoc,
            Nat.add_comm 1]
        · rw [List.take_succ_cons, List.sum_cons]
          omega
        · rw [List.take_succ_cons, List.sum_cons]
          omega

theorem length_monthLengths (year : Int) : (monthLengths year).length = 12 := rfl

/-! ## Days -/

/-- The date of a day number exists, and has that number. -/
theorem ofDayNumber_spec (number : Int) :
    (ofDayNumber number).isValid = true ∧ (ofDayNumber number).dayNumber = number ∧
      (ofDayNumber number).year = yearOfDay (number + daysBeforeEpoch) := by
  have within := yearOfDay_spec (number + daysBeforeEpoch)
  rw [daysBeforeYear_add_one] at within
  have inside : (number + daysBeforeEpoch -
      daysBeforeYear (yearOfDay (number + daysBeforeEpoch))).toNat <
      (monthLengths (yearOfDay (number + daysBeforeEpoch))).sum := by omega
  obtain ⟨passed, length, found, exists_, behind, before⟩ :=
    monthAndDay_spec _ _ 1 inside
  have date : ofDayNumber number = ⟨yearOfDay (number + daysBeforeEpoch), 1 + passed,
      (number + daysBeforeEpoch - daysBeforeYear (yearOfDay (number + daysBeforeEpoch))).toNat -
        ((monthLengths (yearOfDay (number + daysBeforeEpoch))).take passed).sum + 1⟩ := by
    unfold ofDayNumber
    simp only [found]
  rw [date]
  refine ⟨?_, ?_, rfl⟩
  · simp only [isValid, Nat.add_sub_cancel_left, exists_, decide_eq_true_eq]
    omega
  · simp only [dayNumber, daysBeforeMonth, Nat.add_sub_cancel_left]
    change _ + (((monthLengths _).take passed).sum : Int) + _ - 1 - _ = _
    omega

theorem isValid_ofDayNumber (number : Int) : (ofDayNumber number).isValid = true :=
  (ofDayNumber_spec number).1

theorem dayNumber_ofDayNumber (number : Int) : (ofDayNumber number).dayNumber = number :=
  (ofDayNumber_spec number).2.1

/-- Days do not come before the first day of an earlier year, nor behind that of a later one. -/
theorem year_ofDayNumber_bounds {number first last : Int}
    (least : daysBeforeYear first ≤ number + daysBeforeEpoch)
    (most : number + daysBeforeEpoch < daysBeforeYear (last + 1)) :
    first ≤ (ofDayNumber number).year ∧ (ofDayNumber number).year ≤ last := by
  have within := yearOfDay_spec (number + daysBeforeEpoch)
  rw [(ofDayNumber_spec number).2.2]
  generalize yearOfDay (number + daysBeforeEpoch) = year at *
  unfold daysBeforeYear at *
  omega

end Date

end Reconcile
