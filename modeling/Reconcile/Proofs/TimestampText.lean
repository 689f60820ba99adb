import Reconcile.Proofs.CalendarDays
import Reconcile.Proofs.DigitText
import Reconcile.Timestamp.Reading

/-!
# Timestamps as text

The form with the zone letter reads back as the same timestamp, leap seconds and fractions
included.  Only a fraction of one second or more that is no leap second is carried to the seconds.
-/

namespace Reconcile

namespace Text

theorem trimStart_of_head {c : Char} (visible : isBlank c = false) (rest : List Char) :
    trimStart (c :: rest) = c :: rest := by
  rw [trimStart, List.dropWhile_cons_of_neg (by simp [visible])]

theorem isBlank_of_isDigit {c : Char} (digit : isDigit c = true) : isBlank c = false :=
  of_isDigit (p := fun c => isBlank c = false) (by decide) digit

/-- A padded number has a first digit. -/
theorem padded_eq_cons (width n : Nat) (positive : 0 < width) :
    ∃ c rest, padded width n = c :: rest ∧ isDigit c = true := by
  have long := le_length_padded width n
  cases text : padded width n with
  | nil =>
      rw [text] at long
      exact absurd long (Nat.not_le.mpr positive)
  | cons c rest =>
      have member : c ∈ padded width n := by simp [text]
      exact ⟨c, rest, rfl, isDigit_of_mem_padded member⟩

theorem trimStart_padded {width : Nat} (positive : 0 < width) (n : Nat) (rest : List Char) :
    trimStart (padded width n ++ rest) = padded width n ++ rest := by
  obtain ⟨c, digits, text, digit⟩ := padded_eq_cons width n positive
  rw [text, List.cons_append, trimStart_of_head (isBlank_of_isDigit digit)]

end Text

namespace Timestamp

namespace Reading

open Text (padded EndsDigits)

/-! ## Numbers -/

/-- Digits are read as far as they go, if not more of them stand there than may be taken. -/
theorem number?_digits {least most value : Nat} {digits rest : List Char}
    (all : ∀ c ∈ digits, Text.isDigit c = true)
    (reads : Text.natOfDigits? 10 0 digits = some value) (enough : least ≤ digits.length)
    (fits : digits.length ≤ most) (ends : digits.length = most ∨ EndsDigits rest) :
    number? least most (digits ++ rest) = some (value, rest) := by
  have cut : EndsDigits (rest.take (most - digits.length)) := by
    rcases ends with full | ends
    · rw [full, Nat.sub_self]
      exact Text.endsDigits_nil
    · intro c first
      refine ends c ?_
      rw [List.head?_take] at first
      split at first
      · cases first
      · exact first
  have taken : ((digits ++ rest).take most).takeWhile Text.isDigit = digits := by
    rw [List.take_append, List.take_of_length_le fits]
    exact (Text.takeWhile_isDigit all cut).1
  rw [number?, taken, if_neg (Nat.not_lt.mpr enough), reads, List.drop_left]
  rfl

theorem number?_padded {least width n : Nat} (positive : 0 < width) (enough : least ≤ width)
    (small : n < 10 ^ width) (rest : List Char) :
    number? least width (padded width n ++ rest) = some (n, rest) := by
  have length := Text.length_padded positive small
  exact number?_digits (fun _ => Text.isDigit_of_mem_padded) (Text.natOfDigits?_padded width n)
    (length.symm ▸ enough) (Nat.le_of_eq length) (Or.inl length)

theorem looseNumber?_padded {n : Nat} (small : n < 100) (rest : List Char) :
    looseNumber? (padded 2 n ++ rest) = some (n, rest) := by
  rw [looseNumber?, Text.trimStart_padded (by decide)]
  exact number?_padded (by decide) (by decide) small rest

/-- A sign is followed by as many digits as there are. -/
theorem number?_signed (n : Nat) {rest : List Char} (ends : EndsDigits rest) :
    number? 1 (padded 4 n ++ rest).length (padded 4 n ++ rest) = some (n, rest) := by
  have long := Text.le_length_padded 4 n
  exact number?_digits (fun _ => Text.isDigit_of_mem_padded) (Text.natOfDigits?_padded 4 n)
    (by omega) (by simp) (Or.inr ends)

/-! ## Dates -/

theorem signedYear?_yearText (year : Int) {rest : List Char} (ends : EndsDigits rest) :
    signedYear? (yearText year ++ rest) = some (year, rest) := by
  have signed {c : Char} (sign : c = '-' ∨ c = '+') (n : Nat) :
      signedYear? (c :: padded 4 n ++ rest) = some (if c = '-' then -(n : Int) else n, rest) := by
    rcases sign with rfl | rfl
    · rw [List.cons_append, signedYear?, Text.trimStart_of_head (by decide)]
      simp only [number?_signed n ends]
      rfl
    · rw [List.cons_append, signedYear?, Text.trimStart_of_head (by decide)]
      simp only [number?_signed n ends]
      rfl
  unfold yearText
  split
  · rename_i plain
    obtain ⟨c, digits, text, digit⟩ := Text.padded_eq_cons 4 year.toNat (by decide)
    have read : number? 1 4 (padded 4 year.toNat ++ rest) = some (year.toNat, rest) :=
      number?_padded (by decide) (by decide) (by omega) rest
    have same : (year.toNat : Int) = year := Int.toNat_of_nonneg plain.1
    rw [signedYear?, Text.trimStart_padded (by decide)]
    rw [text] at read ⊢
    split
    · rename_i _ _ starts
      rw [(List.cons.inj starts).1] at digit
      cases digit
    · rename_i _ _ starts
      rw [(List.cons.inj starts).1] at digit
      cases digit
    · rw [read]
      exact congrArg (fun year => some (year, rest)) same
  · by_cases negative : year < 0
    · rw [if_pos negative, signed (Or.inl rfl), if_pos rfl]
      exact congrArg (fun year => some (year, rest)) (by omega)
    · rw [if_neg negative, signed (Or.inr rfl), if_neg (by decide)]
      exact congrArg (fun year => some (year, rest)) (by omega)

/-- Year, month and day read back; a month and a day have two digits. -/
theorem date?_text {date : Date} (month : date.month < 100) (day : date.day < 100)
    (rest : List Char) :
    date? true (yearText date.year ++ '-' :: padded 2 date.month ++ '-' :: padded 2 date.day ++
      rest) = some (date, rest) := by
  have hyphen (rest : List Char) : character? '-' (Text.trimStart ('-' :: rest)) = some rest := by
    rw [Text.trimStart_of_head (by decide)]
    rfl
  have ends (rest : List Char) : EndsDigits ('-' :: rest) := Text.endsDigits_cons (by decide) rest
  simp only [date?, List.append_assoc, List.cons_append, signedYear?_yearText _ (ends _), if_true,
    hyphen, looseNumber?_padded month, looseNumber?_padded day, Option.bind_eq_bind,
    Option.bind_some]
  rfl

/-! ## Fractions -/

theorem fraction?_padded {width n : Nat} (positive : 0 < width) (most : width ≤ 9)
    (small : n < 10 ^ width) {rest : List Char} (ends : EndsDigits rest) :
    fraction? ('.' :: padded width n ++ rest) = some (n * 10 ^ (9 - width), rest) := by
  have length := Text.length_padded positive small
  have all : ∀ c ∈ padded width n, Text.isDigit c = true := fun _ => Text.isDigit_of_mem_padded
  obtain ⟨taken, dropped⟩ := Text.takeWhile_isDigit all ends
  have some_ : (padded width n).isEmpty = false := by
    rw [List.isEmpty_eq_false_iff, ← List.length_pos_iff]
    omega
  have kept : (padded width n).take 9 = padded width n := List.take_of_length_le (by omega)
  rw [List.cons_append, fraction?]
  simp only [taken, dropped, some_, kept, Text.natOfDigits?_padded, length]
  rfl

theorem fraction?_fractionText {nanos : Nat} (small : nanos < nanosPerSecond) {c : Char}
    (other : Text.isDigit c = false) (notPoint : c ≠ '.') (rest : List Char) :
    fraction? (fractionText nanos ++ c :: rest) = some (nanos, c :: rest) := by
  have ends : EndsDigits (c :: rest) := Text.endsDigits_cons other rest
  unfold nanosPerSecond at small
  unfold fractionText
  split
  · rename_i whole
    rw [whole, List.nil_append, fraction?]
    intro _ starts
    exact notPoint (List.cons.inj starts).1
  · split
    · rw [fraction?_padded (by decide) (by decide) (by omega) ends]
      exact congrArg (fun nanos => some (nanos, c :: rest)) (by omega)
    · split
      · rw [fraction?_padded (by decide) (by decide) (by omega) ends]
        exact congrArg (fun nanos => some (nanos, c :: rest)) (by omega)
      · rw [fraction?_padded (by decide) (by decide) (by omega) ends]
        exact congrArg (fun nanos => some (nanos, c :: rest)) (by omega)

end Reading

/-! ## Timestamps -/

/-- Whether a fraction of one second or more is a leap second. -/
def IsRegular (t : Timestamp) : Prop := t.nanos < nanosPerSecond ∨ t.seconds % 60 = 59

instance (t : Timestamp) : Decidable t.IsRegular := inferInstanceAs (Decidable (_ ∨ _))

theorem carried_range {t : Timestamp} (irregular : ¬ t.IsRegular) :
    (firstSecond ≤ t.seconds + 1 ∧ t.seconds + 1 ≤ lastSecond) ∧
      t.nanos - nanosPerSecond < 2 * nanosPerSecond := by
  obtain ⟨least, most⟩ := t.seconds_range
  have range := t.nanos_range
  unfold IsRegular at irregular
  unfold firstSecond at least ⊢
  unfold lastSecond at most ⊢
  omega

/-- The timestamp with its fraction carried to the seconds, unless it is regular. -/
def carried (t : Timestamp) : Timestamp :=
  if regular : t.IsRegular then t
  else ⟨t.seconds + 1, t.nanos - nanosPerSecond, (carried_range regular).1, (carried_range regular).2⟩

theorem carried_eq_iff {t : Timestamp} : t.carried = t ↔ t.IsRegular := by
  unfold carried
  split
  · rename_i regular
    exact iff_of_true rfl regular
  · rename_i irregular
    refine iff_of_false (fun same => ?_) irregular
    have seconds := congrArg Timestamp.seconds same
    simp only at seconds
    omega

theorem isRegular_carried (t : Timestamp) : t.carried.IsRegular := by
  unfold carried
  split
  · rename_i regular
    exact regular
  · refine .inl ?_
    have range := t.nanos_range
    simp only
    omega

/-- What is carried shows as it did before. -/
theorem localText_carried (t : Timestamp) : t.carried.localText = t.localText := by
  unfold carried
  split
  · rfl
  · rename_i irregular
    have range := t.nanos_range
    unfold IsRegular nanosPerSecond at irregular
    unfold nanosPerSecond at range
    have day : (t.seconds + 1) / secondsPerDay = t.seconds / secondsPerDay := by
      unfold secondsPerDay
      omega
    have second : ((t.seconds + 1) % secondsPerDay).toNat =
        (t.seconds % secondsPerDay).toNat + 1 := by
      unfold secondsPerDay
      omega
    have inMinute : (t.seconds % secondsPerDay).toNat % 60 < 59 := by
      unfold secondsPerDay
      omega
    simp only [localText, date, secondOfDay, nanosPerSecond, day, second]
    generalize (t.seconds % secondsPerDay).toNat = second at inMinute
    have hour : (second + 1) / 3600 = second / 3600 := by omega
    have minute : (second + 1) / 60 % 60 = second / 60 % 60 := by omega
    have shown : (second + 1) % 60 + (t.nanos - 1000000000) / 1000000000 =
        second % 60 + t.nanos / 1000000000 := by omega
    have fraction : (t.nanos - 1000000000) % 1000000000 = t.nanos % 1000000000 := by omega
    rw [hour, minute, shown, fraction]

/-- A regular timestamp is that of its own date and time of day. -/
theorem ofLocal?_self {t : Timestamp} (regular : t.IsRegular) :
    ofLocal? t.date (t.secondOfDay / 3600) (t.secondOfDay / 60 % 60)
      (t.secondOfDay % 60 + t.nanos / nanosPerSecond) (t.nanos % nanosPerSecond) 0 = some t := by
  obtain ⟨least, most⟩ := t.seconds_range
  have nanosRange := t.nanos_range
  unfold IsRegular at regular
  have validDate : t.date.isValid = true := Date.isValid_ofDayNumber _
  have dayNumber : t.date.dayNumber = t.seconds / secondsPerDay := Date.dayNumber_ofDayNumber _
  have year : firstYear ≤ t.date.year ∧ t.date.year ≤ lastYear := by
    have first : Date.daysBeforeYear firstYear = -95745764 := by decide
    have last : Date.daysBeforeYear (lastYear + 1) = 95745765 := by decide
    refine Date.year_ofDayNumber_bounds ?_ ?_
    · rw [first]
      unfold firstSecond at least
      unfold secondsPerDay Date.daysBeforeEpoch
      omega
    · rw [last]
      unfold lastSecond at most
      unfold secondsPerDay Date.daysBeforeEpoch
      omega
  have sinceMidnight : (t.secondOfDay : Int) = t.seconds % 86400 := by
    unfold secondOfDay secondsPerDay
    omega
  have self := t.ofParts?_self
  generalize t.secondOfDay = second at *
  generalize t.seconds = seconds at *
  generalize t.nanos = nanos at *
  unfold nanosPerSecond at nanosRange regular
  unfold secondsPerDay at dayNumber
  -- A fraction of a second or more stands only in the last second of a minute.
  have leap : (second % 60 + nanos / nanosPerSecond) / 60 = nanos / nanosPerSecond := by
    unfold nanosPerSecond
    omega
  have time : second / 3600 < 24 ∧ second / 60 % 60 < 60 ∧
      second % 60 + nanos / nanosPerSecond ≤ 60 := by
    unfold nanosPerSecond
    omega
  have parts : t.date.dayNumber * secondsPerDay + ((second / 3600 : Nat) : Int) * 3600 +
      ((second / 60 % 60 : Nat) : Int) * 60 +
      ((second % 60 + nanos / nanosPerSecond - nanos / nanosPerSecond : Nat) : Int) - 0 =
        seconds := by
    rw [dayNumber, Nat.add_sub_cancel]
    unfold secondsPerDay
    omega
  rw [ofLocal?, validDate, decide_eq_true year, decide_eq_true time]
  simp only [leap, Bool.and_self, if_true]
  rw [parts, Nat.mod_add_div']
  exact self

/-- A month and a day of a date have at most two digits. -/
theorem month_day_of_isValid {date : Date} (valid : date.isValid = true) :
    date.month < 100 ∧ date.day < 100 := by
  unfold Date.isValid at valid
  split at valid
  · rename_i length found
    simp only [decide_eq_true_eq] at valid
    obtain ⟨_, _, short⟩ := valid
    have months := (List.getElem?_eq_some_iff.mp found).1
    have lengths : ∀ length ∈ Date.monthLengths date.year, length ≤ 31 := by
      unfold Date.monthLengths
      split <;> decide
    have bound := lengths length (List.mem_of_getElem? found)
    rw [Date.length_monthLengths] at months
    omega
  · cases valid

open Reading in
/-- The form with the zone letter reads back. -/
theorem ofLenientText?_of_isRegular {t : Timestamp} (regular : t.IsRegular) :
    ofLenientText? t.zoneLetterText = some t := by
  obtain ⟨month, day⟩ : t.date.month < 100 ∧ t.date.day < 100 :=
    month_day_of_isValid (Date.isValid_ofDayNumber _)
  have fraction : t.nanos % nanosPerSecond < nanosPerSecond := Nat.mod_lt _ (by decide)
  have hour : t.secondOfDay / 3600 < 100 := by
    unfold secondOfDay secondsPerDay
    omega
  have minute : t.secondOfDay / 60 % 60 < 100 := by omega
  have second : t.secondOfDay % 60 + t.nanos / nanosPerSecond < 100 := by
    have range := t.nanos_range
    unfold nanosPerSecond at range ⊢
    omega
  have text : t.zoneLetterText =
      yearText t.date.year ++ '-' :: Text.padded 2 t.date.month ++
        '-' :: Text.padded 2 t.date.day ++ 'T' :: (Text.padded 2 (t.secondOfDay / 3600) ++
          ':' :: (Text.padded 2 (t.secondOfDay / 60 % 60) ++
            ':' :: (Text.padded 2 (t.secondOfDay % 60 + t.nanos / nanosPerSecond) ++
              (fractionText (t.nanos % nanosPerSecond) ++ ['Z'])))) := by
    simp [zoneLetterText, localText]
  have separator (rest : List Char) : dateSeparator? ('T' :: rest) = some rest := rfl
  have colon (rest : List Char) : character? ':' (Text.trimStart (':' :: rest)) = some rest := by
    rw [Text.trimStart_of_head (by decide)]
    rfl
  have zone (between : List Char → Option (List Char)) : offset? between ['Z'] = some (0, []) := rfl
  have trimmed : Text.trimStart ['Z'] = ['Z'] := rfl
  have letter : ¬ (['Z'].take 3).map Char.toUpper = ['U', 'T', 'C'] := by decide
  rw [ofLenientText?, text]
  simp only [date?_text month day, separator, looseNumber?_padded hour, colon,
    looseNumber?_padded minute, looseNumber?_padded second,
    fraction?_fractionText fraction (c := 'Z') (by decide) (by decide), trimmed, if_neg letter,
    zone, Option.bind_eq_bind, Option.bind_some]
  exact ofLocal?_self regular

theorem ofLenientText?_zoneLetterText (t : Timestamp) :
    ofLenientText? t.zoneLetterText = some t.carried := by
  rw [zoneLetterText, ← localText_carried]
  exact ofLenientText?_of_isRegular t.isRegular_carried

end Timestamp

end Reconcile
