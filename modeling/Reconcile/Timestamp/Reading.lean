import Reconcile.Text.Blank
import Reconcile.Timestamp.Basic

/-!
# Reading timestamps

Three grammars for a point in time.  The strict one is that of Internet timestamps, the lenient
one allows blanks and signed years, and the third is a bare date, which stands for its midnight.
A reader takes the characters that it accepts off the front of a text.
-/

namespace Reconcile

namespace Timestamp

namespace Reading

/-- One expected character. -/
def character? (expected : Char) : List Char → Option (List Char)
  | c :: rest => if c = expected then some rest else none
  | [] => none

/-- The number written by at least `least` and at most `most` digits. -/
def number? (least most : Nat) (text : List Char) : Option (Nat × List Char) :=
  let digits := (text.take most).takeWhile Text.isDigit
  if digits.length < least then none
  else do
    let value ← Text.natOfDigits? 10 0 digits
    pure (value, text.drop digits.length)

/-- A year after optional blanks: up to four digits, or a sign and any number of digits. -/
def signedYear? (text : List Char) : Option (Int × List Char) :=
  match Text.trimStart text with
  | '-' :: rest => do
      let (year, rest) ← number? 1 rest.length rest
      pure (-(year : Int), rest)
  | '+' :: rest => do
      let (year, rest) ← number? 1 rest.length rest
      pure ((year : Int), rest)
  | rest => do
      let (year, rest) ← number? 1 4 rest
      pure ((year : Int), rest)

/-- One or two digits after optional blanks. -/
def looseNumber? (text : List Char) : Option (Nat × List Char) :=
  number? 1 2 (Text.trimStart text)

/-- A fraction of a second in nanoseconds, after its point; digits past the ninth are dropped. -/
def fraction? (text : List Char) : Option (Nat × List Char) :=
  match text with
  | '.' :: rest =>
      let digits := rest.takeWhile Text.isDigit
      if digits.isEmpty then none
      else do
        let kept := digits.take 9
        let value ← Text.natOfDigits? 10 0 kept
        pure (value * 10 ^ (9 - kept.length), rest.dropWhile Text.isDigit)
  | _ => some (0, text)

/-- The zone letter, or a sign with two digits of hours and two of minutes; `separator` takes what
stands between them.  Gives seconds east of universal time. -/
def offset? (separator : List Char → Option (List Char)) (text : List Char) :
    Option (Int × List Char) :=
  match text with
  | [] => none
  | sign :: rest =>
      if sign = 'Z' ∨ sign = 'z' then some (0, rest)
      else if sign = '+' ∨ sign = '-' ∨ sign = '\u2212' then do
        let (hours, rest) ← number? 2 2 rest
        let rest ← separator rest
        let (minutes, rest) ← number? 2 2 rest
        if 60 ≤ minutes ∨ 24 ≤ hours then none
        else
          let seconds : Int := hours * 3600 + minutes * 60
          pure (if sign = '+' then seconds else -seconds, rest)
      else none

/-- The separator between date and time of day. -/
def dateSeparator? : List Char → Option (List Char)
  | c :: rest => if c = 'T' ∨ c = 't' ∨ c = ' ' then some rest else none
  | [] => none

end Reading

/-- The timestamp of a local date and time; second 60 is a leap second. -/
def ofLocal? (date : Date) (hour minute second nanos : Nat) (offset : Int) : Option Timestamp :=
  if date.isValid && decide (firstYear ≤ date.year ∧ date.year ≤ lastYear) &&
      decide (hour < 24 ∧ minute < 60 ∧ second ≤ 60) then
    let leap := second / 60
    let seconds := date.dayNumber * secondsPerDay + hour * 3600 + minute * 60 + (second - leap : Nat)
    ofParts? (seconds - offset) (nanos + leap * nanosPerSecond)
  else none

open Reading in
/-- The strict grammar: fixed digit counts, one of `T`, `t` and a space between date and time, a
colon inside the offset, and nothing before or after. -/
def ofStrictText? (text : List Char) : Option Timestamp := do
  let (year, rest) ← number? 4 4 text
  let rest ← character? '-' rest
  let (month, rest) ← number? 2 2 rest
  let rest ← character? '-' rest
  let (day, rest) ← number? 2 2 rest
  let rest ← dateSeparator? rest
  let (hour, rest) ← number? 2 2 rest
  let rest ← character? ':' rest
  let (minute, rest) ← number? 2 2 rest
  let rest ← character? ':' rest
  let (second, rest) ← number? 2 2 rest
  let (nanos, rest) ← fraction? rest
  let (offset, rest) ← offset? (character? ':') rest
  if rest.isEmpty then ofLocal? ⟨year, month, day⟩ hour minute second nanos offset else none

open Reading in
/-- Year, month and day with blanks allowed in front of each number, and in front of each hyphen
when `blankHyphens` is set. -/
def Reading.date? (blankHyphens : Bool) (text : List Char) : Option (Date × List Char) := do
  let hyphen? (text : List Char) :=
    character? '-' (if blankHyphens then Text.trimStart text else text)
  let (year, rest) ← signedYear? text
  let rest ← hyphen? rest
  let (month, rest) ← looseNumber? rest
  let rest ← hyphen? rest
  let (day, rest) ← looseNumber? rest
  pure (⟨year, month, day⟩, rest)

open Reading in
/-- The lenient grammar: short numbers, signed years, blanks around the separators and at the end,
the zone also as `UTC`, and hours and minutes of the offset with any blanks and colons between. -/
def ofLenientText? (text : List Char) : Option Timestamp := do
  let colon? (text : List Char) := character? ':' (Text.trimStart text)
  let (date, rest) ← date? true text
  let rest ← dateSeparator? rest
  let (hour, rest) ← looseNumber? rest
  let rest ← colon? rest
  let (minute, rest) ← looseNumber? rest
  let rest ← colon? rest
  let (second, rest) ← looseNumber? rest
  let (nanos, rest) ← fraction? rest
  let rest := Text.trimStart rest
  let (offset, rest) ←
    if (rest.take 3).map Char.toUpper = ['U', 'T', 'C'] then some (0, rest.drop 3)
    else offset? (fun text => some (text.dropWhile fun c => c == ':' || Text.isBlank c)) rest
  if (Text.trimStart rest).isEmpty then ofLocal? date hour minute second nanos offset else none

open Reading in
/-- A bare date, for its midnight. -/
def ofDateText? (text : List Char) : Option Timestamp := do
  let (date, rest) ← date? false text
  if rest.isEmpty then ofLocal? date 0 0 0 0 0 else none

/-- A bound of a range: a strict timestamp or else a bare date. -/
def ofBoundText? (text : String) : Option Timestamp :=
  (ofStrictText? text.toList).or (ofDateText? text.toList)

end Timestamp

end Reconcile
