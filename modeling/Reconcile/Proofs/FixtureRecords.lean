import Reconcile.Proofs.FixtureLines
import Reconcile.Proofs.FixtureValues
import Reconcile.Proofs.SerializedRecords

/-!
# Written records

What is read from written records: each record of which every value is kept, and something else for
each of the others.
-/

namespace Reconcile

/-- Whether every value of the record is kept. -/
def Record.isKept (r : Record) : Bool := r.fields.all Value.isKept

namespace Json

/-- A spelled number is on one line. -/
theorem NumberToken.lineFeed_notMem_text {token : NumberToken} (plain : token.IsPlain) :
    '\n' ∉ token.text := by
  have noDigit {text : List Char} (all : ∀ c ∈ text, Text.isDigit c = true) : '\n' ∉ text :=
    fun member => absurd (all '\n' member) (by decide)
  have whole := noDigit plain.whole_digits
  have fraction := noDigit plain.fraction_digits
  have power : '\n' ∉ powerText token.power := by
    cases token.power with
    | none => exact List.not_mem_nil
    | some power =>
        have digits : '\n' ∉ Text.decimal power.natAbs :=
          noDigit fun _ => Text.isDigit_of_mem_decimal
        simp only [powerText, List.mem_cons, digits, or_false]
        split <;> decide
  unfold text
  simp only [List.mem_append, not_or]
  refine ⟨⟨⟨?_, whole⟩, ?_⟩, power⟩
  · split <;> decide
  · split
    · exact List.not_mem_nil
    · simp [fraction]

theorem lineFeed_notMem_integer (n : Int) : '\n' ∉ Text.integer n := by
  rw [← NumberToken.text_ofInteger]
  exact NumberToken.lineFeed_notMem_text (NumberToken.isPlain_ofInteger n)

theorem lineFeed_notMem_double (x : Binary64) : '\n' ∉ (doubleLayout.text x).toList := by
  by_cases finite : x.isFinite = true
  · obtain ⟨token, plain, spelled, -⟩ := exists_token_of_double finite
    rw [spelled]
    exact NumberToken.lineFeed_notMem_text plain
  · rw [text_eq_null finite]
    decide

end Json

namespace Fixture

open Json (Fault)

/-! ## One line -/

theorem lineFeed_notMem_bracketed {α : Type} {write : α → List Char} {items : List α}
    (all : ∀ x ∈ items, '\n' ∉ write x) : '\n' ∉ bracketed (items.map write) := by
  cases items with
  | nil =>
      change '\n' ∉ bracketed []
      decide
  | cons x items =>
      have first := all x List.mem_cons_self
      rw [bracketed_cons]
      simp only [List.mem_cons, List.mem_append, List.mem_flatMap, not_or]
      refine ⟨by decide, ⟨first, ?_⟩, by decide, List.not_mem_nil⟩
      rintro ⟨y, member, inComma⟩
      rcases inComma with impossible | inText
      · cases impossible
      · exact all y (List.mem_cons_of_mem x member) inText

theorem lineFeed_notMem_contentText {value : Value} {text : List Char}
    (given : contentText? value = some text) : '\n' ∉ text := by
  cases value with
  | null => cases given
  | bool b =>
      cases given
      cases b with
      | true => decide
      | false => decide
  | int n =>
      cases given
      exact Json.lineFeed_notMem_integer _
  | bigInt n =>
      cases given
      exact Json.lineFeed_notMem_integer _
  | double x =>
      cases given
      exact Json.lineFeed_notMem_double x
  | text s =>
      cases given
      exact Json.lineFeed_notMem_quote _
  | bytes b =>
      cases given
      refine lineFeed_notMem_bracketed fun octet _ => ?_
      have integer := Json.lineFeed_notMem_integer octet.toNat
      rwa [Text.integer, if_neg (by omega), Int.natAbs_natCast] at integer
  | uuid u =>
      cases given
      exact Json.lineFeed_notMem_quote _
  | dateTime t =>
      cases given
      exact Json.lineFeed_notMem_quote _

theorem lineFeed_notMem_valueText (value : Value) : '\n' ∉ valueText value := by
  have quoted (text : List Char) := Json.lineFeed_notMem_quote text
  unfold valueText
  cases given : contentText? value with
  | none => simp [quoted]
  | some text => simp [quoted, lineFeed_notMem_contentText given]

theorem lineFeed_notMem_recordText (r : Record) : '\n' ∉ recordText r :=
  lineFeed_notMem_bracketed fun value _ => lineFeed_notMem_valueText value

theorem trim_bracketed (items : List (List Char)) :
    Text.trim (bracketed items) = bracketed items := by
  have front : Text.trimStart (bracketed items) = bracketed items :=
    Text.trimStart_of_head (by decide) _
  rw [Text.trim, front, Text.trimEnd, bracketed, List.reverse_append, List.reverse_singleton,
    List.singleton_append, List.dropWhile_cons_of_neg (by decide), List.reverse_cons,
    List.reverse_reverse]

/-! ## Records -/

/-- What reading a written record gives. -/
def readBackRecord (r : Record) : Except Fault Record := (r.fields.mapM readBack).map Record.mk

theorem mapM_readBack_eq_ok_iff {values : List Value} :
    values.mapM readBack = .ok values ↔ values.all Value.isKept = true := by
  induction values with
  | nil => exact iff_of_true rfl rfl
  | cons value values ih =>
      rw [List.mapM_cons, List.all_cons, Bool.and_eq_true, ← ih, ← readBack_eq_ok_iff]
      cases readBack value with
      | error fault => exact iff_of_false (by simp [bind, Except.bind]) (by simp)
      | ok first =>
          cases values.mapM readBack with
          | error fault => exact iff_of_false (by simp [bind, Except.bind]) (by simp)
          | ok others => simp [bind, Except.bind, pure, Except.pure]

theorem readBackRecord_eq_ok_iff {r : Record} : readBackRecord r = .ok r ↔ r.isKept = true := by
  obtain ⟨values⟩ := r
  rw [readBackRecord, Record.isKept, ← mapM_readBack_eq_ok_iff]
  cases values.mapM readBack with
  | error fault => exact iff_of_false (by simp [Except.map]) (by simp)
  | ok others => simp [Except.map]

/-- Only a time could be read back as another value. -/
theorem eq_of_readBack {value other : Value} (regular : ∀ t, value = .dateTime t → t.IsRegular)
    (back : readBack value = .ok other) : other = value := by
  cases value with
  | double x =>
      rw [readBack] at back
      split at back
      · exact (Except.ok.inj back).symm
      · cases back
  | dateTime t =>
      obtain rfl := Except.ok.inj back
      rw [Timestamp.carried_eq_iff.mpr (regular t rfl)]
  | _ => exact (Except.ok.inj back).symm

theorem eq_of_mapM_readBack {values others : List Value}
    (regular : ∀ t, Value.dateTime t ∈ values → t.IsRegular)
    (back : values.mapM readBack = .ok others) : others = values := by
  induction values generalizing others with
  | nil => exact (Except.ok.inj back).symm
  | cons value values ih =>
      rw [List.mapM_cons] at back
      obtain ⟨first, here, back⟩ := exists_of_bind_eq_ok back
      obtain ⟨rest, later, same⟩ := exists_of_bind_eq_ok back
      obtain rfl := Except.ok.inj same
      rw [ih (fun t member => regular t (List.mem_cons_of_mem value member)) later,
        eq_of_readBack (fun t same => regular t (same ▸ List.mem_cons_self)) here]

theorem eq_of_readBackRecord {r other : Record}
    (regular : ∀ t, Value.dateTime t ∈ r.fields → t.IsRegular)
    (back : readBackRecord r = .ok other) : other = r := by
  rw [readBackRecord] at back
  cases values : r.fields.mapM readBack with
  | error fault =>
      rw [values] at back
      cases back
  | ok others =>
      rw [values] at back
      obtain rfl := Except.ok.inj back
      rw [eq_of_mapM_readBack regular values]

theorem recordOfText_recordText (r : Record) :
    recordOfText (recordText r) = readBackRecord r := by
  have starts : ∀ value ∈ r.fields, StartsItem (valueText value) :=
    fun value _ => ⟨'{', _, rfl, by decide, by decide⟩
  have reads : ∀ value ∈ r.fields, ∀ rest, EndsItem rest →
      readValue (valueText value ++ rest) = (readBack value).map fun value => (value, rest) :=
    fun value _ rest _ => readValue_valueText value rest
  obtain ⟨text, brackets, read⟩ := readItems_bracketed starts reads []
  rw [List.append_nil] at brackets
  rw [recordText, brackets, recordOfText, Json.skipBlanks_cons (by decide)]
  simp only [read, readBackRecord]
  cases r.fields.mapM readBack <;> rfl

/-! ## Fixtures -/

theorem read_write (records : List Record) :
    read (write records) = records.map readBackRecord := by
  induction records with
  | nil =>
      rw [read, show write [] = [] from rfl, lines_nil]
      rfl
  | cons r records ih =>
      rw [write, List.flatMap_cons, ← write, line,
        read_line (lineFeed_notMem_recordText r) (trim_bracketed _) (List.cons_ne_nil _ _), ih,
        recordOfText_recordText, List.map_cons]

end Fixture

namespace Serializer

theorem gives_writeAll_iff {records : List Record} :
    jsonLines.Gives (jsonLines.writeAll records) records ↔ ∀ r ∈ records, r.isKept = true := by
  rw [gives_jsonLines_iff, writeAll_jsonLines, Fixture.read_write, List.map_inj_left]
  exact forall₂_congr fun r _ => Fixture.readBackRecord_eq_ok_iff

theorem gives_singleton_iff {r : Record} :
    jsonLines.Gives (jsonLines.writeAll [r]) [r] ↔ r.isKept = true := by
  rw [gives_writeAll_iff, List.forall_mem_singleton]

/-- A line of nothing in front changes nothing. -/
theorem gives_cons_lineFeed {octets : List UInt8} {records : List Record} :
    jsonLines.Gives (Fixture.lineFeed :: octets) records ↔ jsonLines.Gives octets records := by
  rw [gives_jsonLines_iff, gives_jsonLines_iff, Fixture.read_cons_lineFeed]

theorem readsBack_jsonLines {records : List Record} (kept : ∀ r ∈ records, r.isKept = true) :
    jsonLines.ReadsBack records :=
  fun _ inside => gives_writeAll_iff.mpr fun r member => kept r (inside r member)

/-- Reading what was written gives one record after another as it was, and then the end, just if all
doubles in them are finite and no fraction is one second or more but in a leap second, that is behind
the last second of a minute. -/
theorem jsonLines_lossless (records : List Record) :
    jsonLines.Gives (jsonLines.writeAll records) records ↔
      ∀ r ∈ records, (∀ x, Value.double x ∈ r.fields → x.isFinite = true) ∧
        ∀ t, Value.dateTime t ∈ r.fields →
          t.nanos < Timestamp.nanosPerSecond ∨ t.seconds % 60 = 59 := by
  rw [gives_writeAll_iff]
  refine forall₂_congr fun r _ => ?_
  rw [Record.isKept, List.all_eq_true]
  constructor
  · intro kept
    exact ⟨fun x member => kept (.double x) member,
      fun t member => of_decide_eq_true (kept (.dateTime t) member)⟩
  · rintro ⟨finite, regular⟩ value member
    cases value with
    | double x => exact finite x member
    | dateTime t => exact decide_eq_true (regular t member)
    | _ => rfl

/-- A NaN is written as null, which is not read as a double. -/
theorem jsonLines_loses_nan :
    ¬ jsonLines.Gives (jsonLines.writeAll [⟨[.double ⟨0x7ff8000000000000⟩]⟩])
      [⟨[.double ⟨0x7ff8000000000000⟩]⟩] := by
  rw [gives_writeAll_iff]
  decide

end Serializer

end Reconcile
