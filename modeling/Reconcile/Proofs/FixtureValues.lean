import Reconcile.Proofs.FixtureItems
import Reconcile.Proofs.ListPasses
import Reconcile.Proofs.NumberText
import Reconcile.Proofs.QuotedText
import Reconcile.Proofs.TimestampText
import Reconcile.Proofs.UuidText

/-!
# Written values

A written value reads back as that value, but for two exceptions.  A double that has no number is
written as null, and a double is not read from that.  A time whose fraction is one second or more
reads back as another time, unless it is a leap second.
-/

namespace Reconcile

/-- Whether the value is no infinity and no NaN, and no time with a whole second in its fraction that
is no leap second. -/
def Value.isKept : Value → Bool
  | .double x => x.isFinite
  | .dateTime t => decide t.IsRegular
  | _ => true

namespace Json

/-- A spelled number begins like one. -/
theorem NumberToken.text_eq_cons {token : NumberToken} (plain : token.IsPlain) :
    ∃ c rest, token.text = c :: rest ∧ startsNumber c = true := by
  obtain ⟨negative, whole, fraction, power⟩ := token
  cases negative with
  | true => exact ⟨'-', _, rfl, rfl⟩
  | false =>
      cases whole with
      | nil => exact absurd rfl plain.whole_ne_nil
      | cons c whole =>
          have digit : Text.isDigit c = true := plain.whole_digits c List.mem_cons_self
          exact ⟨c, _, rfl, by rw [startsNumber, digit, Bool.or_true]⟩

/-- A double that is infinite or not a number has no number. -/
theorem text_eq_null {x : Binary64} (notFinite : ¬ x.isFinite = true) :
    doubleLayout.text x = "null" := by
  rw [Binary64.Layout.text]
  by_cases notANumber : x.isNaN = true
  · rw [if_pos notANumber]
    rfl
  · have infinite : x.isInfinite = true := by
      simp only [Binary64.isFinite, Binary64.isNaN, Binary64.isInfinite,
        decide_eq_true_eq] at notFinite notANumber ⊢
      omega
    rw [if_neg notANumber, if_pos infinite]
    split
    · rfl
    · rfl

end Json

namespace Fixture

open Json (Fault)

theorem EndsItem.endsNumber {rest : List Char} (ends : EndsItem rest) : Json.EndsNumber rest := by
  obtain ⟨more, rfl | rfl⟩ := ends
  · intro c first
    cases first
    decide
  · intro c first
    cases first
    decide

/-! ## Content -/

theorem readText_quote (text rest : List Char) :
    readText (Json.quote text ++ rest) = .ok (text, rest) := by
  rw [Json.quote_append, readText, Json.skipBlanks_cons (by decide)]
  exact Json.readString_flatMap_escape text rest

/-- A spelled number of a known kind. -/
theorem readInteger_integer {least most n : Int} (wide : -2 ^ 63 ≤ least ∧ most < 2 ^ 64)
    (within : least ≤ n ∧ n ≤ most) {rest : List Char} (ends : Json.EndsNumber rest) :
    readInteger least most (Text.integer n ++ rest) = .ok (n, rest) := by
  have plain := Json.NumberToken.isPlain_ofInteger n
  obtain ⟨c, text, begins, starts⟩ := Json.NumberToken.text_eq_cons plain
  have read := Json.readNumber_text plain ends
  have spelled := Json.NumberToken.integer?_ofInteger (n := n) (by omega) (by omega)
  rw [← Json.NumberToken.text_ofInteger, readInteger]
  rw [begins, List.cons_append] at read ⊢
  rw [Json.skipBlanks_cons (Json.isBlank_of_startsNumber starts)]
  simp only [List.head?_cons, Option.any_some, starts, if_true, read, bind, Except.bind, spelled]
  exact if_pos within

theorem readOctet_decimal (octet : UInt8) {rest : List Char} (ends : Json.EndsNumber rest) :
    readOctet (Text.decimal octet.toNat ++ rest) = .ok (octet, rest) := by
  have small : (octet.toNat : Int) ≤ 255 := by
    have bound := octet.toNat_lt
    omega
  have spelled : Text.decimal octet.toNat = Text.integer (octet.toNat : Int) := by
    rw [Text.integer, if_neg (by omega), Int.natAbs_natCast]
  rw [readOctet, spelled, readInteger_integer (by decide) ⟨by omega, small⟩ ends]
  simp [bind, Except.bind]

theorem startsItem_decimal (octet : UInt8) : StartsItem (Text.decimal octet.toNat) := by
  have plain := Json.NumberToken.isPlain_ofInteger octet.toNat
  obtain ⟨c, text, begins, starts⟩ := Json.NumberToken.text_eq_cons plain
  rw [Json.NumberToken.text_ofInteger, Text.integer, if_neg (by omega),
    Int.natAbs_natCast] at begins
  refine ⟨c, text, begins, Json.isBlank_of_startsNumber starts, ?_⟩
  rintro rfl
  cases starts

theorem readBytes_bracketed (octets : List UInt8) (rest : List Char) :
    readBytes (bracketed (octets.map fun octet => Text.decimal octet.toNat) ++ rest) =
      .ok (octets, rest) := by
  have reads : ∀ octet ∈ octets, ∀ rest, EndsItem rest →
      readOctet (Text.decimal octet.toNat ++ rest) =
        (Except.ok octet).map fun octet => (octet, rest) :=
    fun octet _ _ ends => readOctet_decimal octet ends.endsNumber
  obtain ⟨text, brackets, read⟩ :=
    readItems_bracketed (fun octet _ => startsItem_decimal octet) reads rest
  rw [mapM_ok] at read
  rw [brackets, readBytes, Json.skipBlanks_cons (by decide)]
  exact read

/-- A double that has a number reads back; what stands for the others is no number. -/
theorem readDouble_text (x : Binary64) {rest : List Char} (ends : Json.EndsNumber rest) :
    readDouble ((Json.doubleLayout.text x).toList ++ rest) =
      if x.isFinite then .ok (x, rest) else .error .malformed := by
  by_cases finite : x.isFinite = true
  · obtain ⟨token, plain, spelled, number⟩ := Json.exists_token_of_double finite
    obtain ⟨c, text, begins, starts⟩ := Json.NumberToken.text_eq_cons plain
    have read := Json.readNumber_text plain ends
    rw [if_pos finite, spelled, readDouble]
    rw [begins, List.cons_append] at read ⊢
    rw [Json.skipBlanks_cons (Json.isBlank_of_startsNumber starts)]
    simp only [List.head?_cons, Option.any_some, starts, if_true, read, bind, Except.bind, number]
    rfl
  · rw [if_neg finite, Json.text_eq_null finite]
    rfl

/-- The kind of a value. -/
def kindOf (value : Value) : Kind :=
  match value.fieldType? with
  | none => .null
  | some type => .typed type

/-- What reading a written value gives. -/
def readBack : Value → Except Fault Value
  | .double x => if x.isFinite then .ok (.double x) else .error .malformed
  | .dateTime t => .ok (.dateTime t.carried)
  | value => .ok value

theorem readBack_eq_ok_iff {value : Value} : readBack value = .ok value ↔ value.isKept = true := by
  cases value with
  | double x =>
      rw [readBack, Value.isKept]
      by_cases finite : x.isFinite = true
      · rw [if_pos finite]
        exact iff_of_true rfl finite
      · rw [if_neg finite]
        exact iff_of_false (by simp) finite
  | dateTime t =>
      rw [readBack, Value.isKept, decide_eq_true_iff, ← Timestamp.carried_eq_iff]
      simp
  | _ => exact iff_of_true rfl rfl

theorem readContent_contentText {value : Value} {content : List Char}
    (given : contentText? value = some content) (rest : List Char) :
    readContent (kindOf value) (content ++ '}' :: rest) =
      (readBack value).map fun value => (value, '}' :: rest) := by
  have ends : Json.EndsNumber ('}' :: rest) := by
    intro c first
    cases first
    decide
  cases value with
  | null => cases given
  | bool b =>
      cases given
      cases b with
      | true => rfl
      | false => rfl
  | int n =>
      cases given
      have within : intBounds.1 ≤ n.toInt ∧ n.toInt ≤ intBounds.2 :=
        ⟨n.le_toInt, Int.le_sub_one_of_lt n.toInt_lt⟩
      have read := readInteger_integer (by decide) within ends
      simp only [kindOf, Value.fieldType?, readContent, read, bind, Except.bind, Int32.ofInt_toInt]
      rfl
  | bigInt n =>
      cases given
      have within : bigIntBounds.1 ≤ n.toInt ∧ n.toInt ≤ bigIntBounds.2 :=
        ⟨n.le_toInt, Int.le_sub_one_of_lt n.toInt_lt⟩
      have read := readInteger_integer (by decide) within ends
      simp only [kindOf, Value.fieldType?, readContent, read, bind, Except.bind, Int64.ofInt_toInt]
      rfl
  | double x =>
      cases given
      have read := readDouble_text x ends
      by_cases finite : x.isFinite = true
      · rw [if_pos finite] at read
        simp only [kindOf, Value.fieldType?, readContent, read, bind, Except.bind, readBack, finite]
        rfl
      · rw [if_neg finite] at read
        simp only [kindOf, Value.fieldType?, readContent, read, bind, Except.bind, readBack, finite]
        rfl
  | text s =>
      cases given
      simp only [kindOf, Value.fieldType?, readContent, readText_quote, bind, Except.bind,
        String.ofList_toList]
      rfl
  | bytes b =>
      cases given
      simp only [kindOf, Value.fieldType?, readContent, readBytes_bracketed, bind, Except.bind]
      rfl
  | uuid u =>
      cases given
      simp only [kindOf, Value.fieldType?, readContent, readText_quote, bind, Except.bind,
        Uuid.ofText?_text]
      rfl
  | dateTime t =>
      cases given
      simp only [kindOf, Value.fieldType?, readContent, readText_quote, bind, Except.bind,
        Timestamp.ofLenientText?_zoneLetterText]
      rfl

/-! ## Members -/

theorem nextMember_first {name : List Char} {member : Member}
    (known : Member.ofName? name = some member) (fuel : Nat) (rest : List Char) :
    nextMember (fuel + 1) true (Json.quote name ++ rest) = .ok (some member, rest) := by
  have next : Json.nextMember true (Json.quote name ++ rest) =
      .ok (some (name.flatMap Json.escape ++ '"' :: rest)) := by
    rw [Json.quote_append, Json.nextMember, Json.skipBlanks_cons (by decide)]
    rfl
  rw [nextMember, next]
  simp only [bind, Except.bind, Json.readString_flatMap_escape, known]

theorem nextMember_comma {name : List Char} {member : Member}
    (known : Member.ofName? name = some member) (fuel : Nat) (rest : List Char) :
    nextMember (fuel + 1) false (',' :: (Json.quote name ++ rest)) = .ok (some member, rest) := by
  have next : Json.nextMember false (',' :: (Json.quote name ++ rest)) =
      .ok (some (name.flatMap Json.escape ++ '"' :: rest)) := by
    have comma : Json.isBlank ',' = false := by decide
    have mark : Json.isBlank '"' = false := by decide
    simp [Json.quote_append, Json.nextMember, Json.skipBlanks_cons comma,
      Json.skipBlanks_cons mark]
  rw [nextMember, next]
  simp only [bind, Except.bind, Json.readString_flatMap_escape, known]

theorem nextMember_closing (fuel : Nat) (rest : List Char) :
    nextMember (fuel + 1) false ('}' :: rest) = .ok (none, '}' :: rest) := by
  have next : Json.nextMember false ('}' :: rest) = .ok none := by
    rw [Json.nextMember, Json.skipBlanks_cons (by decide)]
    rfl
  rw [nextMember, next]
  rfl

theorem lastMember_closing (rest : List Char) : lastMember ('}' :: rest) = .ok rest := by
  rw [lastMember, nextMember_closing]
  simp only [bind, Except.bind, Json.closing_cons (show Json.isBlank '}' = false by decide)]

/-- A kind is read from its name. -/
theorem readKind_kindName (value : Value) (rest : List Char) :
    readKind (Json.quote (kindName value).toList ++ rest) = .ok (kindOf value, rest) := by
  have known : kindOfText (kindName value).toList = .ok (kindOf value) := by
    rw [kindOfText, String.ofList_toList]
    cases value with
    | null => rfl
    | bool => rfl
    | int => rfl
    | bigInt => rfl
    | double => rfl
    | text => rfl
    | bytes => rfl
    | uuid => rfl
    | dateTime => rfl
  rw [Json.quote_append, readKind, Json.skipBlanks_cons (by decide)]
  simp only [bind, Except.bind, Json.readString_flatMap_escape, known]

/-! ## Values -/

/-- Only null has no content. -/
theorem eq_null_of_contentText? {value : Value} (noContent : contentText? value = none) :
    value = .null := by
  cases value with
  | null => rfl
  | _ => cases noContent

/-- A written value is read up to its closing brace. -/
theorem readValue_valueText (value : Value) (rest : List Char) :
    readValue (valueText value ++ rest) = (readBack value).map fun value => (value, rest) := by
  have type : Member.ofName? "type".toList = some .kind := by decide
  have content : Member.ofName? "value".toList = some .content := by decide
  cases given : contentText? value with
  | none =>
      have kind : kindOf .null = .null := rfl
      obtain rfl := eq_null_of_contentText? given
      have written : valueText .null ++ rest =
          '{' :: (Json.quote "type".toList ++
            ':' :: (Json.quote (kindName .null).toList ++ '}' :: rest)) := by
        simp [valueText, given]
      rw [written, readValue, Json.skipBlanks_cons (by decide)]
      simp only [readObject, nextMember_first type, bind, Except.bind, Json.afterColon_cons,
        readKind_kindName, nextMember_closing, kind, if_true,
        Json.closing_cons (show Json.isBlank '}' = false by decide)]
      rfl
  | some text =>
      have written : valueText value ++ rest =
          '{' :: (Json.quote "type".toList ++
            ':' :: (Json.quote (kindName value).toList ++
              ',' :: (Json.quote "value".toList ++ ':' :: (text ++ '}' :: rest)))) := by
        simp [valueText, given]
      rw [written, readValue, Json.skipBlanks_cons (by decide)]
      simp only [readObject, nextMember_first type, bind, Except.bind, Json.afterColon_cons,
        readKind_kindName, nextMember_comma content, readContent_contentText given]
      cases readBack value with
      | error fault => rfl
      | ok value =>
          simp only [Except.map, lastMember_closing]

end Fixture

end Reconcile
