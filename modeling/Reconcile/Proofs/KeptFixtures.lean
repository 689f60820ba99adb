import Reconcile.Proofs.DoubleArithmetic
import Reconcile.Proofs.FixtureRecords

/-!
# Kept fixtures

Whatever is read from a fixture is kept when it is written again: a number that is spelled in it
stands for no infinity and no NaN, and a time that is spelled in it has its leap second at the end of
a minute.
-/

namespace Reconcile

/-! ## Numbers -/

namespace Binary64

/-- A decimal that is not rounded to infinity is finite. -/
theorem isFinite_ofDecimal {negative : Bool} {d : Decimal}
    (notInfinite : (ofDecimal negative d).isInfinite = false) :
    (ofDecimal negative d).isFinite = true := by
  have most : d.nearestMagnitude ≤ infiniteMagnitude := by
    rw [Decimal.nearestMagnitude_eq_magnitude]
    exact magnitudeOfRatio_le _ _
  have same : (ofDecimal negative d).magnitude = d.nearestMagnitude :=
    magnitude_ofMagnitude (Nat.lt_of_le_of_lt most infiniteMagnitude_lt)
  rw [isInfinite, same, decide_eq_false_iff_not] at notInfinite
  rw [isFinite, same]
  exact decide_eq_true (Nat.lt_of_le_of_ne most notInfinite)

end Binary64

/-! ## Times -/

namespace Timestamp

namespace Reading

theorem fraction?_lt {text rest : List Char} {nanos : Nat}
    (given : fraction? text = some (nanos, rest)) : nanos < nanosPerSecond := by
  unfold fraction? at given
  split at given
  · simp only at given
    split at given
    · cases given
    · obtain ⟨value, read, same⟩ := Option.bind_eq_some_iff.mp given
      have small := Text.natOfDigits?_lt read
      rw [Nat.zero_add, Nat.one_mul] at small
      obtain ⟨rfl, -⟩ := Prod.mk.inj (Option.some.inj same)
      rename_i digits _
      generalize width : ((digits.takeWhile Text.isDigit).take 9).length = length at small
      have few : length ≤ 9 := width ▸ List.length_take_le 9 _
      calc value * 10 ^ (9 - length)
        _ < 10 ^ length * 10 ^ (9 - length) :=
            Nat.mul_lt_mul_of_pos_right small (Nat.pow_pos (by decide))
        _ = nanosPerSecond := by
            rw [← Nat.pow_add, Nat.add_sub_cancel' few]
            rfl
  · obtain ⟨rfl, -⟩ := Prod.mk.inj (Option.some.inj given)
    decide

/-- An offset is one of whole minutes. -/
theorem offset?_emod {separator : List Char → Option (List Char)} {text rest : List Char}
    {offset : Int} (given : offset? separator text = some (offset, rest)) : offset % 60 = 0 := by
  unfold offset? at given
  split at given
  · cases given
  · split at given
    · cases given
      rfl
    · split at given
      · obtain ⟨⟨hours, behindHours⟩, -, given⟩ := Option.bind_eq_some_iff.mp given
        obtain ⟨between, -, given⟩ := Option.bind_eq_some_iff.mp given
        obtain ⟨⟨minutes, behindMinutes⟩, -, given⟩ := Option.bind_eq_some_iff.mp given
        simp only at given
        split at given
        · cases given
        · obtain ⟨rfl, -⟩ := Prod.mk.inj (Option.some.inj given)
          split <;> omega
      · cases given

end Reading

theorem isRegular_of_ofLocal? {date : Date} {hour minute second nanos : Nat} {offset : Int}
    {t : Timestamp} (small : nanos < nanosPerSecond) (whole : offset % 60 = 0)
    (given : ofLocal? date hour minute second nanos offset = some t) : t.IsRegular := by
  unfold ofLocal? at given
  split at given
  · rename_i valid
    simp only [Bool.and_eq_true, decide_eq_true_eq] at valid
    obtain ⟨-, -, -, last⟩ := valid
    simp only [ofParts?] at given
    split at given
    · obtain rfl := Option.some.inj given
      unfold nanosPerSecond at small
      unfold IsRegular nanosPerSecond secondsPerDay
      simp only
      omega
    · cases given
  · cases given

open Reading in
theorem isRegular_of_ofLenientText? {text : List Char} {t : Timestamp}
    (given : ofLenientText? text = some t) : t.IsRegular := by
  unfold ofLenientText? at given
  obtain ⟨⟨date, _⟩, -, given⟩ := Option.bind_eq_some_iff.mp given
  obtain ⟨_, -, given⟩ := Option.bind_eq_some_iff.mp given
  obtain ⟨⟨hour, _⟩, -, given⟩ := Option.bind_eq_some_iff.mp given
  obtain ⟨_, -, given⟩ := Option.bind_eq_some_iff.mp given
  obtain ⟨⟨minute, _⟩, -, given⟩ := Option.bind_eq_some_iff.mp given
  obtain ⟨_, -, given⟩ := Option.bind_eq_some_iff.mp given
  obtain ⟨⟨second, _⟩, -, given⟩ := Option.bind_eq_some_iff.mp given
  obtain ⟨⟨nanos, _⟩, fraction, given⟩ := Option.bind_eq_some_iff.mp given
  have small := fraction?_lt fraction
  simp only at given
  split at given
  · simp only [Option.bind_eq_bind, Option.bind_some] at given
    split at given
    · exact isRegular_of_ofLocal? small rfl given
    · cases given
  · obtain ⟨⟨offset, _⟩, zone, given⟩ := Option.bind_eq_some_iff.mp given
    simp only at given
    split at given
    · exact isRegular_of_ofLocal? small (offset?_emod zone) given
    · cases given

end Timestamp

namespace Json

theorem NumberToken.integer?_bounds {token : NumberToken} {n : Int}
    (given : token.integer? = some n) : -2 ^ 64 < n ∧ n < 2 ^ 64 := by
  unfold integer? at given
  simp only at given
  split at given
  · cases given
  · split at given
    · split at given
      · obtain rfl := Option.some.inj given
        omega
      · cases given
    · split at given
      · obtain rfl := Option.some.inj given
        omega
      · cases given

/-- A number that is spelled is finite. -/
theorem NumberToken.isFinite_of_number? {token : NumberToken} {n : Number}
    (given : token.number? = some n) : n.toDouble.isFinite = true := by
  unfold number? at given
  split at given
  · rename_i whole
    obtain rfl := Option.some.inj given
    obtain ⟨least, most⟩ := integer?_bounds whole
    exact Binary64.isFinite_ofInt least most
  · obtain ⟨x, rounded, rfl⟩ := Option.map_eq_some_iff.mp given
    unfold double? at rounded
    simp only at rounded
    split at rounded
    · cases rounded
    · rename_i notInfinite
      obtain rfl := Option.some.inj rounded
      exact Binary64.isFinite_ofDecimal (Bool.eq_false_iff.mpr notInfinite)

/-- A tree that is a number is one that is spelled. -/
theorem isFinite_of_readTree {fuel depth : Nat} {text rest : List Char} {n : Number}
    (done : readTree fuel depth text = .ok (.number n, rest)) : n.toDouble.isFinite = true := by
  cases fuel with
  | zero =>
      rw [readTree] at done
      cases done
  | succ fuel =>
      rw [readTree] at done
      split at done
      · cases done
      · split at done
        · obtain ⟨_, _, same⟩ := exists_of_bind_eq_ok done
          cases same
        · split at done
          · obtain ⟨⟨token, after⟩, _, number⟩ := exists_of_bind_eq_ok done
            simp only at number
            split at number
            · rename_i spelled
              cases number
              exact NumberToken.isFinite_of_number? spelled
            · cases number
          · split at done
            · split at done
              · cases done
              · obtain ⟨_, _, same⟩ := exists_of_bind_eq_ok done
                cases same
            · split at done
              · split at done
                · cases done
                · obtain ⟨_, _, same⟩ := exists_of_bind_eq_ok done
                  cases same
              · split at done
                · rename_i meaning literal
                  obtain ⟨_, _, same⟩ := exists_of_bind_eq_ok done
                  cases same
                  unfold literal? at literal
                  split at literal <;> cases literal
                · cases done

end Json

/-! ## Values -/

namespace Fixture

open Json (Fault)

theorem isFinite_of_readDouble {text rest : List Char} {x : Binary64}
    (done : readDouble text = .ok (x, rest)) : x.isFinite = true := by
  unfold readDouble at done
  simp only at done
  split at done
  · obtain ⟨⟨token, after⟩, _, number⟩ := exists_of_bind_eq_ok done
    simp only at number
    split at number
    · rename_i spelled
      cases number
      exact Json.NumberToken.isFinite_of_number? spelled
    · cases number
  · cases done

theorem eq_some_of_known {α : Type} {meaning : Option α} {a : α}
    (done : known meaning = .ok a) : meaning = some a := by
  cases meaning with
  | none => cases done
  | some found =>
      cases done
      rfl

/-- Only a double could be infinite, and only a time irregular. -/
theorem isKept_of_readContent {kind : Kind} {text rest : List Char} {value : Value}
    (done : readContent kind text = .ok (value, rest)) : value.isKept = true := by
  cases kind with
  | null =>
      obtain ⟨_, _, same⟩ := exists_of_bind_eq_ok done
      cases same
      rfl
  | typed type =>
      cases type with
      | double =>
          obtain ⟨⟨x, after⟩, number, same⟩ := exists_of_bind_eq_ok done
          cases same
          exact isFinite_of_readDouble number
      | uuid =>
          obtain ⟨_, _, later⟩ := exists_of_bind_eq_ok done
          obtain ⟨_, _, same⟩ := exists_of_bind_eq_ok later
          cases same
          rfl
      | dateTime =>
          obtain ⟨_, _, later⟩ := exists_of_bind_eq_ok done
          obtain ⟨_, time, same⟩ := exists_of_bind_eq_ok later
          cases same
          exact decide_eq_true (Timestamp.isRegular_of_ofLenientText? (eq_some_of_known time))
      | _ =>
          obtain ⟨_, _, same⟩ := exists_of_bind_eq_ok done
          cases same
          rfl

theorem isKept_of_contentOfTree? {kind : Kind} {tree : Json} {value : Value}
    (finite : ∀ n, tree = .number n → n.toDouble.isFinite = true)
    (given : contentOfTree? kind tree = some value) : value.isKept = true := by
  unfold contentOfTree? at given
  split at given
  · cases given
    rfl
  · cases given
    rfl
  · split at given
    · cases given
      rfl
    · cases given
  · split at given
    · cases given
      rfl
    · cases given
  · rename_i n
    cases given
    exact finite n rfl
  · cases given
    rfl
  · obtain ⟨_, _, rfl⟩ := Option.map_eq_some_iff.mp given
    rfl
  · obtain ⟨_, _, rfl⟩ := Option.map_eq_some_iff.mp given
    rfl
  · obtain ⟨_, time, rfl⟩ := Option.map_eq_some_iff.mp given
    exact decide_eq_true (Timestamp.isRegular_of_ofLenientText? time)
  · cases given

/-- The content of an object follows its kind, or is kept as a tree until that is known. -/
theorem isKept_of_readObject {text rest : List Char} {value : Value}
    (done : readObject text = .ok (value, rest)) : value.isKept = true := by
  obtain ⟨⟨first, behindFirst⟩, _, done⟩ := exists_of_bind_eq_ok done
  rcases first with _ | _ | _
  · cases done
  · obtain ⟨_, _, done⟩ : ∃ content, Json.afterColon behindFirst = .ok content ∧ _ :=
      exists_of_bind_eq_ok done
    obtain ⟨⟨kind, behindKind⟩, _, done⟩ := exists_of_bind_eq_ok done
    obtain ⟨⟨second, behindSecond⟩, _, done⟩ := exists_of_bind_eq_ok done
    rcases second with _ | _ | _
    · simp only at done
      split at done
      · obtain ⟨_, _, same⟩ := exists_of_bind_eq_ok done
        cases same
        rfl
      · cases done
    · cases done
    · obtain ⟨_, _, done⟩ : ∃ content, Json.afterColon behindSecond = .ok content ∧ _ :=
        exists_of_bind_eq_ok done
      obtain ⟨⟨content, behindContent⟩, reading, done⟩ := exists_of_bind_eq_ok done
      obtain ⟨_, _, same⟩ := exists_of_bind_eq_ok done
      cases same
      exact isKept_of_readContent reading
  · obtain ⟨_, _, done⟩ : ∃ content, Json.afterColon behindFirst = .ok content ∧ _ :=
      exists_of_bind_eq_ok done
    obtain ⟨⟨tree, behindTree⟩, planted, done⟩ := exists_of_bind_eq_ok done
    obtain ⟨⟨second, behindSecond⟩, _, done⟩ := exists_of_bind_eq_ok done
    rcases second with _ | _ | _
    · cases done
    · obtain ⟨_, _, done⟩ : ∃ content, Json.afterColon behindSecond = .ok content ∧ _ :=
        exists_of_bind_eq_ok done
      obtain ⟨⟨kind, behindKind⟩, _, done⟩ := exists_of_bind_eq_ok done
      obtain ⟨content, meaning, done⟩ := exists_of_bind_eq_ok done
      obtain ⟨_, _, same⟩ := exists_of_bind_eq_ok done
      cases same
      refine isKept_of_contentOfTree? ?_ (eq_some_of_known meaning)
      rintro n rfl
      exact Json.isFinite_of_readTree planted
    · cases done

theorem isKept_of_readPair {text rest : List Char} {value : Value}
    (done : readPair text = .ok (value, rest)) : value.isKept = true := by
  obtain ⟨first, _, done⟩ := exists_of_bind_eq_ok done
  cases first with
  | none => cases done
  | some text =>
      obtain ⟨⟨name, behindName⟩, _, done⟩ : ∃ name, readText text = .ok name ∧ _ :=
        exists_of_bind_eq_ok done
      obtain ⟨kind, _, done⟩ := exists_of_bind_eq_ok done
      obtain ⟨second, _, done⟩ := exists_of_bind_eq_ok done
      cases second with
      | none => cases done
      | some text =>
          obtain ⟨⟨content, behindContent⟩, reading, done⟩ :
              ∃ content, readContent kind text = .ok content ∧ _ := exists_of_bind_eq_ok done
          obtain ⟨_, _, same⟩ := exists_of_bind_eq_ok done
          cases same
          exact isKept_of_readContent reading

theorem isKept_of_readValue {text rest : List Char} {value : Value}
    (done : readValue text = .ok (value, rest)) : value.isKept = true := by
  unfold readValue at done
  split at done
  · exact isKept_of_readObject done
  · exact isKept_of_readPair done
  · cases done

/-! ## Records -/

/-- What holds of each item that is read holds of all items of a list. -/
theorem forall_of_readItems {α : Type} {item : Json.Reader α} {p : α → Prop}
    (each : ∀ {text x rest}, item text = .ok (x, rest) → p x) {fuel : Nat} {first : Bool}
    {text rest : List Char} {items : List α}
    (done : readItems item fuel first text = .ok (items, rest)) : ∀ x ∈ items, p x := by
  induction fuel generalizing first text items with
  | zero => cases done
  | succ fuel ih =>
      rw [readItems] at done
      obtain ⟨next, _, done⟩ := exists_of_bind_eq_ok done
      cases next with
      | none =>
          obtain ⟨_, _, same⟩ : ∃ rest, Json.closing ']' text = .ok rest ∧ _ :=
            exists_of_bind_eq_ok done
          cases same
          exact List.forall_mem_nil p
      | some behind =>
          obtain ⟨⟨x, behindItem⟩, read, done⟩ : ∃ x, item behind = .ok x ∧ _ :=
            exists_of_bind_eq_ok done
          obtain ⟨⟨others, behindOthers⟩, later, same⟩ := exists_of_bind_eq_ok done
          cases same
          exact List.forall_mem_cons.mpr ⟨each read, ih later⟩

theorem isKept_of_recordOfText {text : List Char} {r : Record}
    (done : recordOfText text = .ok r) : r.isKept = true := by
  unfold recordOfText at done
  split at done
  · obtain ⟨⟨values, rest⟩, read, done⟩ := exists_of_bind_eq_ok done
    simp only at done
    split at done
    · cases done
      exact List.all_eq_true.mpr (forall_of_readItems isKept_of_readValue read)
    · cases done
  · cases done

/-- A line gives no record that is not kept. -/
theorem isKept_of_readLine? {line : List UInt8} {r : Record}
    (given : readLine? line = some (.ok r)) : r.isKept = true := by
  unfold readLine? at given
  split at given
  · cases given
  · simp only at given
    split at given
    · cases given
    · exact isKept_of_recordOfText (Option.some.inj given)

theorem isKept_of_mem_read {octets : List UInt8} {r : Record}
    (member : .ok r ∈ read octets) : r.isKept = true := by
  obtain ⟨line, _, given⟩ := List.mem_filterMap.mp member
  exact isKept_of_readLine? given

theorem isKept_of_next? {octets rest : List UInt8} {r : Record}
    (accepted : next? octets = some (.ok r, rest)) : r.isKept = true := by
  have first : .ok r ∈ read octets := by
    rw [read_of_next?_some accepted]
    exact List.mem_cons_self
  exact isKept_of_mem_read first

end Fixture

end Reconcile
