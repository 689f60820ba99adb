import Mathlib.Data.List.Forall2
import Reconcile.Ordered

/-!
# Comparing feeds in order

Two feeds are walked side by side up to the first position at which they do not both hold records
that are equal.  What is there decides how the comparison ends; only what stands in the messages is
read behind it.
-/

namespace Reconcile

namespace Feed

/-- Reading ahead gives the records of the next items, or the first failure among these. -/
theorem upTo_eq (count : Nat) (feed : Feed) :
    feed.upTo count =
      match untilFailure (feed.take count) with
      | (_, some e) => .error e
      | (records, none) => .ok records := by
  induction feed generalizing count with
  | nil => cases count <;> rfl
  | cons item rest ih =>
      cases count with
      | zero => rfl
      | succ count =>
          cases item with
          | error e => rfl
          | ok r =>
              change (do return r :: (← upTo count rest)) = _
              rw [ih, List.take_succ_cons, untilFailure]
              rcases untilFailure (rest.take count) with ⟨records, _ | e⟩ <;> rfl

/-- Behind records that stand in front, a feed goes on as it is. -/
theorem drop_ofRecords_append (records : List Record) (feed : Feed) (i : Nat) :
    (ofRecords records ++ feed).drop (records.length + i) = feed.drop i := by
  have length : (ofRecords records).length = records.length := List.length_map _
  rw [List.drop_append, length, List.drop_eq_nil_of_le (by omega), List.nil_append,
    Nat.add_sub_cancel_left]

theorem getElem?_length_ofRecords (records : List Record) (feed : Feed) :
    (ofRecords records ++ feed)[records.length]? = feed[0]? := by
  rw [← List.head?_drop, ← List.head?_drop]
  exact congrArg List.head? (drop_ofRecords_append records feed 0)

theorem getElem?_ofRecords {records : List Record} {i : Nat} (inside : i < records.length)
    (feed : Feed) : (ofRecords records ++ feed)[i]? = some (.ok records[i]) := by
  rw [List.getElem?_append_left (by simpa [ofRecords]), ofRecords, List.getElem?_map,
    List.getElem?_eq_getElem inside]
  rfl

end Feed

namespace Ordered

/-- Both feeds hold records at a position, and these are equal. -/
def PairedAt (c : Comparison) (expected actual : Feed) (position : Nat) : Prop :=
  ∃ e a, expected[position]? = some (.ok e) ∧ actual[position]? = some (.ok a) ∧
    c.equal e a = true

/-- The first position at which two feeds do not hold equal records. -/
structure PartAt (c : Comparison) (expected actual : Feed) (position : Nat) : Prop where
  before : ∀ i < position, PairedAt c expected actual i
  here : ¬ PairedAt c expected actual position

/-- What a message looks at behind a position: the records of the next items, and the first failure
among these. -/
def lookahead (feed : Feed) (position : Nat) : List Record × Option Failure :=
  Feed.untilFailure ((feed.drop (position + 1)).take Preview.limit)

/-- How a comparison ends, by what the two feeds hold at the position at which they part. -/
inductive EndsAt (c : Comparison) (expected actual : Feed) (position : Nat) :
    Except Failure Nat → Prop where
  | bothEnd (wanted : expected[position]? = none) (given : actual[position]? = none) :
      EndsAt c expected actual position (.ok position)
  | expectedFailure {e : Failure} (wanted : expected[position]? = some (.error e)) :
      EndsAt c expected actual position (.error e)
  | actualFailure {e : Failure} (wanted : ∀ e', expected[position]? ≠ some (.error e'))
      (given : actual[position]? = some (.error e)) :
      EndsAt c expected actual position (.error e)
  | mismatch {e a : Record} (wanted : expected[position]? = some (.ok e))
      (given : actual[position]? = some (.ok a)) :
      EndsAt c expected actual position
        (.error (.valueMismatch position (c.render e) (c.render a)))
  /-- the expected feed is longer, unless the message meets a failure -/
  | expectedLonger {e : Record} {others : List Record} {failure : Option Failure}
      (wanted : expected[position]? = some (.ok e)) (given : actual[position]? = none)
      (behind : lookahead expected position = (others, failure)) :
      EndsAt c expected actual position
        (.error (failure.getD
          (.moreElementsExpected none (Preview.message c.render (e :: others)))))
  /-- the actual feed is longer, unless the message meets a failure -/
  | actualLonger {a : Record} {others : List Record} {failure : Option Failure}
      (wanted : expected[position]? = none) (given : actual[position]? = some (.ok a))
      (behind : lookahead actual position = (others, failure)) :
      EndsAt c expected actual position
        (.error (failure.getD
          (.lessElementsExpected none (Preview.message c.render (a :: others)))))

variable {c : Comparison} {expected actual : Feed} {wanted given : List Record}

/-! ## Equal records in front -/

/-- Records that are equal one by one. -/
abbrev Paired (c : Comparison) : List Record → List Record → Prop :=
  List.Forall₂ fun e a => c.equal e a = true

theorem pairedAt_zero_iff :
    PairedAt c expected actual 0 ↔ ∃ e a expected' actual', expected = .ok e :: expected' ∧
      actual = .ok a :: actual' ∧ c.equal e a = true := by
  simp only [PairedAt, ← List.head?_eq_getElem?, List.head?_eq_some_iff]
  constructor
  · rintro ⟨e, a, ⟨expected', rfl⟩, ⟨actual', rfl⟩, equal⟩
    exact ⟨e, a, expected', actual', rfl, rfl, equal⟩
  · rintro ⟨e, a, expected', actual', rfl, rfl, equal⟩
    exact ⟨e, a, ⟨expected', rfl⟩, ⟨actual', rfl⟩, equal⟩

/-- Any two feeds begin with records that are equal one by one, behind which they part. -/
theorem exists_paired (c : Comparison) (expected actual : Feed) :
    ∃ (wanted given : List Record) (expected' actual' : Feed),
      expected = Feed.ofRecords wanted ++ expected' ∧ actual = Feed.ofRecords given ++ actual' ∧
      Paired c wanted given ∧ ¬ PairedAt c expected' actual' 0 := by
  induction expected generalizing actual with
  | nil =>
      refine ⟨[], [], [], actual, rfl, rfl, .nil, fun paired => ?_⟩
      obtain ⟨e, a, expected', actual', front, -⟩ := pairedAt_zero_iff.mp paired
      cases front
  | cons item rest ih =>
      by_cases paired : PairedAt c (item :: rest) actual 0
      · obtain ⟨e, a, expected', actual', front, rfl, equal⟩ := pairedAt_zero_iff.mp paired
        obtain ⟨rfl, rfl⟩ := List.cons.inj front
        obtain ⟨wanted, given, expected', actual', rfl, rfl, pairs, parts⟩ := ih actual'
        exact ⟨e :: wanted, a :: given, expected', actual', rfl, rfl, .cons equal pairs, parts⟩
      · exact ⟨[], [], item :: rest, actual, rfl, rfl, .nil, paired⟩

/-- Equal records in front are counted. -/
theorem check_append (pairs : Paired c wanted given) (position : Nat) :
    check c position (Feed.ofRecords wanted ++ expected) (Feed.ofRecords given ++ actual) =
      check c (position + wanted.length) expected actual := by
  induction pairs generalizing position with
  | nil => rfl
  | @cons e a wanted given equal _ ih =>
      change check c position (.ok e :: (Feed.ofRecords wanted ++ expected))
        (.ok a :: (Feed.ofRecords given ++ actual)) = _
      rw [check, if_pos equal, ih, List.length_cons, Nat.add_assoc, Nat.add_comm 1]

/-- Feeds part behind the equal records in front of them. -/
theorem partAt_append (pairs : Paired c wanted given) (parts : ¬ PairedAt c expected actual 0) :
    PartAt c (.ofRecords wanted ++ expected) (.ofRecords given ++ actual) wanted.length where
  before i inside := by
    obtain ⟨length, equal⟩ := List.forall₂_iff_get.mp pairs
    have inside' : i < given.length := length ▸ inside
    exact ⟨wanted[i], given[i], Feed.getElem?_ofRecords inside expected,
      Feed.getElem?_ofRecords inside' actual, equal i inside inside'⟩
  here := by
    have front := Feed.getElem?_length_ofRecords given actual
    rw [← pairs.length_eq] at front
    rwa [PairedAt, Feed.getElem?_length_ofRecords, front]

/-! ## Where the feeds part -/

theorem PartAt.unique {position other : Nat} (parts : PartAt c expected actual position)
    (parts' : PartAt c expected actual other) : other = position := by
  rcases Nat.lt_trichotomy position other with before | same | behind
  · exact absurd (parts'.before position before) parts.here
  · exact same.symm
  · exact absurd (parts.before other behind) parts'.here

/-- A feed that is longer is told of, unless the message meets a failure. -/
theorem surplus_bind {rest : Feed} {others : List Record} {failure : Option Failure}
    (read : Feed.untilFailure (rest.take Preview.limit) = (others, failure)) (c : Comparison)
    (first : Record) (told : String → Failure) :
    ((surplus c first rest).bind fun text => .error (told text) : Except Failure Nat) =
      .error (failure.getD (told (Preview.message c.render (first :: others)))) := by
  rw [surplus, Feed.upTo_eq, read]
  cases failure <;> rfl

/-- Feeds end as their items say where they part, once equal records were counted in front. -/
theorem endsAt_check (pairs : Paired c wanted given) (parts : ¬ PairedAt c expected actual 0) :
    EndsAt c (.ofRecords wanted ++ expected) (.ofRecords given ++ actual) wanted.length
      (check c wanted.length expected actual) := by
  have here := Feed.getElem?_length_ofRecords wanted expected
  have here' := Feed.getElem?_length_ofRecords given actual
  have behind := Feed.drop_ofRecords_append wanted expected 1
  have behind' := Feed.drop_ofRecords_append given actual 1
  rw [← pairs.length_eq] at here' behind'
  cases expected with
  | nil =>
      cases actual with
      | nil => exact .bothEnd here here'
      | cons item rest =>
          cases item with
          | error e => exact .actualFailure (fun _ other => by cases here.symm.trans other) here'
          | ok a =>
              rcases read : Feed.untilFailure (rest.take Preview.limit) with ⟨others, failure⟩
              have told : check c wanted.length [] (.ok a :: rest) = _ :=
                surplus_bind read c a (.lessElementsExpected none)
              rw [told]
              exact .actualLonger here here' (by rw [lookahead, behind']; exact read)
  | cons item rest =>
      cases item with
      | error e => exact .expectedFailure here
      | ok e =>
          cases actual with
          | nil =>
              rcases read : Feed.untilFailure (rest.take Preview.limit) with ⟨others, failure⟩
              have told : check c wanted.length (.ok e :: rest) [] = _ :=
                surplus_bind read c e (.moreElementsExpected none)
              rw [told]
              exact .expectedLonger here here' (by rw [lookahead, behind]; exact read)
          | cons item' rest' =>
              cases item' with
              | error e' =>
                  exact .actualFailure (fun _ other => by cases here.symm.trans other) here'
              | ok a =>
                  have apart : ¬ c.equal e a = true := fun equal =>
                    parts (pairedAt_zero_iff.mpr ⟨e, a, rest, rest', rfl, rfl, equal⟩)
                  rw [check, if_neg apart]
                  exact .mismatch here here'

/-- What the feeds hold where they part leaves one end only. -/
theorem EndsAt.unique {position : Nat} {result other : Except Failure Nat}
    (ends : EndsAt c expected actual position result)
    (ends' : EndsAt c expected actual position other) : other = result := by
  cases ends <;> cases ends' <;> simp_all

/-! ## Success -/

theorem EndsAt.of_ok {position n : Nat} (ends : EndsAt c expected actual position (.ok n)) :
    n = position ∧ expected[position]? = none ∧ actual[position]? = none := by
  cases ends with
  | bothEnd wanted given => exact ⟨rfl, wanted, given⟩

theorem checkOrdered_eq_ok_iff {n : Nat} :
    c.checkOrdered expected actual = .ok n ↔
      ∃ wanted given : List Record, expected = .ofRecords wanted ∧ actual = .ofRecords given ∧
        Paired c wanted given ∧ wanted.length = n := by
  constructor
  · intro passed
    obtain ⟨wanted, given, expected, actual, rfl, rfl, pairs, parts⟩ :=
      exists_paired c expected actual
    have ends := endsAt_check pairs parts
    rw [Comparison.checkOrdered, check_append pairs, Nat.zero_add] at passed
    rw [passed] at ends
    obtain ⟨rfl, ended, ended'⟩ := ends.of_ok
    rw [Feed.getElem?_length_ofRecords] at ended
    rw [pairs.length_eq, Feed.getElem?_length_ofRecords] at ended'
    cases expected with
    | cons item rest => cases ended
    | nil =>
        cases actual with
        | cons item rest => cases ended'
        | nil => exact ⟨wanted, given, List.append_nil _, List.append_nil _, pairs, rfl⟩
  · rintro ⟨wanted, given, rfl, rfl, pairs, rfl⟩
    have counted : check c 0 (Feed.ofRecords wanted ++ []) (Feed.ofRecords given ++ []) = _ :=
      check_append pairs 0
    simpa [Comparison.checkOrdered, check] using counted

theorem ofRecords_injective : Function.Injective Feed.ofRecords :=
  List.map_injective_iff.mpr fun _ _ => Except.ok.inj

/-- Lists compare in order exactly if their records are equal one by one. -/
theorem checkOrdered_ofRecords_eq_ok_iff {n : Nat} :
    c.checkOrdered (.ofRecords wanted) (.ofRecords given) = .ok n ↔
      Paired c wanted given ∧ wanted.length = n := by
  rw [checkOrdered_eq_ok_iff]
  constructor
  · rintro ⟨wanted', given', same, same', both⟩
    rwa [ofRecords_injective same, ofRecords_injective same']
  · exact fun both => ⟨wanted, given, rfl, rfl, both⟩

end Ordered

/-- Comparing two feeds in order goes up to the position at which they part, and what they hold
there decides how it ends.  It succeeds exactly if both give records only, as many on either side,
that are equal one by one, and counts these. -/
theorem Comparison.checkOrdered_outcomes (c : Comparison) (expected actual : Feed) :
    (∃ position, Ordered.PartAt c expected actual position) ∧
    (∀ position, Ordered.PartAt c expected actual position → ∀ result,
      c.checkOrdered expected actual = result ↔
        Ordered.EndsAt c expected actual position result) ∧
    ∀ n, c.checkOrdered expected actual = .ok n ↔
      ∃ wanted given : List Record, expected = .ofRecords wanted ∧ actual = .ofRecords given ∧
        wanted.length = n ∧ given.length = n ∧ Ordered.Paired c wanted given := by
  have ends : ∃ position, Ordered.PartAt c expected actual position ∧
      Ordered.EndsAt c expected actual position (c.checkOrdered expected actual) := by
    obtain ⟨wanted, given, expected, actual, rfl, rfl, pairs, parts⟩ :=
      Ordered.exists_paired c expected actual
    refine ⟨wanted.length, Ordered.partAt_append pairs parts, ?_⟩
    rw [checkOrdered, Ordered.check_append pairs, Nat.zero_add]
    exact Ordered.endsAt_check pairs parts
  obtain ⟨position, parts, ends⟩ := ends
  refine ⟨⟨position, parts⟩, fun other parts' result => ?_, fun n => ?_⟩
  · obtain rfl := parts.unique parts'
    exact ⟨fun same => same ▸ ends, fun other => other.unique ends⟩
  · rw [Ordered.checkOrdered_eq_ok_iff]
    constructor
    · rintro ⟨wanted, given, rfl, rfl, pairs, counted⟩
      exact ⟨wanted, given, rfl, rfl, counted, pairs.length_eq ▸ counted, pairs⟩
    · rintro ⟨wanted, given, rfl, rfl, counted, -, pairs⟩
      exact ⟨wanted, given, rfl, rfl, pairs, counted⟩

-- The expected feed is longer, but the failure that the message meets comes first.
example :
    let c := Comparison.ofSchema (.ofTypes "numbers" [.int])
    let one : Record := ⟨[.int 1]⟩
    let lost : Failure := .configuration "lost"
    c.checkOrdered [.ok one, .ok one, .error lost] [.ok one] = .error lost := by
  rfl

end Reconcile
