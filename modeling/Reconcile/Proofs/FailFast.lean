import Mathlib.Control.Monad.Basic
import Reconcile.Proofs.ReadAhead

/-!
# Failing fast

How a comparison of two feeds ends that may hold failures anywhere.  It passes only if there is no
failure in them; a failure to read is told as it was read, and is the first one of its feed; and a
group that does not match is told whatever comes behind the next record of either feed.
-/

namespace Reconcile

/-- The text of the key of the group that a failure is about, if it is about one. -/
def Failure.key? : Failure → Option String
  | .noValueForKey key .. => some key
  | .unmatchedValues key .. => some key
  | .moreElementsExpected key _ => key
  | .lessElementsExpected key _ => key
  | _ => none

namespace Grouped

/-! ## A group in a feed -/

/-- A feed as it is when a group is compared: the records in front of the group of a key, those of
the group, and what is behind it, which is nothing or goes on with a record of another key. -/
structure AtGroup (k : Key) (values : List Value) where
  front : List Record
  group : List Record
  behind : Feed
  inGroup : ∀ r ∈ group, k.extract r = values
  past : ∀ item ∈ behind.head?, ∃ r, item = .ok r ∧ k.extract r ≠ values

namespace AtGroup

variable {k : Key} {values : List Value}

/-- The feed with something else behind the group. -/
def followedBy (place : AtGroup k values) (behind : Feed) : Feed :=
  .ofRecords (place.front ++ place.group) ++ behind

def feed (place : AtGroup k values) : Feed := place.followedBy place.behind

/-- The record behind the group. -/
def held (place : AtGroup k values) : Option Record := place.behind.head?.bind Except.toOption

theorem peek_eq (place : AtGroup k values) {behind : Feed}
    (same : behind.head? = place.behind.head?) : behind.peek = .ok place.held := by
  have past := place.past
  rw [Feed.peek_congr same, Feed.peek, held]
  cases next : place.behind.head? with
  | none => rfl
  | some item =>
      obtain ⟨r, rfl, -⟩ := past item next
      rfl

theorem leaves (place : AtGroup k values) {behind : Feed}
    (same : behind.head? = place.behind.head?) : behind.Leaves k values := by
  intro r front
  obtain ⟨other, equal, apart⟩ := place.past (.ok r) (same ▸ front)
  obtain rfl := Except.ok.inj equal
  exact apart

/-- A group in a feed of which more is in front. -/
def behindOf (place : AtGroup k values) (passed : List Record) : AtGroup k values :=
  { place with front := passed ++ place.front }

theorem followedBy_behindOf (place : AtGroup k values) (passed : List Record) (behind : Feed) :
    (place.behindOf passed).followedBy behind = .ofRecords passed ++ place.followedBy behind := by
  simp [followedBy, behindOf, Feed.ofRecords]

theorem head?_followedBy (place : AtGroup k values) {behind : Feed}
    (same : behind.head? = place.behind.head?) :
    (place.followedBy behind).head? = place.feed.head? :=
  Feed.head?_ofRecords_append same

theorem exists_peek (place : AtGroup k values) : ∃ held, place.feed.peek = .ok held := by
  unfold feed followedBy
  cases place.front ++ place.group with
  | nil => exact ⟨place.held, place.peek_eq rfl⟩
  | cons r rest => exact ⟨some r, rfl⟩

theorem leaves_front (place : AtGroup k values) {values' : List Value}
    (leaves : place.feed.Leaves k values') : (Feed.ofRecords place.front).Leaves k values' := by
  intro r front
  refine leaves r ?_
  rw [feed, followedBy]
  cases inFront : place.front with
  | nil =>
      rw [inFront] at front
      cases front
  | cons first rest =>
      rw [inFront] at front
      exact front

end AtGroup

/-- A comparison fails with a group once it has passed what is in front of it, whatever comes behind
the next record of either feed. -/
structure StopsAt (c : Comparison) (groups taken given : Nat) {values : List Value}
    (wanted found : AtGroup c.key values) (e : Failure) : Prop where
  nonempty : wanted.group ≠ []
  apart : ∀ r ∈ wanted.front.getLast?, c.key.extract r ≠ values
  passes : ∃ report, compareFrom c groups taken given (.ofRecords wanted.front)
    (.ofRecords found.front) = .ok report
  mismatch : checkGroup c values (taken + wanted.front.length) wanted.group found.group
    found.held = .error e
  unread : ∀ behind behind', behind.head? = wanted.behind.head? →
    behind'.head? = found.behind.head? →
      compareFrom c groups taken given (wanted.followedBy behind) (found.followedBy behind') =
        .error e

/-- How a comparison of two feeds ends. -/
inductive Ends (c : Comparison) (groups taken given : Nat) (expected actual : Feed) :
    Except Failure Report → Prop where
  | passed (report : Report) (wanted : expected.untilFailure.2 = none)
      (found : actual.untilFailure.2 = none) :
      Ends c groups taken given expected actual (.ok report)
  | expectedFailure {e : Failure} (read : expected.untilFailure.2 = some e) :
      Ends c groups taken given expected actual (.error e)
  | actualFailure {e : Failure} (read : actual.untilFailure.2 = some e) :
      Ends c groups taken given expected actual (.error e)
  | surplus (remaining : String) :
      Ends c groups taken given expected actual (.error (.lessElementsExpected none remaining))
  | stopped {values : List Value} {wanted found : AtGroup c.key values} {e : Failure}
      (wantedFeed : expected = wanted.feed) (foundFeed : actual = found.feed)
      (stops : StopsAt c groups taken given wanted found e) :
      Ends c groups taken given expected actual (.error e)

/-! ## One group -/

/-- The record read ahead matters only where no actual record was found. -/
theorem checkGroup_of_passed {c : Comparison} {values : List Value} {position : Nat}
    {expected actual : List Record} {held : Option Record}
    (passed : checkGroup c values position expected actual held = .ok ()) (other : Option Record) :
    checkGroup c values position expected actual other = .ok () := by
  unfold checkGroup at passed ⊢
  split at passed
  · cases passed
  · rename_i found
    rw [if_neg found]
    exact passed

theorem key?_of_checkGroup {c : Comparison} {values : List Value} {position : Nat}
    {expected actual : List Record} {held : Option Record} {e : Failure}
    (failed : checkGroup c values position expected actual held = .error e) :
    e.key? = some (Key.display values) := by
  unfold checkGroup at failed
  split at failed
  · cases failed
    rfl
  · simp only at failed
    split at failed
    · rename_i fails
      cases failed
      unfold residueFailure at fails
      split at fails <;> cases fails <;> rfl
    · cases failed

variable {c : Comparison} {groups taken given : Nat} {values : List Value} {first : Record}
  {others group : List Record} {expected actual : Feed}

/-- What is looked at behind a group is no failure, and not of its key. -/
theorem past_of_peek {k : Key} {feed : Feed} {held : Option Record}
    (leaves : feed.Leaves k values) (looked : feed.peek = .ok held) :
    ∀ item ∈ feed.head?, ∃ r, item = .ok r ∧ k.extract r ≠ values := by
  intro item front
  cases item with
  | ok r => exact ⟨r, rfl, leaves r front⟩
  | error e =>
      rw [Feed.peek, show feed.head? = some (.error e) from front] at looked
      cases looked

section Step

variable (inWanted : ∀ r ∈ first :: others, c.key.extract r = values)
  (inFound : ∀ r ∈ group, c.key.extract r = values)

include inWanted inFound

/-- Where no failure is next, a group is compared and then what is behind it. -/
theorem compareFrom_group_of_peek {behind held : Option Record}
    (wantedLeaves : expected.Leaves c.key values) (foundLeaves : actual.Leaves c.key values)
    (wantedPeek : expected.peek = .ok behind) (foundPeek : actual.peek = .ok held) :
    compareFrom c groups taken given (.ofRecords (first :: others) ++ expected)
        (.ofRecords group ++ actual) =
      checkGroup c values taken (first :: others) group held >>= fun _ =>
      compareFrom c (groups + 1) (taken + 1 + others.length) (given + group.length) expected
        actual := by
  obtain ⟨front, looked⟩ : ∃ front, Feed.peek (.ofRecords group ++ actual) = .ok front := by
    cases group with
    | nil => exact ⟨held, foundPeek⟩
    | cons r rest => exact ⟨some r, rfl⟩
  rw [compareFrom_group c groups taken given inWanted inFound wantedLeaves foundLeaves, looked,
    wantedPeek, foundPeek]
  rfl

/-- A group that does not match is told as soon as the items behind it have been looked at. -/
theorem stopsAt_front {e : Failure}
    (wantedPast : ∀ item ∈ expected.head?, ∃ r, item = .ok r ∧ c.key.extract r ≠ values)
    (foundPast : ∀ item ∈ actual.head?, ∃ r, item = .ok r ∧ c.key.extract r ≠ values)
    (failed : checkGroup c values taken (first :: others) group
      (AtGroup.held ⟨[], group, actual, inFound, foundPast⟩) = .error e) :
    StopsAt c groups taken given ⟨[], first :: others, expected, inWanted, wantedPast⟩
      ⟨[], group, actual, inFound, foundPast⟩ e where
  nonempty := List.cons_ne_nil first others
  apart r last := by cases last
  passes := ⟨_, compareFrom_nil c groups taken given []⟩
  mismatch := failed
  unread behind behind' same same' := by
    let wanted : AtGroup c.key values := ⟨[], first :: others, expected, inWanted, wantedPast⟩
    let found : AtGroup c.key values := ⟨[], group, actual, inFound, foundPast⟩
    change compareFrom c groups taken given (.ofRecords (first :: others) ++ behind)
      (.ofRecords group ++ behind') = _
    rw [compareFrom_group_of_peek inWanted inFound (wanted.leaves same) (found.leaves same')
      (wanted.peek_eq same) (found.peek_eq same'), failed]
    rfl

/-- A comparison that stops at a group also stops there if one more group is passed in front. -/
theorem StopsAt.later {values' : List Value} {wanted found : AtGroup c.key values'} {e : Failure}
    {held : Option Record}
    (wantedLeaves : wanted.feed.Leaves c.key values) (foundLeaves : found.feed.Leaves c.key values)
    (passed : checkGroup c values taken (first :: others) group held = .ok ())
    (stops : StopsAt c (groups + 1) (taken + 1 + others.length) (given + group.length) wanted found
      e) :
    StopsAt c groups taken given (wanted.behindOf (first :: others)) (found.behindOf group) e where
  nonempty := stops.nonempty
  apart r last := by
    change r ∈ ((first :: others) ++ wanted.front).getLast? at last
    have apart := stops.apart
    cases front : wanted.front with
    | nil =>
        -- The group follows the one in front at once, and does not go on with it.
        obtain ⟨next, rest, inGroup⟩ := List.exists_cons_of_ne_nil stops.nonempty
        have inNext : c.key.extract next = values' :=
          wanted.inGroup next (inGroup ▸ List.mem_cons_self)
        have leaves : c.key.extract next ≠ values := by
          refine wantedLeaves next ?_
          rw [AtGroup.feed, AtGroup.followedBy, front, inGroup]
          rfl
        rw [front, List.append_nil] at last
        rw [inWanted r (List.mem_of_mem_getLast? last), ← inNext]
        exact leaves.symm
    | cons next rest =>
        rw [front] at last apart
        rw [List.getLast?_append, Option.or_of_isSome
          (List.getLast?_isSome.mpr (List.cons_ne_nil next rest))] at last
        exact apart r last
  passes := by
    obtain ⟨report, passes⟩ := stops.passes
    refine ⟨report, ?_⟩
    change compareFrom c groups taken given (.ofRecords ((first :: others) ++ wanted.front))
      (.ofRecords (group ++ found.front)) = _
    rw [Feed.ofRecords_append, Feed.ofRecords_append, compareFrom_group_of_peek inWanted inFound
      (wanted.leaves_front wantedLeaves) (found.leaves_front foundLeaves)
      (Feed.peek_ofRecords _) (Feed.peek_ofRecords _), checkGroup_of_passed passed]
    exact passes
  mismatch := by
    have position : taken + (wanted.behindOf (first :: others)).front.length =
        taken + 1 + others.length + wanted.front.length := by
      simp only [AtGroup.behindOf, List.length_append, List.length_cons]
      omega
    rw [position]
    exact stops.mismatch
  unread behind behind' same same' := by
    rw [AtGroup.followedBy_behindOf, AtGroup.followedBy_behindOf]
    obtain ⟨wantedHeld, wantedPeek⟩ := wanted.exists_peek
    obtain ⟨foundHeld, foundPeek⟩ := found.exists_peek
    have wantedHead := wanted.head?_followedBy same
    have foundHead := found.head?_followedBy same'
    rw [← Feed.peek_congr wantedHead] at wantedPeek
    rw [← Feed.peek_congr foundHead] at foundPeek
    rw [compareFrom_group_of_peek inWanted inFound (wantedLeaves.congr wantedHead)
      (foundLeaves.congr foundHead) wantedPeek foundPeek, checkGroup_of_passed passed]
    exact stops.unread behind behind' same same'

/-- What is behind a group that matches decides how the comparison ends. -/
theorem Ends.later {held : Option Record} {result : Except Failure Report}
    (wantedLeaves : expected.Leaves c.key values) (foundLeaves : actual.Leaves c.key values)
    (passed : checkGroup c values taken (first :: others) group held = .ok ())
    (ends : Ends c (groups + 1) (taken + 1 + others.length) (given + group.length) expected actual
      result) :
    Ends c groups taken given (.ofRecords (first :: others) ++ expected)
      (.ofRecords group ++ actual) result := by
  cases ends with
  | passed report wanted found =>
      refine .passed report ?_ ?_
      · rwa [Feed.failure_ofRecords_append]
      · rwa [Feed.failure_ofRecords_append]
  | expectedFailure read => exact .expectedFailure (by rwa [Feed.failure_ofRecords_append])
  | actualFailure read => exact .actualFailure (by rwa [Feed.failure_ofRecords_append])
  | surplus remaining => exact .surplus remaining
  | @stopped _ wanted found e wantedFeed foundFeed stops =>
      subst wantedFeed foundFeed
      exact .stopped (wanted.followedBy_behindOf (first :: others) _).symm
        (found.followedBy_behindOf group _).symm
        (stops.later inWanted inFound wantedLeaves foundLeaves passed)

/-- A group, once the items behind it have been looked at. -/
theorem ends_group (wantedLeaves : expected.Leaves c.key values)
    (foundLeaves : actual.Leaves c.key values)
    (later : Ends c (groups + 1) (taken + 1 + others.length) (given + group.length) expected actual
      (compareFrom c (groups + 1) (taken + 1 + others.length) (given + group.length) expected
        actual)) :
    Ends c groups taken given (.ofRecords (first :: others) ++ expected)
      (.ofRecords group ++ actual)
      (compareFrom c groups taken given (.ofRecords (first :: others) ++ expected)
        (.ofRecords group ++ actual)) := by
  rw [compareFrom_group c groups taken given inWanted inFound wantedLeaves foundLeaves]
  cases looked : Feed.peek (.ofRecords group ++ actual) with
  | error e => exact .actualFailure (Feed.failure_of_peek looked)
  | ok front =>
      cases wantedPeek : expected.peek with
      | error e =>
          refine .expectedFailure ?_
          rw [Feed.failure_ofRecords_append]
          exact Feed.failure_of_peek wantedPeek
      | ok next =>
          cases foundPeek : actual.peek with
          | error e =>
              refine .actualFailure ?_
              rw [Feed.failure_ofRecords_append]
              exact Feed.failure_of_peek foundPeek
          | ok held =>
              have wantedPast := past_of_peek wantedLeaves wantedPeek
              have foundPast := past_of_peek foundLeaves foundPeek
              let wanted : AtGroup c.key values :=
                ⟨[], first :: others, expected, inWanted, wantedPast⟩
              let found : AtGroup c.key values := ⟨[], group, actual, inFound, foundPast⟩
              obtain rfl : held = found.held :=
                Except.ok.inj (foundPeek.symm.trans (found.peek_eq rfl))
              change Ends c groups taken given _ _
                (Except.bind (checkGroup c values taken (first :: others) group found.held) _)
              cases checked : checkGroup c values taken (first :: others) group found.held with
              | error e =>
                  have stops : StopsAt c groups taken given wanted found e :=
                    stopsAt_front inWanted inFound wantedPast foundPast checked
                  exact .stopped rfl rfl stops
              | ok nothing =>
                  exact later.later inWanted inFound wantedLeaves foundLeaves checked

end Step

/-! ## Group after group -/

theorem failure_of_upTo {feed : Feed} {count : Nat} {e : Failure}
    (failed : feed.upTo count = .error e) : feed.untilFailure.2 = some e := by
  induction feed generalizing count with
  | nil => cases count <;> cases failed
  | cons item rest ih =>
      cases count with
      | zero => cases failed
      | succ count =>
          cases item with
          | error other =>
              cases failed
              rfl
          | ok r =>
              change (Feed.upTo count rest).bind _ = _ at failed
              cases more : Feed.upTo count rest with
              | ok records =>
                  rw [more] at failed
                  cases failed
              | error other =>
                  rw [more] at failed
                  cases failed
                  exact ih more

/-- Behind the last expected group a failure to read is told, or that records are left. -/
theorem ends_nil (c : Comparison) (groups taken given : Nat) (actual : Feed) :
    Ends c groups taken given [] actual (compareFrom c groups taken given [] actual) := by
  rw [compareFrom_nil]
  cases actual with
  | nil => exact .passed _ rfl rfl
  | cons item rest =>
      cases item with
      | error e => exact .actualFailure rfl
      | ok r =>
          change Ends c groups taken given [] (.ok r :: rest)
            (Except.bind (Except.bind (Feed.upTo Preview.limit rest) _) _)
          cases shown : Feed.upTo Preview.limit rest with
          | error e =>
              have read := failure_of_upTo shown
              exact .actualFailure read
          | ok others => exact .surplus _

theorem ends_compareFrom (c : Comparison) (groups taken given : Nat) (expected actual : Feed) :
    Ends c groups taken given expected actual
      (compareFrom c groups taken given expected actual) := by
  induction bound : expected.length using Nat.strongRecOn
    generalizing groups taken given expected actual with
  | ind bound ih =>
      subst bound
      cases expected with
      | nil => exact ends_nil c groups taken given actual
      | cons item rest =>
          cases item with
          | error e => exact .expectedFailure rfl
          | ok first =>
              obtain ⟨others, behind, rfl, inOthers, wantedLeaves⟩ :=
                Feed.exists_group c.key (c.key.extract first) rest
              obtain ⟨group, actual, rfl, inFound, foundLeaves⟩ :=
                Feed.exists_group c.key (c.key.extract first) actual
              refine ends_group (List.forall_mem_cons.mpr ⟨rfl, inOthers⟩) inFound wantedLeaves
                foundLeaves (ih behind.length ?_ _ _ _ behind actual rfl)
              rw [List.length_cons, List.length_append]
              omega

/-! ## What an end tells -/

theorem Ends.failure_eq_none {report : Report}
    (ends : Ends c groups taken given expected actual (.ok report)) :
    expected.untilFailure.2 = none ∧ actual.untilFailure.2 = none := by
  cases ends with
  | passed _ wanted found => exact ⟨wanted, found⟩

/-- An end that is no mismatch is a failure to read. -/
theorem Ends.failure_of_isMismatch {e : Failure}
    (ends : Ends c groups taken given expected actual (.error e)) (other : e.isMismatch = false) :
    expected.untilFailure.2 = some e ∨ actual.untilFailure.2 = some e := by
  cases ends with
  | expectedFailure read => exact Or.inl read
  | actualFailure read => exact Or.inr read
  | surplus remaining => cases other
  | stopped wantedFeed foundFeed stops =>
      rw [isMismatch_of_checkGroup stops.mismatch] at other
      cases other

/-- An end with the key of a group stops at that group, unless it was read as it is. -/
theorem Ends.stopsAt_of_key? {e : Failure} {key : String}
    (ends : Ends c groups taken given expected actual (.error e)) (about : e.key? = some key) :
    expected.untilFailure.2 = some e ∨ actual.untilFailure.2 = some e ∨
      ∃ (values : List Value) (wanted found : AtGroup c.key values), key = Key.display values ∧
        expected = wanted.feed ∧ actual = found.feed ∧
        StopsAt c groups taken given wanted found e := by
  cases ends with
  | expectedFailure read => exact Or.inl read
  | actualFailure read => exact Or.inr (Or.inl read)
  | surplus remaining => cases about
  | @stopped values wanted found _ wantedFeed foundFeed stops =>
      have same := about.symm.trans (key?_of_checkGroup stops.mismatch)
      exact Or.inr (Or.inr ⟨values, wanted, found, Option.some.inj same, wantedFeed, foundFeed,
        stops⟩)

end Grouped

/-- No failure to read is swallowed.  If a comparison of two feeds passes there is none in them; if
it ends with one, that is the first failure of its feed as it was read; and if it ends with the
group of a key, nothing behind the next record of either feed was read. -/
theorem Comparison.checkGrouped_failFast (c : Comparison) (expected actual : Feed) :
    (∀ report, c.checkGrouped expected actual = .ok report →
      expected.untilFailure.2 = none ∧ actual.untilFailure.2 = none) ∧
    (∀ e, c.checkGrouped expected actual = .error e → e.isMismatch = false →
      expected.untilFailure.2 = some e ∨ actual.untilFailure.2 = some e) ∧
    ∀ e key, c.checkGrouped expected actual = .error e → e.key? = some key →
      expected.untilFailure.2 = some e ∨ actual.untilFailure.2 = some e ∨
      ∃ (values : List Value) (wanted found : Grouped.AtGroup c.key values),
        key = Key.display values ∧ expected = wanted.feed ∧ actual = found.feed ∧
        Grouped.StopsAt c 0 0 0 wanted found e ∧
        ∀ behind behind', behind.head? = wanted.behind.head? →
          behind'.head? = found.behind.head? →
            c.checkGrouped (wanted.followedBy behind) (found.followedBy behind') = .error e := by
  have ends := Grouped.ends_compareFrom c 0 0 0 expected actual
  rw [← Grouped.checkGrouped_eq_compareFrom] at ends
  refine ⟨fun report passed => ?_, fun e failed other => ?_, fun e key failed about => ?_⟩
  · exact (passed ▸ ends).failure_eq_none
  · exact (failed ▸ ends).failure_of_isMismatch other
  · rcases (failed ▸ ends).stopsAt_of_key? about with
      read | read | ⟨values, wanted, found, same, wantedFeed, foundFeed, stops⟩
    · exact Or.inl read
    · exact Or.inr (Or.inl read)
    · refine Or.inr (Or.inr ⟨values, wanted, found, same, wantedFeed, foundFeed, stops,
        fun behind behind' front front' => ?_⟩)
      rw [Grouped.checkGrouped_eq_compareFrom]
      exact stops.unread behind behind' front front'

/-- No record has the key of the second group.  That is told before the failures behind the next
records are read, and whatever stands in their place. -/
theorem Comparison.checkGrouped_failFast_missed :
    let c := Comparison.ofSchema (.ofTypes "numbers" [.int])
    let lost : Failure := .access "disk" .unexpectedEnd
    let expected : Feed := [.ok ⟨[.int 1]⟩, .ok ⟨[.int 2]⟩, .ok ⟨[.int 3]⟩, .error lost]
    let actual : Feed := [.ok ⟨[.int 1]⟩, .ok ⟨[.int 3]⟩, .error lost]
    let missed : Failure := .noValueForKey "[2]" 1 "(2)" "(3)"
    c.checkGrouped expected actual = .error missed ∧
      ∃ (values : List Value) (wanted found : Grouped.AtGroup c.key values),
        expected = wanted.feed ∧ actual = found.feed ∧
        ∀ behind behind', behind.head? = wanted.behind.head? →
          behind'.head? = found.behind.head? →
            c.checkGrouped (wanted.followedBy behind) (found.followedBy behind') =
              .error missed := by
  intro c lost expected actual missed
  have failed : c.checkGrouped expected actual = .error missed := by decide +kernel
  obtain ⟨-, -, stopped⟩ := checkGrouped_failFast c expected actual
  have apart : some lost ≠ some missed := by simp [lost, missed]
  rcases stopped missed "[2]" failed rfl with read | read | ⟨values, wanted, found, -, rest⟩
  · exact absurd read apart
  · exact absurd read apart
  · obtain ⟨wantedFeed, foundFeed, -, unread⟩ := rest
    exact ⟨failed, values, wanted, found, wantedFeed, foundFeed, unread⟩

end Reconcile
