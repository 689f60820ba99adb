import Reconcile.Proofs.GroupedLists

/-!
# Reading one record ahead

Comparing two feeds goes from group to group.  Before a group is compared, what is behind it has
been looked at on both sides, but only as far as the next item.
-/

namespace Reconcile

namespace Feed

/-! ## Looking at a feed -/

/-- Looks at the first item of a feed: its record, none at the end. -/
def peek (feed : Feed) : Except Failure (Option Record) :=
  match feed.head? with
  | none => .ok none
  | some (.ok r) => .ok (some r)
  | some (.error e) => .error e

/-- Only the first item is looked at. -/
theorem peek_congr {feed feed' : Feed} (same : feed'.head? = feed.head?) :
    feed'.peek = feed.peek := by
  rw [peek, peek, same]

theorem failure_of_peek {feed : Feed} {e : Failure} (failed : feed.peek = .error e) :
    feed.untilFailure.2 = some e := by
  cases feed with
  | nil => cases failed
  | cons item rest =>
      cases item with
      | ok r => cases failed
      | error other =>
          cases failed
          rfl

@[simp] theorem failure_ofRecords_append (records : List Record) (feed : Feed) :
    (ofRecords records ++ feed).untilFailure.2 = feed.untilFailure.2 := by
  induction records with
  | nil => rfl
  | cons r rest ih => exact ih

theorem head?_ofRecords_append {records : List Record} {feed feed' : Feed}
    (same : feed'.head? = feed.head?) :
    (ofRecords records ++ feed').head? = (ofRecords records ++ feed).head? := by
  cases records with
  | nil => exact same
  | cons r rest => rfl

theorem ofRecords_append (records others : List Record) :
    ofRecords (records ++ others) = ofRecords records ++ ofRecords others :=
  List.map_append

theorem peek_ofRecords (records : List Record) : (ofRecords records).peek = .ok records.head? := by
  cases records <;> rfl

/-! ## Groups in a feed -/

/-- A feed that does not go on with a record of a key. -/
def Leaves (k : Key) (values : List Value) (feed : Feed) : Prop :=
  ∀ r, feed.head? = some (.ok r) → k.extract r ≠ values

theorem Leaves.congr {k : Key} {values : List Value} {feed feed' : Feed}
    (leaves : feed.Leaves k values) (same : feed'.head? = feed.head?) : feed'.Leaves k values :=
  fun r front => leaves r (same.symm.trans front)

/-- The records of a key are taken from the front of a feed. -/
theorem exists_group (k : Key) (values : List Value) (feed : Feed) :
    ∃ group behind, feed = ofRecords group ++ behind ∧ (∀ r ∈ group, k.extract r = values) ∧
      behind.Leaves k values := by
  induction feed with
  | nil => exact ⟨[], [], rfl, List.forall_mem_nil _, fun r front => by cases front⟩
  | cons item rest ih =>
      cases item with
      | error e =>
          exact ⟨[], .error e :: rest, rfl, List.forall_mem_nil _, fun r front => by cases front⟩
      | ok first =>
          by_cases same : k.extract first = values
          · obtain ⟨group, behind, rfl, inGroup, leaves⟩ := ih
            exact ⟨first :: group, behind, rfl, List.forall_mem_cons.mpr ⟨same, inGroup⟩, leaves⟩
          · refine ⟨[], .ok first :: rest, rfl, List.forall_mem_nil _, fun r front => ?_⟩
            obtain rfl := Except.ok.inj (Option.some.inj front)
            exact same

end Feed

namespace Grouped

/-! ## One side -/

/-- The side in front of a feed, after some records were taken. -/
def Side.ahead (feed : Feed) (taken : Nat) : Except Failure Side :=
  feed.peek.map fun held => ⟨held, feed.tail, taken⟩

namespace Side

theorem ahead_of_ok {feed : Feed} {held : Option Record} (looked : feed.peek = .ok held)
    (taken : Nat) : ahead feed taken = .ok ⟨held, feed.tail, taken⟩ := by
  rw [ahead, looked]
  rfl

theorem ahead_of_error {feed : Feed} {e : Failure} (failed : feed.peek = .error e) (taken : Nat) :
    ahead feed taken = .error e := by
  rw [ahead, failed]
  rfl

theorem start_eq_ahead (feed : Feed) : start feed = ahead feed 0 := by
  cases feed with
  | nil => rfl
  | cons item rest => cases item <;> rfl

theorem advance_eq_ahead (s : Side) : s.advance = ahead s.rest (s.taken + 1) := by
  obtain ⟨held, rest, taken⟩ := s
  cases rest with
  | nil => rfl
  | cons item rest => cases item <;> rfl

theorem takeGroup_of_leaves {k : Key} {values : List Value} {behind : Feed}
    (leaves : behind.Leaves k values) (taken : Nat) :
    ((ahead behind taken).bind fun side => side.takeGroup fun r => k.extract r = values) =
      (ahead behind taken).map fun side => ([], side) := by
  cases behind with
  | nil => rfl
  | cons item rest =>
      cases item with
      | error e => rfl
      | ok r =>
          have outside : k.extract r ≠ values := leaves r rfl
          change takeWhile _ (some r) rest taken = _
          unfold takeWhile
          simp only [outside, decide_false, Bool.false_eq_true, if_false]
          rfl

/-- The records of a group are taken, and the item behind them is looked at. -/
theorem takeGroup_ahead {k : Key} {values : List Value} {group : List Record} {behind : Feed}
    (inGroup : ∀ r ∈ group, k.extract r = values) (leaves : behind.Leaves k values) (taken : Nat) :
    ((ahead (.ofRecords group ++ behind) taken).bind fun side =>
        side.takeGroup fun r => k.extract r = values) =
      (ahead behind (taken + group.length)).map fun side => (group, side) := by
  induction group generalizing taken with
  | nil => exact takeGroup_of_leaves leaves taken
  | cons r group ih =>
      obtain ⟨same, inRest⟩ := List.forall_mem_cons.mp inGroup
      have later := ih inRest (taken + 1)
      rw [List.length_cons, Nat.add_comm group.length, ← Nat.add_assoc]
      change takeWhile _ (some r) (Feed.ofRecords group ++ behind) taken = _
      unfold takeWhile
      simp only [same, decide_true, if_true]
      generalize Feed.ofRecords group ++ behind = rest at later
      cases rest with
      | nil =>
          cases next : ahead behind (taken + 1 + group.length) with
          | error e =>
              rw [next] at later
              cases later
          | ok side =>
              rw [next] at later
              obtain ⟨rfl, rfl⟩ := Prod.mk.inj (Except.ok.inj later)
              rfl
      | cons item rest =>
          cases item with
          | error e =>
              cases next : ahead behind (taken + 1 + group.length) with
              | error other =>
                  rw [next] at later
                  obtain rfl := Except.error.inj later
                  rfl
              | ok side =>
                  rw [next] at later
                  cases later
          | ok head =>
              change takeWhile _ (some head) rest (taken + 1) = _ at later
              simp only [later]
              cases ahead behind (taken + 1 + group.length) <;> rfl

end Side

/-! ## Both sides -/

/-- Compares two feeds, after some groups for which records were taken. -/
def compareFrom (c : Comparison) (groups taken given : Nat) (expected actual : Feed) :
    Except Failure Report := do
  let expected ← Side.ahead expected taken
  let actual ← Side.ahead actual given
  let (groups, expected, actual) ← checkGroups c groups expected actual
  checkEnd c actual
  return ⟨groups, expected.taken, actual.taken, ⟨0⟩⟩

theorem checkGrouped_eq_compareFrom (c : Comparison) (expected actual : Feed) :
    c.checkGrouped expected actual = compareFrom c 0 0 0 expected actual := by
  rw [Comparison.checkGrouped, Side.start_eq_ahead, Side.start_eq_ahead]
  rfl

/-- Behind the last expected group there must be nothing. -/
theorem compareFrom_nil (c : Comparison) (groups taken given : Nat) (actual : Feed) :
    compareFrom c groups taken given [] actual = do
      let actual ← Side.ahead actual given
      checkEnd c actual
      return ⟨groups, taken, actual.taken, ⟨0⟩⟩ := by
  unfold compareFrom
  change (Side.ahead actual given).bind _ = (Side.ahead actual given).bind _
  congr 1
  funext actual
  rw [checkGroups_of_ended c groups actual rfl]
  rfl

/-- Compares what two sides have in front of them. -/
def compareSides (c : Comparison) (groups : Nat) (expected actual : Side) :
    Except Failure Report := do
  let (groups, expected, actual) ← checkGroups c groups expected actual
  checkEnd c actual
  return ⟨groups, expected.taken, actual.taken, ⟨0⟩⟩

theorem compareFrom_eq (c : Comparison) (groups taken given : Nat) (expected actual : Feed) :
    compareFrom c groups taken given expected actual =
      Side.ahead expected taken >>= fun expected =>
      Side.ahead actual given >>= fun actual => compareSides c groups expected actual :=
  rfl

theorem compareSides_of_held (c : Comparison) (groups : Nat) {expected : Side} (actual : Side)
    {first : Record} (held : expected.held = some first) :
    compareSides c groups expected actual =
      expected.advance >>= fun next =>
      (next.takeGroup fun r => c.key.extract r = c.key.extract first) >>= fun wanted =>
      (actual.takeGroup fun r => c.key.extract r = c.key.extract first) >>= fun given =>
      checkGroup c (c.key.extract first) expected.taken (first :: wanted.1) given.1
        given.2.held >>= fun _ =>
      compareSides c (groups + 1) wanted.2 given.2 := by
  rw [compareSides, checkGroups_of_held c groups actual held]
  simp only [Key.belongs_extract, bind_assoc]
  rfl

/-- A group is compared once the items behind it have been looked at, and then what is behind it. -/
theorem compareFrom_group (c : Comparison) (groups taken given : Nat) {values : List Value}
    {first : Record} {others group : List Record} {expected actual : Feed}
    (inWanted : ∀ r ∈ first :: others, c.key.extract r = values)
    (inGiven : ∀ r ∈ group, c.key.extract r = values)
    (wantedLeaves : expected.Leaves c.key values) (givenLeaves : actual.Leaves c.key values) :
    compareFrom c groups taken given (.ofRecords (first :: others) ++ expected)
        (.ofRecords group ++ actual) =
      Feed.peek (.ofRecords group ++ actual) >>= fun _ =>
      expected.peek >>= fun _ =>
      actual.peek >>= fun held =>
      checkGroup c values taken (first :: others) group held >>= fun _ =>
      compareFrom c (groups + 1) (taken + 1 + others.length) (given + group.length) expected
        actual := by
  obtain ⟨rfl, inOthers⟩ := List.forall_mem_cons.mp inWanted
  have wanted := Side.takeGroup_ahead inOthers wantedLeaves (taken + 1)
  have found := Side.takeGroup_ahead inGiven givenLeaves given
  have start : Side.ahead (.ofRecords (first :: others) ++ expected) taken =
      .ok ⟨some first, .ofRecords others ++ expected, taken⟩ := rfl
  rw [compareFrom_eq, start]
  cases looked : Feed.peek (.ofRecords group ++ actual) with
  | error e =>
      rw [Side.ahead_of_error looked]
      rfl
  | ok head =>
      rw [Side.ahead_of_ok looked] at found ⊢
      change compareSides c groups _ _ = _
      rw [compareSides_of_held c groups _ rfl, Side.advance_eq_ahead, ← bind_assoc]
      change (Except.bind (Except.bind _ _) _) = _
      rw [wanted]
      change Side.takeGroup _ _ = _ at found
      -- The expected side has looked behind its group before the actual side takes any record.
      cases wantedPeek : expected.peek with
      | error e =>
          rw [Side.ahead_of_error wantedPeek]
          rfl
      | ok behind =>
          rw [Side.ahead_of_ok wantedPeek]
          change (Side.takeGroup _ _ >>= _) = _
          rw [found]
          cases givenPeek : actual.peek with
          | error e =>
              rw [Side.ahead_of_error givenPeek]
              rfl
          | ok held =>
              rw [compareFrom_eq, Side.ahead_of_ok wantedPeek, Side.ahead_of_ok givenPeek]
              rfl

end Grouped

end Reconcile
