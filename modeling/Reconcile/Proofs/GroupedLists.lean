import Reconcile.Grouped
import Reconcile.Proofs.KeyOrder

/-!
# Grouped comparison of lists

Where no reading fails, comparing two feeds group by group is a recursion over two lists: a group is
taken from the front of each, and the rests are compared.
-/

namespace Reconcile

theorem Feed.upTo_ofRecords (count : Nat) (records : List Record) :
    Feed.upTo count (.ofRecords records) = .ok (records.take count) := by
  induction records generalizing count with
  | nil => cases count <;> rfl
  | cons r rest ih =>
      cases count with
      | zero => rfl
      | succ count =>
          change (do return r :: (← Feed.upTo count (.ofRecords rest))) = _
          rw [ih]
          rfl

/-- A message needs only one record more than it shows. -/
theorem Preview.text_take (render : Record → String) (separator : String) {limit count : Nat}
    (more : limit < count) (records : List Record) :
    text render separator limit (records.take count) = text render separator limit records := by
  induction records generalizing limit count with
  | nil => rw [List.take_nil]
  | cons r rest ih =>
      obtain ⟨count, rfl⟩ : ∃ n, count = n + 1 := ⟨count - 1, by omega⟩
      cases limit with
      | zero => rfl
      | succ limit =>
          have inner := ih (Nat.lt_of_succ_lt_succ more)
          obtain ⟨count, rfl⟩ : ∃ n, count = n + 1 := ⟨count - 1, by omega⟩
          cases rest with
          | nil => rfl
          | cons next rest =>
              rw [List.take_succ_cons, List.take_succ_cons] at *
              simp only [text, inner]

namespace Grouped

/-- The side in front of some records. -/
def Side.ofRecords : List Record → Nat → Side
  | [], taken => ⟨none, [], taken⟩
  | r :: rest, taken => ⟨some r, .ofRecords rest, taken⟩

namespace Side

@[simp] theorem ofRecords_held (records : List Record) (taken : Nat) :
    (ofRecords records taken).held = records.head? := by
  cases records <;> rfl

@[simp] theorem ofRecords_taken (records : List Record) (taken : Nat) :
    (ofRecords records taken).taken = taken := by
  cases records <;> rfl

theorem start_ofRecords (records : List Record) :
    start (.ofRecords records) = .ok (ofRecords records 0) := by
  cases records <;> rfl

theorem advance_ofRecords (r : Record) (rest : List Record) (taken : Nat) :
    (ofRecords (r :: rest) taken).advance = .ok (ofRecords rest (taken + 1)) := by
  cases rest <;> rfl

theorem takeGroup_of_not {belongs : Record → Bool} {r : Record} (outside : belongs r = false)
    (rest : List Record) (taken : Nat) :
    (ofRecords (r :: rest) taken).takeGroup belongs = .ok ([], ofRecords (r :: rest) taken) := by
  unfold takeGroup ofRecords takeWhile
  rw [outside]
  rfl

theorem takeGroup_of_belongs {belongs : Record → Bool} {r : Record} (inside : belongs r = true)
    (rest : List Record) (taken : Nat) :
    (ofRecords (r :: rest) taken).takeGroup belongs =
      ((ofRecords rest (taken + 1)).takeGroup belongs).map fun (group, side) =>
        (r :: group, side) := by
  unfold takeGroup
  cases rest with
  | nil => simp [ofRecords, takeWhile, inside, Feed.ofRecords, Except.map]
  | cons next rest =>
      change takeWhile belongs (some r) (.ok next :: Feed.ofRecords rest) taken = _
      rw [takeWhile, inside]
      rfl

theorem takeGroup_ofRecords (belongs : Record → Bool) (records : List Record) (taken : Nat) :
    (ofRecords records taken).takeGroup belongs =
      .ok (records.takeWhile belongs,
        ofRecords (records.dropWhile belongs) (taken + (records.takeWhile belongs).length)) := by
  induction records generalizing taken with
  | nil => rfl
  | cons r rest ih =>
      cases first : belongs r with
      | false =>
          rw [takeGroup_of_not first]
          simp [first]
      | true =>
          rw [takeGroup_of_belongs first, ih]
          simp [first, Except.map, Nat.add_assoc, Nat.add_comm 1]

end Side

/-- Compares two lists group by group, after some groups for which records were taken. -/
def checkLists (c : Comparison) (groups taken given : Nat) (expected actual : List Record) :
    Except Failure Report :=
  match expected with
  | [] =>
      match actual with
      | [] => .ok ⟨groups, taken, given, ⟨0⟩⟩
      | r :: rest => .error (.lessElementsExpected none (Preview.message c.render (r :: rest)))
  | first :: rest =>
      let values := c.key.extract first
      let others := rest.takeWhile fun r => c.key.extract r = values
      let group := actual.takeWhile fun r => c.key.extract r = values
      let left := actual.dropWhile fun r => c.key.extract r = values
      match checkGroup c values taken (first :: others) group left.head? with
      | .error e => .error e
      | .ok () =>
          checkLists c (groups + 1) (taken + 1 + others.length) (given + group.length)
            (rest.dropWhile fun r => c.key.extract r = values) left
termination_by expected.length
decreasing_by
  exact Nat.lt_succ_of_le (List.dropWhile_sublist _).length_le

/-- A group is checked, and if it passes the ones behind it are. -/
theorem checkLists_cons (c : Comparison) (groups taken given : Nat) (first : Record)
    (rest actual : List Record) :
    checkLists c groups taken given (first :: rest) actual =
      let values := c.key.extract first
      let others := rest.takeWhile fun r => c.key.extract r = values
      let group := actual.takeWhile fun r => c.key.extract r = values
      let left := actual.dropWhile fun r => c.key.extract r = values
      (checkGroup c values taken (first :: others) group left.head?).bind fun _ =>
        checkLists c (groups + 1) (taken + 1 + others.length) (given + group.length)
          (rest.dropWhile fun r => c.key.extract r = values) left := by
  rw [checkLists]
  simp only
  cases checkGroup _ _ _ _ _ _ <;> rfl

theorem checkEnd_ofRecords (c : Comparison) (actual : List Record) (given : Nat) :
    checkEnd c (.ofRecords actual given) =
      match actual with
      | [] => .ok ()
      | r :: rest =>
          .error (.lessElementsExpected none (Preview.message c.render (r :: rest))) := by
  cases actual with
  | nil => rfl
  | cons r rest =>
      have shown : Preview.message c.render (r :: rest.take Preview.limit) =
          Preview.message c.render (r :: rest) :=
        Preview.text_take c.render ", " (Nat.lt_succ_self Preview.limit) (r :: rest)
      change (Feed.upTo Preview.limit (Feed.ofRecords rest)).bind _ = _
      rw [Feed.upTo_ofRecords]
      exact congrArg (fun text => Except.error (Failure.lessElementsExpected none text)) shown

/-! ## One group -/

theorem isMismatch_of_residueFailure {c : Comparison} {key : String} {position : Nat}
    {residue : Residue} {failure : Failure}
    (fails : residueFailure c key position residue = some failure) : failure.isMismatch = true := by
  unfold residueFailure at fails
  split at fails <;> cases fails <;> rfl

/-- A group that does not pass is a mismatch. -/
theorem isMismatch_of_checkGroup {c : Comparison} {values : List Value} {position : Nat}
    {expected actual : List Record} {held : Option Record} {failure : Failure}
    (failed : checkGroup c values position expected actual held = .error failure) :
    failure.isMismatch = true := by
  unfold checkGroup at failed
  split at failed
  · cases failed
    rfl
  · simp only at failed
    split at failed
    · rename_i fails
      cases failed
      exact isMismatch_of_residueFailure fails
    · cases failed

/-! ## Groups in turn -/

theorem checkGroups_of_ended (c : Comparison) (groups : Nat) {expected : Side} (actual : Side)
    (ended : expected.held = none) :
    checkGroups c groups expected actual = .ok (groups, expected, actual) := by
  rw [checkGroups]
  split
  · rfl
  · rename_i held
    cases ended.symm.trans held

/-- The next group is taken from both sides and compared, then the others. -/
theorem checkGroups_of_held (c : Comparison) (groups : Nat) {expected : Side} (actual : Side)
    {first : Record} (held : expected.held = some first) :
    checkGroups c groups expected actual =
      expected.advance >>= fun next =>
      (next.takeGroup fun r => c.key.belongs r (c.key.extract first)) >>= fun wanted =>
      (actual.takeGroup fun r => c.key.belongs r (c.key.extract first)) >>= fun given =>
      checkGroup c (c.key.extract first) expected.taken (first :: wanted.1) given.1
        given.2.held >>= fun _ =>
      checkGroups c (groups + 1) wanted.2 given.2 := by
  rw [checkGroups]
  split
  · rename_i ended
    cases ended.symm.trans held
  · rename_i other same
    obtain rfl := Option.some.inj (same.symm.trans held)
    simp only
    split
    · rename_i e failed
      rw [failed]
      rfl
    · rename_i next advanced
      rw [advanced]
      change _ = Except.bind (next.takeGroup _) _
      split
      · rename_i e failed
        rw [failed]
        rfl
      · rename_i others after took
        rw [took]
        change _ = Except.bind (actual.takeGroup _) _
        cases actual.takeGroup fun r => c.key.belongs r (c.key.extract other) with
        | error e => rfl
        | ok given =>
            change _ = Except.bind (checkGroup _ _ _ _ _ _) _
            simp only
            cases checkGroup c (c.key.extract other) expected.taken (other :: others) given.1
              given.2.held with
            | error e => rfl
            | ok nothing => rfl

theorem checkGroups_nil (c : Comparison) (groups taken : Nat) (actual : Side) :
    checkGroups c groups (.ofRecords [] taken) actual =
      .ok (groups, .ofRecords [] taken, actual) :=
  checkGroups_of_ended c groups actual rfl

theorem checkGroups_cons (c : Comparison) (groups taken given : Nat) (first : Record)
    (rest actual : List Record) :
    checkGroups c groups (.ofRecords (first :: rest) taken) (.ofRecords actual given) =
      let values := c.key.extract first
      let others := rest.takeWhile fun r => c.key.extract r = values
      let group := actual.takeWhile fun r => c.key.extract r = values
      let left := actual.dropWhile fun r => c.key.extract r = values
      (checkGroup c values taken (first :: others) group left.head?).bind fun _ =>
        checkGroups c (groups + 1)
          (.ofRecords (rest.dropWhile fun r => c.key.extract r = values)
            (taken + 1 + others.length))
          (.ofRecords left (given + group.length)) := by
  rw [checkGroups_of_held c groups _ (Side.ofRecords_held (first :: rest) taken),
    Side.advance_ofRecords]
  change ((Side.ofRecords rest (taken + 1)).takeGroup _).bind _ = _
  simp only [Key.belongs_extract, Side.takeGroup_ofRecords]
  change Except.bind (checkGroup _ _ _ _ _ _) _ = _
  rw [Side.ofRecords_taken, Side.ofRecords_held]

theorem checkGroups_ofRecords (c : Comparison) (groups taken given : Nat)
    (expected actual : List Record) :
    ((checkGroups c groups (.ofRecords expected taken) (.ofRecords actual given)).bind
      fun (groups, expected, actual) =>
        (checkEnd c actual).bind fun _ => .ok ⟨groups, expected.taken, actual.taken, ⟨0⟩⟩) =
      checkLists c groups taken given expected actual := by
  fun_induction checkLists c groups taken given expected actual with
  | case1 groups taken given =>
      rw [checkGroups_nil]
      rfl
  | case2 groups taken given r rest =>
      rw [checkGroups_nil]
      change (checkEnd c (Side.ofRecords (r :: rest) given)).bind _ = _
      rw [checkEnd_ofRecords]
      rfl
  | case3 groups taken given actual first rest values others group left e checked =>
      rw [checkGroups_cons]
      change ((checkGroup c values taken (first :: others) group left.head?).bind _).bind _ = _
      rw [checked]
      rfl
  | case4 groups taken given actual first rest values others group left checked ih =>
      rw [checkGroups_cons]
      change ((checkGroup c values taken (first :: others) group left.head?).bind _).bind _ = _
      rw [checked]
      exact ih

/-- Without failures to read, grouped comparison is a comparison of lists. -/
theorem checkGrouped_ofRecords (c : Comparison) (expected actual : List Record) :
    c.checkGrouped (.ofRecords expected) (.ofRecords actual) =
      checkLists c 0 0 0 expected actual := by
  unfold Comparison.checkGrouped
  rw [Side.start_ofRecords, Side.start_ofRecords]
  exact checkGroups_ofRecords c 0 0 0 expected actual

end Grouped

end Reconcile
