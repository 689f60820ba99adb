import Reconcile.Proofs.FailFast
import Reconcile.Proofs.OrderedFeeds
import Reconcile.Source.Viewing

/-!
# Bounded previews

Messages about records that are too many, and the preview of a source, show the first records of a
feed.  Of these one more than is shown is read at most, and still the text is the one that all the
records would give: whether more are left is all that it tells of them.
-/

namespace Reconcile

namespace Preview

/-! ## The text of a preview -/

/-- Where all records are shown, separators stand between them. -/
theorem text_of_few (render : Record → String) (separator : String) {max : Nat}
    {records : List Record} (few : records.length ≤ max) :
    text render separator max records = separator.intercalate (records.map render) := by
  fun_induction text render separator max records with
  | case1 max => exact String.intercalate_nil.symm
  | case2 r rest => cases few
  | case3 max r => exact String.intercalate_singleton.symm
  | case4 max r rest more ih =>
      obtain ⟨next, others, rfl⟩ := List.exists_cons_of_ne_nil more
      rw [ih (Nat.le_of_succ_le_succ few)]
      exact String.intercalate_cons_cons.symm

/-- Where not all records are shown, a separator stands behind each, and dots at the end. -/
theorem text_of_more (render : Record → String) (separator : String) {max : Nat}
    {records : List Record} (more : max < records.length) :
    text render separator max records =
      String.join ((records.take max).map fun r => render r ++ separator) ++ "..." := by
  fun_induction text render separator max records with
  | case1 max => cases more
  | case2 r rest => rfl
  | case3 max r => exact absurd more (by simp)
  | case4 max r rest _ ih =>
      rw [ih (Nat.lt_of_succ_lt_succ more), List.take_succ_cons, List.map_cons, String.join_cons]
      simp only [String.append_assoc]

end Preview

/-! ## Reading for a preview -/

/-- Records that the preview of a feed can be told from: all of it, or more than are shown. -/
def Preview.Suffice (max : Nat) (records : List Record) (unread : Feed) : Prop :=
  unread = [] ∨ max < records.length

/-- Only the items that are asked for are read. -/
theorem Feed.upTo_congr {count : Nat} {feed feed' : Feed}
    (same : feed'.take count = feed.take count) : feed'.upTo count = feed.upTo count := by
  rw [upTo_eq, upTo_eq, same]

theorem Feed.upTo_append {count : Nat} {records : List Record} {unread : Feed}
    (enough : unread = [] ∨ count ≤ records.length) :
    Feed.upTo count (.ofRecords records ++ unread) = .ok (records.take count) := by
  rw [← upTo_ofRecords]
  refine upTo_congr ?_
  rcases enough with rfl | enough
  · rw [List.append_nil]
  · exact List.take_append_of_le_length (by rwa [ofRecords, List.length_map])

theorem Feed.exists_of_ofRecords_eq_append {records front : List Record} {feed : Feed}
    (split : Feed.ofRecords records = .ofRecords front ++ feed) :
    ∃ behind, records = front ++ behind ∧ feed = .ofRecords behind := by
  obtain ⟨front', behind, rfl, same, rfl⟩ := List.map_eq_append_iff.mp split
  obtain rfl := Ordered.ofRecords_injective same
  exact ⟨behind, rfl, rfl⟩

/-- The records of a key are taken from the front of a list. -/
theorem Feed.exists_group_of_records (k : Key) (values : List Value) (records : List Record) :
    ∃ group behind, records = group ++ behind ∧ (∀ r ∈ group, k.extract r = values) ∧
      (Feed.ofRecords behind).Leaves k values := by
  obtain ⟨group, feed, split, inGroup, leaves⟩ := exists_group k values (.ofRecords records)
  obtain ⟨behind, rfl, rfl⟩ := exists_of_ofRecords_eq_append split
  exact ⟨group, behind, rfl, inGroup, leaves⟩

namespace Preview

variable {max : Nat} {first : Record} {others records : List Record} {unread : Feed}

/-- One record more than is shown is enough. -/
theorem text_upTo (render : Record → String) (separator : String)
    (suffice : Suffice max records unread) :
    (Feed.upTo (max + 1) (.ofRecords records ++ unread)).map (text render separator max) =
      .ok (text render separator max records) := by
  rw [Feed.upTo_append (suffice.imp_right Nat.succ_le_of_lt)]
  exact congrArg Except.ok (text_take render separator (Nat.lt_succ_self max) records)

/-- Where one record was read ahead, as many as are shown are read behind it. -/
theorem surplus_ofRecords (c : Comparison) (suffice : Suffice limit (first :: others) unread) :
    Ordered.surplus c first (.ofRecords others ++ unread) =
      .ok (message c.render (first :: others)) := by
  refine Eq.trans ?_ (text_upTo c.render ", " suffice)
  change (Feed.upTo limit (.ofRecords others ++ unread)).bind _ =
    ((Feed.upTo limit (.ofRecords others ++ unread)).bind _).map _
  cases Feed.upTo limit (.ofRecords others ++ unread) <;> rfl

end Preview

namespace Grouped

variable {c : Comparison} {groups taken given : Nat}

/-! ## Records behind the last group -/

theorem checkEnd_of_held (c : Comparison) (r : Record) (rest : Feed) (taken : Nat) :
    checkEnd c ⟨some r, rest, taken⟩ =
      (Ordered.surplus c r rest).bind fun text => .error (.lessElementsExpected none text) := by
  change (Feed.upTo Preview.limit rest).bind _ = Except.bind (Except.bind _ _) _
  cases Feed.upTo Preview.limit rest <;> rfl

/-- Actual records behind all expected ones are told of. -/
theorem compareFrom_left (c : Comparison) (groups taken given : Nat) {remaining : List Record}
    {unread : Feed} (left : remaining ≠ [])
    (suffice : Preview.Suffice Preview.limit remaining unread) :
    compareFrom c groups taken given [] (.ofRecords remaining ++ unread) =
      .error (.lessElementsExpected none (Preview.message c.render remaining)) := by
  obtain ⟨first, others, rfl⟩ := List.exists_cons_of_ne_nil left
  rw [compareFrom_nil]
  change Except.bind (checkEnd c ⟨some first, .ofRecords others ++ unread, given⟩) _ = _
  rw [checkEnd_of_held, Preview.surplus_ofRecords c suffice]
  rfl

/-- Lists of records, group after group. -/
theorem records_by_group (k : Key) {motive : List Record → Prop} (nil : motive [])
    (group : ∀ (values : List Value) (first : Record) (others behind : List Record),
      (∀ r ∈ first :: others, k.extract r = values) → (Feed.ofRecords behind).Leaves k values →
        motive behind → motive (first :: others ++ behind))
    (records : List Record) : motive records := by
  induction bound : records.length using Nat.strongRecOn generalizing records with
  | ind bound ih =>
      subst bound
      cases records with
      | nil => exact nil
      | cons first rest =>
          obtain ⟨others, behind, rfl, inOthers, leaves⟩ :=
            Feed.exists_group_of_records k (k.extract first) rest
          refine group (k.extract first) first others behind
            (List.forall_mem_cons.mpr ⟨rfl, inOthers⟩) leaves (ih behind.length ?_ behind rfl)
          rw [List.length_cons, List.length_append]
          omega

/-- The records of one side run out with those of the other. -/
theorem eq_nil_iff_of_passes {expected actual : List Record} {report : Report}
    (passes : compareFrom c groups taken given (.ofRecords expected) (.ofRecords actual) =
      .ok report) : actual = [] ↔ expected = [] := by
  constructor
  · rintro rfl
    cases expected with
    | nil => rfl
    | cons first rest =>
        obtain ⟨others, behind, rfl, inOthers, leaves⟩ :=
          Feed.exists_group_of_records c.key (c.key.extract first) rest
        have missed : compareFrom c groups taken given
            (.ofRecords (first :: others) ++ .ofRecords behind) (Feed.ofRecords [] ++ []) = _ :=
          compareFrom_group_of_peek (List.forall_mem_cons.mpr ⟨rfl, inOthers⟩)
            (List.forall_mem_nil _) leaves (fun r front => by cases front)
            (Feed.peek_ofRecords behind) rfl
        rw [← Feed.ofRecords_append] at missed
        cases passes.symm.trans missed
  · rintro rfl
    by_contra left
    have ended := compareFrom_left c groups taken given left (.inl rfl)
    rw [List.append_nil] at ended
    cases passes.symm.trans ended

/-- All expected groups match the records in front, and behind these are records left that the last
group does not go on with. -/
structure Surplus (c : Comparison) (groups taken given : Nat)
    (expected front remaining : List Record) : Prop where
  left : remaining ≠ []
  apart : ∀ e ∈ expected.getLast?, (Feed.ofRecords remaining).Leaves c.key (c.key.extract e)
  passes : ∃ report, compareFrom c groups taken given (.ofRecords expected) (.ofRecords front) =
    .ok report

section Step

variable {values : List Value} {first : Record}
  {others group expected front remaining : List Record}
  (inWanted : ∀ r ∈ first :: others, c.key.extract r = values)
  (frontLeaves : (Feed.ofRecords front).Leaves c.key values)

include inWanted frontLeaves

/-- Only the last group can go on with the records that are left. -/
theorem apart_append_iff (ended : front = [] ↔ expected = []) :
    (∀ e ∈ (first :: others ++ expected).getLast?,
        (Feed.ofRecords remaining).Leaves c.key (c.key.extract e)) ↔
      (Feed.ofRecords (front ++ remaining)).Leaves c.key values ∧
        ∀ e ∈ expected.getLast?, (Feed.ofRecords remaining).Leaves c.key (c.key.extract e) := by
  cases expected with
  | nil =>
      -- The records that are left follow the group at once.
      obtain rfl : front = [] := ended.mpr rfl
      rw [List.append_nil]
      have inLast : ∀ e ∈ (first :: others).getLast?, c.key.extract e = values :=
        fun e last => inWanted e (List.mem_of_mem_getLast? last)
      constructor
      · intro apart
        refine ⟨?_, fun e last => by cases last⟩
        obtain ⟨e, last⟩ := Option.isSome_iff_exists.mp
          (List.getLast?_isSome.mpr (List.cons_ne_nil first others))
        exact inLast e last ▸ apart e last
      · rintro ⟨leaves, -⟩ e last
        rw [inLast e last]
        exact leaves
  | cons next rest =>
      obtain ⟨head, more, rfl⟩ : ∃ head more, front = head :: more :=
        List.exists_cons_of_ne_nil fun none => List.cons_ne_nil next rest (ended.mp none)
      have leaves : (Feed.ofRecords (head :: more ++ remaining)).Leaves c.key values :=
        fun r inFront => frontLeaves r inFront
      rw [List.getLast?_append, Option.or_of_isSome
        (List.getLast?_isSome.mpr (List.cons_ne_nil next rest)), and_iff_right leaves]

variable (inFound : ∀ r ∈ group, c.key.extract r = values)
  (wantedLeaves : (Feed.ofRecords expected).Leaves c.key values)

include inFound wantedLeaves

/-- In lists, a group is compared and then what is behind it. -/
theorem compareFrom_group_of_records :
    compareFrom c groups taken given (.ofRecords (first :: others ++ expected))
        (.ofRecords (group ++ front)) =
      checkGroup c values taken (first :: others) group front.head? >>= fun _ =>
      compareFrom c (groups + 1) (taken + 1 + others.length) (given + group.length)
        (.ofRecords expected) (.ofRecords front) := by
  rw [Feed.ofRecords_append, Feed.ofRecords_append]
  exact compareFrom_group_of_peek inWanted inFound wantedLeaves frontLeaves
    (Feed.peek_ofRecords expected) (Feed.peek_ofRecords front)

/-- The records left behind a group that passes are those left behind the other groups. -/
theorem surplus_group_iff :
    Surplus c groups taken given (first :: others ++ expected) (group ++ front) remaining ↔
      checkGroup c values taken (first :: others) group front.head? = .ok () ∧
        (Feed.ofRecords (front ++ remaining)).Leaves c.key values ∧
        Surplus c (groups + 1) (taken + 1 + others.length) (given + group.length) expected front
          remaining := by
  constructor
  · rintro ⟨left, apart, report, passes⟩
    rw [compareFrom_group_of_records inWanted frontLeaves inFound wantedLeaves] at passes
    cases checked : checkGroup c values taken (first :: others) group front.head? with
    | error e =>
        rw [checked] at passes
        cases passes
    | ok nothing =>
        rw [checked] at passes
        obtain ⟨leaves, apart⟩ :=
          (apart_append_iff inWanted frontLeaves (eq_nil_iff_of_passes passes)).mp apart
        exact ⟨rfl, leaves, left, apart, report, passes⟩
  · rintro ⟨checked, leaves, left, apart, report, passes⟩
    refine ⟨left, ?_, report, ?_⟩
    · exact (apart_append_iff inWanted frontLeaves (eq_nil_iff_of_passes passes)).mpr
        ⟨leaves, apart⟩
    · rw [compareFrom_group_of_records inWanted frontLeaves inFound wantedLeaves, checked]
      exact passes

end Step

/-- Records left behind the last group are told of, from those that are shown and one more. -/
theorem Surplus.compareFrom_eq {expected front remaining : List Record} {unread : Feed}
    (surplus : Surplus c groups taken given expected front remaining)
    (suffice : Preview.Suffice Preview.limit remaining unread) :
    compareFrom c groups taken given (.ofRecords expected)
        (.ofRecords (front ++ remaining) ++ unread) =
      .error (.lessElementsExpected none (Preview.message c.render remaining)) := by
  induction expected using records_by_group c.key generalizing groups taken given front with
  | nil =>
      obtain ⟨report, passes⟩ := surplus.passes
      obtain rfl : front = [] := (eq_nil_iff_of_passes passes).mpr rfl
      exact compareFrom_left c groups taken given surplus.left suffice
  | group values first others expected inWanted wantedLeaves ih =>
      obtain ⟨group, front, rfl, inFound, frontLeaves⟩ :=
        Feed.exists_group_of_records c.key values front
      obtain ⟨checked, leaves, later⟩ :=
        (surplus_group_iff inWanted frontLeaves inFound wantedLeaves).mp surplus
      -- A record stands behind the group, so that nothing unread is looked at to find its end.
      obtain ⟨head, more, inFront⟩ : ∃ head more, front ++ remaining = head :: more :=
        List.exists_cons_of_ne_nil (List.append_ne_nil_of_right_ne_nil front surplus.left)
      have same : (Feed.ofRecords (front ++ remaining) ++ unread).head? =
          (Feed.ofRecords (front ++ remaining)).head? := by
        rw [inFront]
        rfl
      have looked := (Feed.peek_congr same).trans (Feed.peek_ofRecords (front ++ remaining))
      rw [List.append_assoc, Feed.ofRecords_append (first :: others),
        Feed.ofRecords_append group, List.append_assoc, compareFrom_group_of_peek inWanted inFound
        wantedLeaves (leaves.congr same) (Feed.peek_ofRecords expected) looked,
        checkGroup_of_passed checked]
      exact ih later

/-- Only records left behind the last group are told of without a key. -/
theorem exists_surplus {expected actual : List Record} {shown : String}
    (told : compareFrom c groups taken given (.ofRecords expected) (.ofRecords actual) =
      .error (.lessElementsExpected none shown)) :
    ∃ front remaining, actual = front ++ remaining ∧
      Surplus c groups taken given expected front remaining := by
  induction expected using records_by_group c.key generalizing groups taken given actual with
  | nil =>
      have left : actual ≠ [] := by
        rintro rfl
        cases (compareFrom_nil c groups taken given []).symm.trans told
      exact ⟨[], actual, rfl, left, fun e last => (by cases last), _,
        compareFrom_nil c groups taken given []⟩
  | group values first others expected inWanted wantedLeaves ih =>
      obtain ⟨group, left, rfl, inFound, leaves⟩ :=
        Feed.exists_group_of_records c.key values actual
      rw [compareFrom_group_of_records inWanted leaves inFound wantedLeaves] at told
      cases checked : checkGroup c values taken (first :: others) group left.head? with
      | error e =>
          -- What is told of a group has its key.
          rw [checked] at told
          obtain rfl := Except.error.inj told
          cases key?_of_checkGroup checked
      | ok nothing =>
          rw [checked] at told
          obtain ⟨front, remaining, rfl, later⟩ := ih told
          have frontLeaves : (Feed.ofRecords front).Leaves c.key values := by
            cases front with
            | nil => exact fun r inFront => by cases inFront
            | cons head more => exact fun r inFront => leaves r inFront
          exact ⟨group ++ front, remaining, (List.append_assoc group front remaining).symm,
            (surplus_group_iff inWanted frontLeaves inFound wantedLeaves).mpr
              ⟨checkGroup_of_passed checked _, leaves, later⟩⟩

/-- The text without a key is that of everything behind the last group. -/
theorem checkGrouped_lessElements_iff {expected actual : List Record} {shown : String} :
    c.checkGrouped (.ofRecords expected) (.ofRecords actual) =
        .error (.lessElementsExpected none shown) ↔
      ∃ front remaining, actual = front ++ remaining ∧ Surplus c 0 0 0 expected front remaining ∧
        shown = Preview.message c.render remaining := by
  rw [checkGrouped_eq_compareFrom]
  constructor
  · intro told
    obtain ⟨front, remaining, rfl, surplus⟩ := exists_surplus told
    have ended := surplus.compareFrom_eq (.inl rfl)
    rw [List.append_nil] at ended
    obtain ⟨-, same⟩ :=
      Failure.lessElementsExpected.inj (Except.error.inj (told.symm.trans ended))
    exact ⟨front, remaining, rfl, surplus, same⟩
  · rintro ⟨front, remaining, rfl, surplus, rfl⟩
    have ended := surplus.compareFrom_eq (.inl rfl)
    rwa [List.append_nil] at ended

end Grouped

namespace Ordered

variable {c : Comparison} {wanted given remaining : List Record} {unread : Feed}

/-! ## Records behind equal ones -/

theorem checkOrdered_expectedLonger (pairs : Paired c wanted given) (left : remaining ≠ [])
    (suffice : Preview.Suffice Preview.limit remaining unread) :
    c.checkOrdered (.ofRecords (wanted ++ remaining) ++ unread) (.ofRecords given) =
      .error (.moreElementsExpected none (Preview.message c.render remaining)) := by
  obtain ⟨first, others, rfl⟩ := List.exists_cons_of_ne_nil left
  rw [Comparison.checkOrdered, Feed.ofRecords_append, List.append_assoc,
    ← List.append_nil (Feed.ofRecords given), check_append pairs]
  change (surplus c first (.ofRecords others ++ unread)).bind _ = _
  rw [Preview.surplus_ofRecords c suffice]
  rfl

theorem checkOrdered_actualLonger (pairs : Paired c wanted given) (left : remaining ≠ [])
    (suffice : Preview.Suffice Preview.limit remaining unread) :
    c.checkOrdered (.ofRecords wanted) (.ofRecords (given ++ remaining) ++ unread) =
      .error (.lessElementsExpected none (Preview.message c.render remaining)) := by
  obtain ⟨first, others, rfl⟩ := List.exists_cons_of_ne_nil left
  rw [Comparison.checkOrdered, Feed.ofRecords_append, List.append_assoc,
    ← List.append_nil (Feed.ofRecords wanted), check_append pairs]
  change (surplus c first (.ofRecords others ++ unread)).bind _ = _
  rw [Preview.surplus_ofRecords c suffice]
  rfl

/-- How two lists compare in order. -/
inductive ListsEnd (c : Comparison) :
    List Record → List Record → Except Failure Nat → Prop where
  | same {wanted given : List Record} (pairs : Paired c wanted given) :
      ListsEnd c wanted given (.ok wanted.length)
  | expectedLonger {wanted given remaining : List Record} (pairs : Paired c wanted given)
      (left : remaining ≠ []) :
      ListsEnd c (wanted ++ remaining) given
        (.error (.moreElementsExpected none (Preview.message c.render remaining)))
  | actualLonger {wanted given remaining : List Record} (pairs : Paired c wanted given)
      (left : remaining ≠ []) :
      ListsEnd c wanted (given ++ remaining)
        (.error (.lessElementsExpected none (Preview.message c.render remaining)))
  | mismatch {expected actual : List Record} (position : Nat) (e a : String) :
      ListsEnd c expected actual (.error (.valueMismatch position e a))

theorem listsEnd_checkOrdered (c : Comparison) (expected actual : List Record) :
    ListsEnd c expected actual (c.checkOrdered (.ofRecords expected) (.ofRecords actual)) := by
  obtain ⟨wanted, given, rest, rest', split, split', pairs, parts⟩ :=
    exists_paired c (.ofRecords expected) (.ofRecords actual)
  obtain ⟨left, rfl, rfl⟩ := Feed.exists_of_ofRecords_eq_append split
  obtain ⟨left', rfl, rfl⟩ := Feed.exists_of_ofRecords_eq_append split'
  cases left with
  | nil =>
      rw [List.append_nil]
      cases left' with
      | nil =>
          rw [List.append_nil, checkOrdered_ofRecords_eq_ok_iff.mpr ⟨pairs, rfl⟩]
          exact .same pairs
      | cons a others =>
          have longer := checkOrdered_actualLonger pairs (List.cons_ne_nil a others) (.inl rfl)
          rw [List.append_nil] at longer
          rw [longer]
          exact .actualLonger pairs (List.cons_ne_nil a others)
  | cons e others =>
      cases left' with
      | nil =>
          have longer := checkOrdered_expectedLonger pairs (List.cons_ne_nil e others) (.inl rfl)
          rw [List.append_nil] at longer ⊢
          rw [longer]
          exact .expectedLonger pairs (List.cons_ne_nil e others)
      | cons a others' =>
          have apart : ¬ c.equal e a = true := fun equal =>
            parts (pairedAt_zero_iff.mpr ⟨e, a, _, _, rfl, rfl, equal⟩)
          rw [Comparison.checkOrdered, Feed.ofRecords_append, Feed.ofRecords_append,
            check_append pairs]
          change ListsEnd c _ _
            (check c _ (.ok e :: Feed.ofRecords others) (.ok a :: Feed.ofRecords others'))
          rw [check, if_neg apart]
          exact .mismatch _ _ _

/-- More elements are expected where equal records are in front, and told of without a key. -/
theorem checkOrdered_moreElements_iff {expected actual : List Record} {key : Option String}
    {shown : String} :
    c.checkOrdered (.ofRecords expected) (.ofRecords actual) =
        .error (.moreElementsExpected key shown) ↔
      key = none ∧ ∃ front remaining, expected = front ++ remaining ∧ remaining ≠ [] ∧
        Paired c front actual ∧ shown = Preview.message c.render remaining := by
  constructor
  · intro told
    have ends := listsEnd_checkOrdered c expected actual
    rw [told] at ends
    cases ends with
    | expectedLonger pairs left => exact ⟨rfl, _, _, rfl, left, pairs, rfl⟩
  · rintro ⟨rfl, front, remaining, rfl, left, pairs, rfl⟩
    have ended := checkOrdered_expectedLonger pairs left (.inl rfl)
    rwa [List.append_nil] at ended

theorem checkOrdered_lessElements_iff {expected actual : List Record} {key : Option String}
    {shown : String} :
    c.checkOrdered (.ofRecords expected) (.ofRecords actual) =
        .error (.lessElementsExpected key shown) ↔
      key = none ∧ ∃ front remaining, actual = front ++ remaining ∧ remaining ≠ [] ∧
        Paired c expected front ∧ shown = Preview.message c.render remaining := by
  constructor
  · intro told
    have ends := listsEnd_checkOrdered c expected actual
    rw [told] at ends
    cases ends with
    | actualLonger pairs left => exact ⟨rfl, _, _, rfl, left, pairs, rfl⟩
  · rintro ⟨rfl, front, remaining, rfl, left, pairs, rfl⟩
    have ended := checkOrdered_actualLonger pairs left (.inl rfl)
    rwa [List.append_nil] at ended

end Ordered

/-! ## The preview of a source -/

theorem Source.preview_eq {s : Source} {w : Workspace} {c : Comparison} {records : List Record}
    {unread : Feed} (configured : s.required = .ok c)
    (viewed : (s.sortedView w).result = .ok (.ofRecords records ++ unread))
    (suffice : Preview.Suffice previewLimit records unread) :
    (s.preview w).result = .ok (Preview.text c.render "; " previewLimit records) := by
  unfold preview Outcome.andThen
  rw [configured]
  simp only [viewed]
  exact Preview.text_upTo c.render "; " suffice

/-- A preview shows the first records, with dots in place of others.  That of records which are too
many, and that of a source, are those of everything that is left; but no more than one record
behind those shown is looked at, whatever stands in the feed from there on. -/
theorem Comparison.previews_bounded (c : Comparison) :
    (∀ (render : Record → String) (separator : String) (max : Nat) (records : List Record),
      (records.length ≤ max →
        Preview.text render separator max records =
          separator.intercalate (records.map render)) ∧
      (max < records.length →
        Preview.text render separator max records =
          String.join ((records.take max).map fun r => render r ++ separator) ++ "...")) ∧
    (∀ (expected actual : List Record) (shown : String),
      c.checkGrouped (.ofRecords expected) (.ofRecords actual) =
          .error (.lessElementsExpected none shown) ↔
        ∃ front remaining, actual = front ++ remaining ∧
          Grouped.Surplus c 0 0 0 expected front remaining ∧
          shown = Preview.text c.render ", " 20 remaining) ∧
    (∀ (expected actual : List Record) (key : Option String) (shown : String),
      c.checkOrdered (.ofRecords expected) (.ofRecords actual) =
          .error (.moreElementsExpected key shown) ↔
        key = none ∧ ∃ front remaining, expected = front ++ remaining ∧ remaining ≠ [] ∧
          Ordered.Paired c front actual ∧ shown = Preview.text c.render ", " 20 remaining) ∧
    (∀ (expected actual : List Record) (key : Option String) (shown : String),
      c.checkOrdered (.ofRecords expected) (.ofRecords actual) =
          .error (.lessElementsExpected key shown) ↔
        key = none ∧ ∃ front remaining, actual = front ++ remaining ∧ remaining ≠ [] ∧
          Ordered.Paired c expected front ∧ shown = Preview.text c.render ", " 20 remaining) ∧
    (∀ (matched front remaining : List Record) (unread : Feed),
      Preview.Suffice 20 remaining unread → remaining ≠ [] →
        (Grouped.Surplus c 0 0 0 matched front remaining →
          c.checkGrouped (.ofRecords matched) (.ofRecords (front ++ remaining) ++ unread) =
            .error (.lessElementsExpected none (Preview.text c.render ", " 20 remaining))) ∧
        (Ordered.Paired c front matched →
          c.checkOrdered (.ofRecords (front ++ remaining) ++ unread) (.ofRecords matched) =
            .error (.moreElementsExpected none (Preview.text c.render ", " 20 remaining))) ∧
        (Ordered.Paired c matched front →
          c.checkOrdered (.ofRecords matched) (.ofRecords (front ++ remaining) ++ unread) =
            .error (.lessElementsExpected none (Preview.text c.render ", " 20 remaining)))) ∧
    ∀ (s : Source) (w : Workspace) (records : List Record) (unread : Feed),
      s.required = .ok c → (s.sortedView w).result = .ok (.ofRecords records ++ unread) →
        Preview.Suffice 25 records unread →
          (s.preview w).result = .ok (Preview.text c.render "; " 25 records) := by
  refine ⟨fun render separator max records => ⟨Preview.text_of_few render separator,
      Preview.text_of_more render separator⟩, fun expected actual shown => ?_,
    fun expected actual key shown => ?_, fun expected actual key shown => ?_,
    fun matched front remaining unread suffice left => ⟨fun surplus => ?_, fun pairs => ?_,
      fun pairs => ?_⟩, fun s w records unread configured viewed suffice => ?_⟩
  · exact Grouped.checkGrouped_lessElements_iff
  · exact Ordered.checkOrdered_moreElements_iff
  · exact Ordered.checkOrdered_lessElements_iff
  · rw [Grouped.checkGrouped_eq_compareFrom]
    exact surplus.compareFrom_eq suffice
  · exact Ordered.checkOrdered_expectedLonger pairs left suffice
  · exact Ordered.checkOrdered_actualLonger pairs left suffice
  · exact Source.preview_eq configured viewed suffice

-- The failure stands behind one record more than the message shows, and is not met.
example :
    let c := Comparison.ofSchema (.ofTypes "numbers" [.int])
    let one : Record := ⟨[.int 1]⟩
    let actual := Feed.ofRecords (List.replicate 21 one) ++ [.error (.configuration "lost")]
    c.checkGrouped [] actual =
      .error (.lessElementsExpected none (String.join (List.replicate 20 "(1), ") ++ "...")) := by
  cbv

end Reconcile
