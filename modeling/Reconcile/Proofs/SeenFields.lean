import Mathlib.Logic.Relation
import Reconcile.Proofs.ArrivalOrder
import Reconcile.Proofs.ListPasses

/-!
# What a comparison sees

The comparisons that tolerances derive from a schema's only look at the fields of the schema, and
take an absent one for null.  Nulls at the end of a record, and fields behind those of the schema,
may come and go: a check finds the same groups and ends in the same way.
-/

namespace Reconcile

namespace Record

variable {count : Nat}

/-- What is seen of a record by its first fields. -/
def seen (count : Nat) (r : Record) : Record := ⟨r.row count⟩

theorem valueAt_seen {index : Nat} (inside : index < count) (r : Record) :
    (r.seen count).valueAt index = r.valueAt index := by
  rw [valueAt, field?, seen, row, List.getElem?_map,
    List.getElem?_eq_getElem (by rwa [List.length_range]), List.getElem_range]
  rfl

theorem row_congr {a b : Record} (same : ∀ index < count, a.valueAt index = b.valueAt index) :
    a.row count = b.row count :=
  List.map_congr_left fun index member => same index (List.mem_range.mp member)

@[simp] theorem row_seen (r : Record) : (r.seen count).row count = r.row count :=
  row_congr fun _ inside => valueAt_seen inside r

/-! ## Changes -/

/-- A change of one record that its first fields do not show: a null at its end is added or
removed, or a field behind them is added, changed or removed. -/
inductive Unseen (count : Nat) : Record → Record → Prop where
  | addNull (r : Record) : Unseen count r (r.push .null)
  | removeNull (r : Record) : Unseen count (r.push .null) r
  /-- a field that is not there yet is added behind nulls -/
  | set (r : Record) {index : Nat} (past : count ≤ index) (value : Value) :
      Unseen count r (r.set index value)
  | insert (r : Record) {index : Nat} (past : count ≤ index) (value : Value) :
      Unseen count r ⟨r.fields.insertIdx index value⟩
  | remove (r : Record) {index : Nat} (past : count ≤ index) :
      Unseen count r ⟨r.fields.eraseIdx index⟩

theorem getD_append_nulls (fields : List Value) (nulls index : Nat) :
    (fields ++ List.replicate nulls Value.null)[index]?.getD .null =
      fields[index]?.getD .null := by
  rw [List.getElem?_append]
  split
  · rfl
  · rename_i outside
    rw [List.getElem?_eq_none (Nat.not_lt.mp outside), List.getElem?_replicate]
    split <;> rfl

/-- One change leaves the first fields as they were. -/
theorem Unseen.row_eq {r r' : Record} (unseen : Unseen count r r') :
    r'.row count = r.row count := by
  cases unseen with
  | addNull => exact row_congr fun index _ => getD_append_nulls r.fields 1 index
  | removeNull => exact row_congr fun index _ => (getD_append_nulls r'.fields 1 index).symm
  | set past value =>
      refine row_congr fun index inside => ?_
      rw [valueAt, field?, Record.set, List.getElem?_set_ne (by omega)]
      exact getD_append_nulls r.fields _ index
  | insert past value =>
      refine row_congr fun index inside => ?_
      rw [valueAt, field?, List.getElem?_insertIdx_of_lt (by omega)]
      rfl
  | remove past =>
      refine row_congr fun index inside => ?_
      rw [valueAt, field?, List.getElem?_eraseIdx_of_lt (by omega)]
      rfl

/-- Any number of changes leave the first fields as they were. -/
theorem row_eq_of_unseen {r r' : Record} (unseen : Relation.ReflTransGen (Unseen count) r r') :
    r'.row count = r.row count := by
  induction unseen with
  | refl => rfl
  | tail _ last ih => exact last.row_eq.trans ih

theorem map_seen_of_unseen {records records' : List Record}
    (unseen : List.Forall₂ (Relation.ReflTransGen (Unseen count)) records records') :
    records'.map (seen count) = records.map (seen count) := by
  induction unseen with
  | nil => rfl
  | cons first _ ih => rw [List.map_cons, List.map_cons, seen, row_eq_of_unseen first, ih, seen]

end Record

/-! ## Matching -/

/-- What is left over, looked at through a view of records. -/
def Residue.map (f : Record → Record) (r : Residue) : Residue :=
  ⟨r.expected.map f, r.actual.map f⟩

theorem Residue.sameSize_map (f : Record → Record) (r : Residue) : (r.map f).SameSize r where
  expected := List.length_map f
  actual := List.length_map f

namespace Matcher

variable {f : Record → Record}

theorem pairOff_map {equal : Record → Record → Bool} (same : ∀ a e, equal (f a) (f e) = equal a e)
    (expected actual : List Record) :
    pairOff equal (expected.map f) (actual.map f) = (pairOff equal expected actual).map f := by
  have through (a : Record) : equal (f a) ∘ f = equal a := funext fun e => same a e
  induction actual generalizing expected with
  | nil => rfl
  | cons a actual ih =>
      rw [List.map_cons, pairOff, pairOff, List.any_map, List.eraseP_map, through, ih, ih]
      split <;> rfl

theorem leaveFar_map {near : Record → Record → Bool} (same : ∀ e a, near (f e) (f a) = near e a)
    (expected actual : List Record) :
    leaveFar near (expected.map f) (actual.map f) = (leaveFar near expected actual).map f := by
  simp only [leaveFar, Residue.map, List.filter_map, List.any_map, Function.comp_def, same]

end Matcher

/-! ## Distances -/

/-- Distances only depend on the fields of the schema. -/
theorem Tolerances.isNear_seen (t : Tolerances) (s : Schema) (expected actual : Record) :
    t.isNear s (expected.seen s.length) (actual.seen s.length) = t.isNear s expected actual := by
  have distances : t.distance? s (expected.seen s.length) (actual.seen s.length) =
      t.distance? s expected actual := by
    refine congrArg (Option.map sum) (mapM_congr fun entry member => ?_)
    have inside : entry.2 < s.length := Nat.zero_add s.length ▸ (List.mem_zipIdx member).2.1
    simp only [Record.valueAt_seen inside]
  rw [isNear, isNear, distances]

namespace Comparison

/-- A comparison that takes records for what a view shows of them. -/
structure LooksThrough (c : Comparison) (f : Record → Record) : Prop where
  extract : ∀ r, c.key.extract (f r) = c.key.extract r
  residue : ∀ expected actual,
    c.residue (expected.map f) (actual.map f) = (c.residue expected actual).map f

theorem looksThrough_withDeltas (s : Schema) (deltas : List Delta) :
    ((ofSchema s).withDeltas deltas).LooksThrough (Record.seen s.length) where
  extract r := by
    have keeps := (keepsKeyExact_ofSchema s).withDeltas deltas
    exact List.map_congr_left fun index member =>
      Record.valueAt_seen (keeps.inside index member) r
  residue expected actual := by
    by_cases tolerated : deltas = []
    · subst tolerated
      refine Matcher.pairOff_map (fun a e => ?_) expected actual
      rw [Bool.eq_iff_iff, Record.agree_iff, Record.agree_iff, Record.row_seen, Record.row_seen]
    · obtain ⟨t, -, tolerant⟩ := matchesWithin_withDeltas (ofSchema s) tolerated
      have schema := ((keepsKeyExact_ofSchema s).withDeltas deltas).schema
      rw [Comparison.residue, Comparison.residue, tolerant, schema]
      exact Matcher.leaveFar_map (t.isNear_seen s) expected actual

namespace LooksThrough

variable {c : Comparison} {f : Record → Record}

theorem compare_eq (looks : c.LooksThrough f) (a b : Record) :
    c.compare (f a) (f b) = c.compare a b := by
  rw [Comparison.compare, Comparison.compare, Key.compare_eq, Key.compare_eq, looks.extract,
    looks.extract]

/-- Sorting commutes with the view. -/
theorem stable_map (looks : c.LooksThrough f) (records : List Record) :
    Sorting.stable c.compare (records.map f) = (Sorting.stable c.compare records).map f :=
  (List.map_mergeSort fun a _ b _ => by rw [looks.compare_eq]).symm

end LooksThrough

end Comparison

/-! ## Grouped comparison -/

namespace Grouped

variable {c : Comparison} {f : Record → Record}

/-- Whether a group fails, and how, is not a matter of what its messages show. -/
theorem checkGroup_withoutPreviews (c : Comparison) (values : List Value) (position : Nat)
    (expected actual : List Record) (held : Option Record) :
    (checkGroup c values position expected actual held).mapError Failure.withoutPreviews =
      if actual.isEmpty then .error (.noValueForKey (Key.display values) position "" "")
      else
        match (residueFailure c (Key.display values) position
            (c.residue expected actual)).map Failure.withoutPreviews with
        | some failure => .error failure
        | none => .ok () := by
  unfold checkGroup
  split
  · rfl
  · simp only
    cases residueFailure c (Key.display values) position (c.residue expected actual) <;> rfl

theorem checkGroup_map (looks : c.LooksThrough f) (values : List Value) (position : Nat)
    (expected actual : List Record) (held held' : Option Record) :
    (checkGroup c values position (expected.map f) (actual.map f) held').mapError
        Failure.withoutPreviews =
      (checkGroup c values position expected actual held).mapError Failure.withoutPreviews := by
  rw [checkGroup_withoutPreviews, checkGroup_withoutPreviews, looks.residue, List.isEmpty_map,
    residueFailure_sameSize (Residue.sameSize_map f _)]

/-- Results that are the same but for previews, of which the first decides. -/
theorem mapError_bind_congr {α β : Type} {told : Failure → Failure} {r r' : Except Failure α}
    (same : r'.mapError told = r.mapError told) {next next' : α → Except Failure β}
    (later : ∀ a, r = .ok a → (next' a).mapError told = (next a).mapError told) :
    (r'.bind next').mapError told = (r.bind next).mapError told := by
  cases r with
  | ok a =>
      cases r' with
      | ok a' =>
          obtain rfl := Except.ok.inj same
          exact later a' rfl
      | error e' => cases same
  | error e =>
      cases r' with
      | ok a' => cases same
      | error e' => exact congrArg Except.error (Except.error.inj same)

/-- Group after group, lists end as what the view shows of them. -/
theorem checkLists_map (looks : c.LooksThrough f) (groups taken given : Nat)
    (expected actual : List Record) :
    (checkLists c groups taken given (expected.map f) (actual.map f)).mapError
        Failure.withoutPreviews =
      (checkLists c groups taken given expected actual).mapError Failure.withoutPreviews := by
  induction bound : expected.length using Nat.strongRecOn
    generalizing groups taken given expected actual with
  | ind bound ih =>
      subst bound
      cases expected with
      | nil => cases actual <;> simp [checkLists, Except.mapError, Failure.withoutPreviews]
      | cons first rest =>
          have through : (fun r => decide (c.key.extract r = c.key.extract first)) ∘ f =
              fun r => decide (c.key.extract r = c.key.extract first) :=
            funext fun r => by rw [Function.comp, looks.extract]
          rw [List.map_cons, checkLists_cons, checkLists_cons]
          simp only [looks.extract, List.takeWhile_map, List.dropWhile_map, through,
            ← List.map_cons, List.length_map]
          refine mapError_bind_congr (checkGroup_map looks _ _ _ _ _ _) fun _ _ => ?_
          exact ih _ (Nat.lt_succ_of_le (List.dropWhile_sublist _).length_le) _ _ _ _ _ rfl

/-- Sorted lists end as what the view shows of them, sorted. -/
theorem checkGrouped_map (looks : c.LooksThrough f) (expected actual : List Record) :
    (c.checkGrouped (.ofRecords (Sorting.stable c.compare (expected.map f)))
        (.ofRecords (Sorting.stable c.compare (actual.map f)))).mapError
        Failure.withoutPreviews =
      (c.checkGrouped (.ofRecords (Sorting.stable c.compare expected))
        (.ofRecords (Sorting.stable c.compare actual))).mapError Failure.withoutPreviews := by
  rw [looks.stable_map, looks.stable_map, checkGrouped_ofRecords, checkGrouped_ofRecords]
  exact checkLists_map looks 0 0 0 _ _

/-- Changes that are not seen make no difference between sorted lists. -/
theorem checkGrouped_unseen (s : Schema) (deltas : List Comparison.Delta)
    {wanted given wanted' given' : List Record}
    (wantedUnseen : List.Forall₂ (Relation.ReflTransGen (Record.Unseen s.length)) wanted wanted')
    (givenUnseen : List.Forall₂ (Relation.ReflTransGen (Record.Unseen s.length)) given given') :
    let c := (Comparison.ofSchema s).withDeltas deltas
    (c.checkGrouped (.ofRecords (Sorting.stable c.compare wanted'))
        (.ofRecords (Sorting.stable c.compare given'))).mapError Failure.withoutPreviews =
      (c.checkGrouped (.ofRecords (Sorting.stable c.compare wanted))
        (.ofRecords (Sorting.stable c.compare given))).mapError Failure.withoutPreviews := by
  intro c
  have looks := Comparison.looksThrough_withDeltas s deltas
  rw [← checkGrouped_map looks wanted' given', ← checkGrouped_map looks wanted,
    Record.map_seen_of_unseen wantedUnseen, Record.map_seen_of_unseen givenUnseen]

end Grouped

namespace Source

/-- Nulls at the end of records, and fields behind those of the schema, make no difference to a
comparison within tolerances: as a check of sources in memory and as a comparison of the sorted
records, it succeeds and counts the same, or fails in the same way at the same key and position. -/
theorem check_unseen (s : Schema) (deltas : List Comparison.Delta)
    {wanted given wanted' given' : List Record}
    (wantedUnseen : List.Forall₂ (Relation.ReflTransGen (Record.Unseen s.length)) wanted wanted')
    (givenUnseen : List.Forall₂ (Relation.ReflTransGen (Record.Unseen s.length)) given given') :
    let c := (Comparison.ofSchema s).withDeltas deltas
    (c.checkGrouped (.ofRecords (Sorting.stable c.compare wanted'))
        (.ofRecords (Sorting.stable c.compare given'))).mapError Failure.withoutPreviews =
      (c.checkGrouped (.ofRecords (Sorting.stable c.compare wanted))
        (.ofRecords (Sorting.stable c.compare given))).mapError Failure.withoutPreviews ∧
    ∀ expected actual expected' actual' : Source, expected.HoldsInMemory wanted →
      actual.HoldsInMemory given → expected'.HoldsInMemory wanted' →
      actual'.HoldsInMemory given' → expected.comparison = some c →
      expected'.comparison = some c → ∀ w w' : Workspace,
        (check actual' expected' w').result.mapError Failure.withoutPreviews =
          (check actual expected w).result.mapError Failure.withoutPreviews := by
  intro c
  have same := Grouped.checkGrouped_unseen s deltas wantedUnseen givenUnseen
  refine ⟨same, fun expected actual expected' actual' wantedHeld givenHeld wantedHeld' givenHeld'
    configured configured' w w' => ?_⟩
  cases wantedUnseen with
  | nil => rw [check_of_nil wantedHeld, check_of_nil wantedHeld']
  | cons first rest =>
      rw [check_eq_checkGrouped wantedHeld' givenHeld' configured' (List.cons_ne_nil _ _) w',
        check_eq_checkGrouped wantedHeld givenHeld configured (List.cons_ne_nil _ _) w]
      exact same

/-- Readings of which one lacks the null that it had, one has a field more, and one a null more: the
group of `2` still does not match. -/
theorem check_unseen_unmatched :
    let w := Workspace.ofFiles .empty (.ofName "spill")
    let s := Schema.ofTypes "readings" [.int, .double]
    let c := (Comparison.ofSchema s).withDeltas [.double .one]
    let wanted : List Record := [⟨[.int 2, .null]⟩, ⟨[.int 1, .double .one]⟩]
    let wanted' : List Record := [⟨[.int 2]⟩, ⟨[.int 1, .double .one, .text "late"]⟩]
    let given : List Record := [⟨[.int 1, .double .zero]⟩, ⟨[.int 2, .double .zero]⟩]
    let given' : List Record := [⟨[.int 1, .double .zero, .null]⟩, ⟨[.int 2, .double .zero]⟩]
    List.Forall₂ (Relation.ReflTransGen (Record.Unseen s.length)) wanted wanted' ∧
      List.Forall₂ (Relation.ReflTransGen (Record.Unseen s.length)) given given' ∧
      (check ((ofComparison c).addAll given') ((ofComparison c).addAll wanted')
        w).result.mapError Failure.withoutPreviews = .error (.unmatchedValues "[2]" 1 "" "") := by
  intro w s c wanted wanted' given given'
  have wantedUnseen : List.Forall₂ (Relation.ReflTransGen (Record.Unseen s.length)) wanted
      wanted' :=
    .cons (.single (.removeNull ⟨[.int 2]⟩)) (.cons (.single
      (.insert ⟨[.int 1, .double .one]⟩ (Nat.le_refl 2) (.text "late"))) .nil)
  have givenUnseen : List.Forall₂ (Relation.ReflTransGen (Record.Unseen s.length)) given given' :=
    .cons (.single (.addNull ⟨[.int 1, .double .zero]⟩)) (.cons .refl .nil)
  refine ⟨wantedUnseen, givenUnseen, ?_⟩
  have unseen := (check_unseen s [.double .one] wantedUnseen givenUnseen).2 _ _ _ _
    (holdsInMemory_addAll c wanted) (holdsInMemory_addAll c given)
    (holdsInMemory_addAll c wanted') (holdsInMemory_addAll c given') rfl rfl w w
  rw [unseen]
  have wantedSorted : Sorting.stable c.compare wanted =
      [⟨[.int 1, .double .one]⟩, ⟨[.int 2, .null]⟩] := by
    rw [Sorting.stable_eq_insertionSort]
    decide
  have givenSorted : Sorting.stable c.compare given =
      [⟨[.int 1, .double .zero]⟩, ⟨[.int 2, .double .zero]⟩] := by
    rw [Sorting.stable_eq_insertionSort]
    decide
  rw [check_eq_checkGrouped (holdsInMemory_addAll c wanted) (holdsInMemory_addAll c given) rfl
    (by simp [wanted]) w, wantedSorted, givenSorted]
  decide +kernel

end Source

end Reconcile
