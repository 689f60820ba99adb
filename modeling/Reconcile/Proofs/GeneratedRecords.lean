import Mathlib.Data.List.Forall2
import Reconcile.Generation.Batch

/-!
# Generated records

A record is made field after field, each value from what the values before it left of the key
stream.  Whatever a schema's generators are, and however records are asked for, a record that is
made has one value for each field, null or of the field's type, and the index counts the records
that were made: a failure does not move it.
-/

namespace Reconcile

/-! ## Values of a type -/

/-- Whether a value may stand in the field, as far as its type goes. -/
def Field.Fits (field : Field) (value : Value) : Prop :=
  value = .null ∨ value.fieldType? = some field.type

/-- Whether a record has one value for each field of the schema, each of which fits. -/
def Schema.Fits (s : Schema) (r : Record) : Prop := List.Forall₂ Field.Fits s.fields r.fields

namespace Value

theorem isNull_iff {value : Value} : value.isNull = true ↔ value = .null := by
  cases value <;> simp [isNull]

theorem fieldType?_coerce? {value result : Value} {type : FieldType}
    (coerced : value.coerce? type = some result) : result.fieldType? = some type := by
  unfold coerce? at coerced
  split at coerced <;>
    simp only [Option.ite_none_right_eq_some, Option.some.injEq, Option.map_eq_some_iff,
      reduceCtorEq] at coerced
  case h_1 => rw [← coerced.2]; rfl
  case h_2 | h_4 | h_5 => rw [← coerced]; rfl
  all_goals
    obtain ⟨content, -, rfl⟩ := coerced
    rfl

/-- A value of a field's type, or null, is kept as it is. -/
theorem toType?_of_fits {value : Value} {type : FieldType}
    (fits : value = .null ∨ value.fieldType? = some type) : value.toType? type = some value := by
  unfold toType?
  apply if_pos
  rcases fits with rfl | typed
  · rfl
  · simp [typed]

/-- Any other value is changed into one of the type, or refused. -/
theorem toType?_of_not_fits {value : Value} {type : FieldType}
    (foreign : ¬ (value = .null ∨ value.fieldType? = some type)) :
    value.toType? type = value.coerce? type := by
  unfold toType?
  apply if_neg
  simpa [isNull_iff] using foreign

end Value

namespace Generation

variable {schema : String} {index : UInt64}

theorem coerced_eq_ok_iff {field : Field} {value result : Value} :
    coerced field value = .ok result ↔ value.toType? field.type = some result := by
  unfold coerced
  cases value.toType? field.type <;> simp

theorem coerced_eq_error_iff {field : Field} {value : Value} {e : Error} :
    coerced field value = .error e ↔
      value.toType? field.type = none ∧ .coercion field.name value.display field.type = e := by
  unfold coerced
  cases value.toType? field.type <;> simp

theorem fits_of_coerced {field : Field} {value result : Value}
    (coerced : coerced field value = .ok result) : field.Fits result := by
  rw [coerced_eq_ok_iff] at coerced
  by_cases fits : field.Fits value
  · rw [Value.toType?_of_fits fits] at coerced
    cases coerced
    exact fits
  · rw [Value.toType?_of_not_fits fits] at coerced
    exact Or.inr (Value.fieldType?_coerce? coerced)

/-! ## Making a record -/

/-- How the value of a field comes about. -/
theorem run_fieldValue (schema : String) (field : Field) (index : UInt64) (stream : KeyStream) :
    (fieldValue schema field index).run.run stream =
      match field.generator with
      | some generator =>
          match (value generator index).run.run stream with
          | (.ok value, left) => (coerced field value, left)
          | (.error e, left) => (.error e, left)
      | none =>
          (if field.nullable then .ok .null else .error (.missingGenerator schema field.name),
            stream) := by
  unfold fieldValue
  cases field.generator with
  | none => cases field.nullable <;> rfl
  | some generator =>
      simp only [ExceptT.run_bind, StateT.run_bind]
      generalize (value generator index).run.run stream = made
      obtain ⟨result, left⟩ := made
      cases result <;> rfl

theorem fits_of_fieldValue {field : Field} {stream left : KeyStream} {value : Value}
    (made : (fieldValue schema field index).run.run stream = (.ok value, left)) :
    field.Fits value := by
  rw [run_fieldValue] at made
  split at made
  · split at made
    · exact fits_of_coerced (Prod.mk.inj made).1
    · cases made
  · split at made
    · cases made
      exact Or.inl rfl
    · cases made

/-- From a key stream values are made for fields one after another, each from what the ones before
it left. -/
inductive Makes (schema : String) (index : UInt64) :
    List Field → KeyStream → List Value → KeyStream → Prop
  | nil (stream : KeyStream) : Makes schema index [] stream [] stream
  | cons {field : Field} {fields : List Field} {value : Value} {values : List Value}
      {stream between left : KeyStream}
      (first : (fieldValue schema field index).run.run stream = (.ok value, between))
      (others : Makes schema index fields between values left) :
      Makes schema index (field :: fields) stream (value :: values) left

/-- The values of some fields, in order. -/
def row (schema : String) (index : UInt64) (fields : List Field) :
    ExceptT Error Draw (List Value) :=
  fields.mapM fun field => fieldValue schema field index

theorem run_row_cons (schema : String) (index : UInt64) (field : Field) (fields : List Field)
    (stream : KeyStream) :
    (row schema index (field :: fields)).run.run stream =
      match (fieldValue schema field index).run.run stream with
      | (.error e, left) => (.error e, left)
      | (.ok value, between) =>
          match (row schema index fields).run.run between with
          | (.error e, left) => (.error e, left)
          | (.ok values, left) => (.ok (value :: values), left) := by
  rw [row, List.mapM_cons]
  simp only [ExceptT.run_bind, StateT.run_bind]
  generalize (fieldValue schema field index).run.run stream = first
  obtain ⟨result, between⟩ := first
  cases result with
  | error e => rfl
  | ok value =>
      change (StateT.run (ExceptT.run do
        let values ← row schema index fields
        pure (value :: values)) between) = _
      simp only [ExceptT.run_bind, StateT.run_bind]
      generalize (row schema index fields).run.run between = others
      obtain ⟨result, left⟩ := others
      cases result <;> rfl

theorem run_row_eq_ok_iff {fields : List Field} {stream left : KeyStream} {values : List Value} :
    (row schema index fields).run.run stream = (.ok values, left) ↔
      Makes schema index fields stream values left := by
  constructor
  · intro made
    induction fields generalizing stream values with
    | nil =>
        cases made
        exact Makes.nil _
    | cons field fields ih =>
        rw [run_row_cons] at made
        split at made
        · cases made
        · rename_i value between first
          split at made
          · cases made
          · rename_i values last others
            cases made
            exact .cons first (ih others)
  · intro makes
    induction makes with
    | nil stream => rfl
    | cons first _ ih =>
        rw [run_row_cons, first]
        simp only [ih]

theorem Makes.fits {fields : List Field} {stream left : KeyStream} {values : List Value}
    (makes : Makes schema index fields stream values left) :
    List.Forall₂ Field.Fits fields values := by
  induction makes with
  | nil => exact .nil
  | cons first _ ih => exact .cons (fits_of_fieldValue first) ih

/-- All that a request for the next record can come to. -/
theorem next_cases (g : Generation) :
    (∃ values left, Makes g.schema.name g.index g.schema.fields g.stream values left ∧
      g.next = (.ok ⟨values⟩, { g with stream := left, index := g.index + 1 })) ∨
    ∃ e left, g.next = (.error e, { g with stream := left }) := by
  cases made : (row g.schema.name g.index g.schema.fields).run.run g.stream with
  | mk result left =>
      unfold next
      rw [← row, made]
      cases result with
      | ok values => exact .inl ⟨values, left, run_row_eq_ok_iff.mp made, rfl⟩
      | error e => exact .inr ⟨e, left, rfl⟩

theorem untilFailure_of_error {g after : Generation} {e : Error}
    (failed : g.next = (.error e, after)) (count : Nat) :
    g.untilFailure (count + 1) = ([], some e) := by
  rw [untilFailure, failed]

theorem untilFailure_of_ok {g after : Generation} {r : Record} (made : g.next = (.ok r, after))
    (count : Nat) :
    g.untilFailure (count + 1) =
      (r :: (after.untilFailure count).1, (after.untilFailure count).2) := by
  rw [untilFailure, made]

/-- Without a failure all records are there that were asked for. -/
theorem length_untilFailure {g : Generation} {count : Nat}
    (complete : (g.untilFailure count).2 = none) : (g.untilFailure count).1.length = count := by
  induction count generalizing g with
  | zero => rfl
  | succ count ih =>
      rcases g.next_cases with ⟨values, left, -, made⟩ | ⟨e, left, failed⟩
      · rw [untilFailure_of_ok made] at complete ⊢
        exact congrArg (· + 1) (ih complete)
      · rw [untilFailure_of_error failed] at complete
        cases complete

theorem add_ofNat_succ (index : UInt64) (count : Nat) :
    index + .ofNat (count + 1) = index + 1 + .ofNat count := by
  rw [UInt64.ofNat_add, UInt64.add_assoc, UInt64.add_comm 1]
  rfl

/-! ## Asking for records -/

/-- The number of records among answers. -/
def recordCount (answers : List Answer) : Nat := answers.countP fun a => a.result.isOk

/-- From an index on, each record moves the index by one and each failure leaves it. -/
def Counts : UInt64 → List Answer → UInt64 → Prop
  | index, [], last => last = index
  | index, a :: answers, last =>
      a.index = (if a.result.isOk then index + 1 else index) ∧ Counts a.index answers last

theorem Counts.append {first middle last : UInt64} {answers others : List Answer}
    (counts : Counts first answers middle) (more : Counts middle others last) :
    Counts first (answers ++ others) last := by
  induction answers generalizing first with
  | nil =>
      cases counts
      exact more
  | cons a answers ih => exact ⟨counts.1, ih counts.2⟩

theorem recordCount_cons (a : Answer) (answers : List Answer) :
    recordCount (a :: answers) = recordCount answers + if a.result.isOk then 1 else 0 :=
  List.countP_cons

/-- The last index is the first one and the number of records. -/
theorem Counts.last_eq {first last : UInt64} {answers : List Answer}
    (counts : Counts first answers last) : last = first + .ofNat (recordCount answers) := by
  induction answers generalizing first with
  | nil =>
      rw [counts]
      exact (UInt64.add_zero first).symm
  | cons a answers ih =>
      rw [ih counts.2, counts.1, recordCount_cons]
      split
      · rw [add_ofNat_succ]
      · rfl

/-- So is the index after each answer, with the records up to it. -/
theorem Counts.index_eq {first last : UInt64} {before behind : List Answer} {a : Answer}
    (counts : Counts first (before ++ a :: behind) last) :
    a.index = first + .ofNat (recordCount before) + if a.result.isOk then 1 else 0 := by
  induction before generalizing first with
  | nil =>
      rw [counts.1, show UInt64.ofNat (recordCount []) = 0 from rfl, UInt64.add_zero]
      split
      · rfl
      · exact (UInt64.add_zero first).symm
  | cons other before ih =>
      rw [ih counts.2, counts.1, recordCount_cons]
      split
      · rw [add_ofNat_succ]
      · rfl

/-- A record that is made fits the schema. -/
theorem fits_of_next {g : Generation} {r : Record} (made : g.next.1 = .ok r) : g.schema.Fits r := by
  rcases g.next_cases with ⟨values, left, makes, next⟩ | ⟨e, left, next⟩
  · rw [next] at made
    cases made
    exact makes.fits
  · rw [next] at made
    cases made

/-- Answers that a generation gives before it is left as another: each is that of a generation of
the same schema to one request, and the records among them are counted. -/
structure Gives (g : Generation) (answers : List Answer) (after : Generation) : Prop where
  schema_eq : after.schema = g.schema
  asked : ∀ a ∈ answers, ∃ h : Generation, h.schema = g.schema ∧ h.next.1 = a.result
  counts : Counts g.index answers after.index

namespace Gives

theorem nothing (g : Generation) : Gives g [] g where
  schema_eq := rfl
  asked := by simp
  counts := rfl

theorem append {g between after : Generation} {answers others : List Answer}
    (first : Gives g answers between) (then_ : Gives between others after) :
    Gives g (answers ++ others) after where
  schema_eq := then_.schema_eq.trans first.schema_eq
  asked := by
    intro a member
    rcases List.mem_append.mp member with early | late
    · exact first.asked a early
    · obtain ⟨h, same, next⟩ := then_.asked a late
      exact ⟨h, same.trans first.schema_eq, next⟩
  counts := first.counts.append then_.counts

end Gives

theorem gives_next (g : Generation) : Gives g [⟨g.next.1, g.next.2.index⟩] g.next.2 where
  schema_eq := by
    rcases g.next_cases with ⟨values, left, makes, next⟩ | ⟨e, left, next⟩ <;> rw [next]
  asked := by
    intro a member
    cases List.mem_singleton.mp member
    exact ⟨g, rfl, rfl⟩
  counts := by
    rcases g.next_cases with ⟨values, left, makes, next⟩ | ⟨e, left, next⟩
    · rw [next]
      exact ⟨rfl, rfl⟩
    · rw [next]
      exact ⟨rfl, rfl⟩

namespace Batch

variable {b : Batch}

theorem take_of_spent (spent : b.remaining = 0) (requests : Nat) :
    b.take (requests + 1) = b.take requests := by
  rw [take, next?, if_pos spent]

theorem take_of_not_spent (more : b.remaining ≠ 0) (requests : Nat) :
    b.take (requests + 1) =
      let rest := (mk b.generation.next.2 (b.remaining - 1)).take requests
      (⟨b.generation.next.1, b.generation.next.2.index⟩ :: rest.1, rest.2) := by
  rw [take, next?, if_neg more]

/-- Requests to a batch are answered as requests to its generation, as long as it lasts. -/
theorem take_eq (b : Batch) (requests : Nat) :
    ((b.take requests).1.map Answer.result, (b.take requests).2) =
      b.generation.take (min requests b.remaining.toNat) := by
  induction requests generalizing b with
  | zero =>
      rw [Nat.zero_min]
      rfl
  | succ requests ih =>
      by_cases spent : b.remaining = 0
      · have none_left : b.remaining.toNat = 0 := congrArg UInt64.toNat spent
        rw [take_of_spent spent, ih b, none_left, Nat.min_zero, Nat.min_zero]
      · have some_left : 0 < b.remaining.toNat :=
          Nat.pos_of_ne_zero fun zero => spent (UInt64.toNat_inj.mp zero)
        have one_less : (b.remaining - 1).toNat = b.remaining.toNat - 1 :=
          UInt64.toNat_sub_of_le _ _ (UInt64.le_iff_toNat_le.mpr some_left)
        have fewer : min (requests + 1) b.remaining.toNat =
            min requests (b.remaining - 1).toNat + 1 := by
          omega
        have rest := ih ⟨b.generation.next.2, b.remaining - 1⟩
        rw [take_of_not_spent spent, fewer, Generation.take]
        simp only [List.map_cons, ← rest]

end Batch

theorem gives_take (b : Batch) (requests : Nat) :
    Gives b.generation (b.take requests).1 (b.take requests).2 := by
  induction requests generalizing b with
  | zero => exact .nothing b.generation
  | succ requests ih =>
      by_cases spent : b.remaining = 0
      · rw [Batch.take_of_spent spent]
        exact ih b
      · rw [Batch.take_of_not_spent spent]
        exact (gives_next b.generation).append (ih ⟨b.generation.next.2, b.remaining - 1⟩)

theorem gives_answers (g : Generation) (calls : List Call) :
    Gives g (g.answers calls).1 (g.answers calls).2 := by
  induction calls generalizing g with
  | nil => exact .nothing g
  | cons call calls ih =>
      have first : Gives g (g.answer call).1 (g.answer call).2 := by
        cases call with
        | next => exact gives_next g
        | batch count requests => exact gives_take ⟨g, count⟩ requests
      exact first.append (ih (g.answer call).2)

/-- However a generation is asked for records, each one that it makes has a value for every field of
the schema and nothing else, null or of the field's type.  After every request the index is the
one at the start and the number of records made since, so that a failure leaves it as it was. -/
theorem answers_conform (g : Generation) (calls : List Call) :
    (∀ a ∈ (g.answers calls).1, ∀ r, a.result = .ok r → g.schema.Fits r) ∧
      (∀ before a behind, (g.answers calls).1 = before ++ a :: behind →
        a.index = g.index + .ofNat (recordCount before) + if a.result.isOk then 1 else 0) ∧
      (g.answers calls).2.index = g.index + .ofNat (recordCount (g.answers calls).1) := by
  have gives := gives_answers g calls
  refine ⟨?_, ?_, gives.counts.last_eq⟩
  · intro a member r made
    obtain ⟨h, same, next⟩ := gives.asked a member
    exact same ▸ fits_of_next (next.trans made)
  · intro before a behind split
    have counts := gives.counts
    rw [split] at counts
    exact counts.index_eq

end Generation

end Reconcile
