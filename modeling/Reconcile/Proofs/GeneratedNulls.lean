import Reconcile.Proofs.DrawnNumbers
import Reconcile.Proofs.GeneratedRecords

/-!
# Generated nulls

Null comes through the conversion to a field's type, and nothing else becomes null there.  So a
null stands in a record that was made exactly where a field has no generator, and then it may be
null, or where its generator gives null.  The latter is not refused in a field that may not be null.
-/

namespace Reconcile

/-- Whether a generator makes null from a key stream: because it makes nothing else, or because null
is drawn from its pool. -/
def Generator.GivesNull (stream : KeyStream) : Generator → Prop
  | .null => True
  | .constant value => value = .null
  | .oneOf values =>
      values = [] ∨ values[((Draw.below values.length).run stream).1]? = some .null
  | _ => False

namespace Generation

variable {schema : String} {index : UInt64}

/-- A pattern gives a text, if there is one. -/
theorem run_value_pattern (text : String) (index : UInt64) (stream : KeyStream) :
    (value (.pattern text) index).run.run stream =
      match (Pattern.fill text index).run.run stream with
      | (some filled, left) => (.ok (.text filled), left)
      | (none, left) => (.error .excessDigits, left) := by
  simp only [value, ExceptT.run_bind, ExceptT.run_liftM, StateT.run_bind, StateT.run_map]
  generalize (Pattern.fill text index).run.run stream = drawn
  obtain ⟨_ | filled, left⟩ := drawn <;> rfl

theorem value_eq_null_iff (generator : Generator) (index : UInt64) (stream : KeyStream) :
    ((value generator index).run.run stream).1 = .ok .null ↔ generator.GivesNull stream := by
  cases generator with
  | uuid => exact ⟨nofun, nofun⟩
  | sequential start => exact ⟨nofun, nofun⟩
  | pattern text =>
      refine ⟨?_, nofun⟩
      rw [run_value_pattern]
      split <;> exact nofun
  | integerRange least greatest => exact ⟨nofun, nofun⟩
  | doubleRange least greatest =>
      refine ⟨?_, nofun⟩
      rw [value]
      split
      · exact nofun
      · split <;> exact nofun
  | timestampRange first last =>
      refine ⟨?_, nofun⟩
      rw [value]
      split <;> exact nofun
  | weightedBool weight =>
      refine ⟨?_, nofun⟩
      rw [value]
      split <;> exact nofun
  | oneOf values =>
      cases values with
      | nil => exact ⟨fun _ => .inl rfl, fun _ => rfl⟩
      | cons first others =>
          have some_ : 0 < (first :: others).length := Nat.succ_pos _
          have inside := Draw.below_lt some_ stream
          have drawn : ((value (.oneOf (first :: others)) index).run.run stream).1 =
              .ok ((first :: others).getD
                ((Draw.below (first :: others).length).run stream).1 .null) := rfl
          rw [drawn, Generator.GivesNull, List.getD_eq_getElem?_getD]
          rw [List.getElem?_eq_getElem inside]
          simp
  | constant value => exact ⟨Except.ok.inj, congrArg _⟩
  | null => exact ⟨fun _ => trivial, fun _ => rfl⟩

theorem coerced_eq_null_iff {field : Field} {value : Value} :
    coerced field value = .ok .null ↔ value = .null := by
  rw [coerced_eq_ok_iff]
  by_cases fits : field.Fits value
  · rw [Value.toType?_of_fits fits, Option.some.injEq]
  · rw [Value.toType?_of_not_fits fits]
    constructor
    · intro coerced
      cases Value.fieldType?_coerce? coerced
    · intro null
      exact absurd (Or.inl null) fits

/-- The value of a field is null if the field has no generator or its generator gives null. -/
theorem fieldValue_eq_null_iff {field : Field} {stream left : KeyStream} {value : Value}
    (made : (fieldValue schema field index).run.run stream = (.ok value, left)) :
    value = .null ↔
      field.generator = none ∨
        ∃ generator, field.generator = some generator ∧ generator.GivesNull stream := by
  rw [run_fieldValue] at made
  cases given : field.generator with
  | none =>
      rw [given] at made
      cases nullable : field.nullable <;> rw [nullable] at made <;> cases made
      simp
  | some generator =>
      simp only [reduceCtorEq, false_or, Option.some.injEq, exists_eq_left']
      rw [given] at made
      rw [← value_eq_null_iff generator index stream]
      simp only at made
      split at made
      · rename_i raw left drawn
        have kept : coerced field raw = .ok value := (Prod.mk.inj made).1
        rw [drawn, Except.ok.injEq, ← @coerced_eq_null_iff field raw, kept, Except.ok.injEq]
      · cases made

/-- A field without a generator is given a value only if it may be null. -/
theorem nullable_of_fieldValue {field : Field} {stream left : KeyStream} {value : Value}
    (made : (fieldValue schema field index).run.run stream = (.ok value, left))
    (bare : field.generator = none) : field.nullable = true := by
  rw [run_fieldValue, bare] at made
  cases nullable : field.nullable with
  | true => rfl
  | false =>
      rw [nullable] at made
      cases made

/-- The key stream when it is the turn of the field at a place. -/
def streamAt (g : Generation) (place : Nat) : KeyStream :=
  ((row g.schema.name g.index (g.schema.fields.take place)).run.run g.stream).2

/-- Each value of a row is made from what the fields before it leave of the key stream. -/
theorem Makes.at {fields : List Field} {stream left : KeyStream} {values : List Value}
    (makes : Makes schema index fields stream values left) {place : Nat} {field : Field}
    (there : fields[place]? = some field) :
    ∃ value after, values[place]? = some value ∧
      (fieldValue schema field index).run.run
        ((row schema index (fields.take place)).run.run stream).2 = (.ok value, after) := by
  induction makes generalizing place with
  | nil => cases there
  | @cons field' fields value values stream between left first others ih =>
      cases place with
      | zero =>
          cases there
          exact ⟨value, between, rfl, first⟩
      | succ place =>
          obtain ⟨later, after, found, made⟩ := ih there
          refine ⟨later, after, found, ?_⟩
          rw [List.take_succ_cons, run_row_cons, first]
          simp only
          cases run : (row schema index (fields.take place)).run.run between with
          | mk result rest =>
              rw [run] at made
              cases result <;> exact made

/-- A null stands in a record only where the schema allows one, unless the generator of a field that
may not be null gives null from the key stream as it is then. -/
theorem null_only_if_nullable_iff {g : Generation} {r : Record} (made : g.next.1 = .ok r)
    {place : Nat} {field : Field} (there : g.schema.field? place = some field) :
    (r.field? place = some .null → field.nullable = true) ↔
      (field.nullable = false → ∀ generator, field.generator = some generator →
        ¬ generator.GivesNull (g.streamAt place)) := by
  rcases g.next_cases with ⟨values, left, makes, next⟩ | ⟨e, left, next⟩
  · rw [next] at made
    cases made
    obtain ⟨value, after, found, source⟩ := makes.at there
    have stands : Record.field? ⟨values⟩ place = some value := found
    rw [stands, Option.some.injEq, fieldValue_eq_null_iff source]
    constructor
    · intro allowed required generator given gives
      have := allowed (.inr ⟨generator, given, gives⟩)
      rw [required] at this
      cases this
    · rintro refused (bare | ⟨generator, given, gives⟩)
      · exact nullable_of_fieldValue source bare
      · cases nullable : field.nullable with
        | true => rfl
        | false => exact absurd gives (refused nullable generator given)
  · rw [next] at made
    cases made

/-- In the first record that is made from the seed zero, null is drawn from a pool of null and a
number, for a field that may not be null. -/
theorem null_only_if_nullable_pool :
    let pool : Field := ⟨"x", .int, none, false, some (.oneOf [.bigInt 7, .null])⟩
    let s : Schema := ⟨"t", [⟨"id", .bigInt, none, false, some (.sequential 1)⟩, pool]⟩
    (start s 0).next.1 = .ok ⟨[.bigInt 1, .null]⟩ ∧ s.field? 1 = some pool ∧
      ∃ generator, pool.generator = some generator ∧
        generator.GivesNull ((start s 0).streamAt 1) := by
  intro pool s
  have made : (start s 0).next.1 = .ok ⟨[.bigInt 1, .null]⟩ := by decide +kernel
  have there : s.field? 1 = some pool := rfl
  refine ⟨made, there, ?_⟩
  by_contra spared
  have allowed := (null_only_if_nullable_iff made there).mpr
    fun _ generator given gives => spared ⟨generator, given, gives⟩
  cases allowed rfl

/-- The generator of nulls fills a field that may not be null. -/
theorem next_null_not_nullable :
    let field : Field := ⟨"x", .int, none, false, some .null⟩
    (start ⟨"t", [field]⟩ 0).next.1 = .ok ⟨[.null]⟩ ∧ field.nullable = false :=
  ⟨by decide +kernel, rfl⟩

end Generation

end Reconcile
