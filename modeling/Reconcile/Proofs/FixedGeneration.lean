import Reconcile.Proofs.GeneratedRecords
import Reconcile.Proofs.Placeholders

/-!
# Fixed generation

Some generators draw nothing: those of numbers in sequence, of constants and of null, and patterns
without identifiers and random digits.  If a schema has no others, its records depend on nothing but
their indexes.  They may then be generated in parts, each with a seed of its own.
-/

namespace Reconcile

/-- Whether a generator draws nothing. -/
def Generator.IsFixed : Generator → Prop
  | .sequential _ | .constant _ | .null => True
  | .pattern text => ¬ Pattern.uuidMark <:+: text.toList ∧ ¬ Pattern.digitsMark <:+: text.toList
  | _ => False

/-- Whether nothing is drawn for any field. -/
def Schema.IsFixed (s : Schema) : Prop :=
  ∀ field ∈ s.fields, ∀ generator, field.generator = some generator → generator.IsFixed

/-- A pattern without identifiers and random digits draws nothing. -/
theorem Pattern.fill_of_not_infix {text : String} (index : UInt64)
    (noUuids : ¬ uuidMark <:+: text.toList) (noDigits : ¬ digitsMark <:+: text.toList) :
    fill text index = pure (String.ofList (fillIndex index text.toList)) := by
  have noUuids := not_infix_fillIndex index (by decide) noUuids
  have noDigits := not_infix_fillIndex index (by decide) noDigits
  rw [fill, fillUuids_of_none (split?_eq_none_iff.mpr noUuids), liftM_pure, pure_bind,
    fillDigits_of_none (split?_eq_none_iff.mpr noDigits), pure_bind]

namespace Generation

variable {schema : Schema} {index : UInt64}

theorem exists_value_of_isFixed {generator : Generator} (fixed : generator.IsFixed)
    (index : UInt64) : ∃ result, (value generator index).run = pure result := by
  cases generator with
  | sequential start => exact ⟨_, rfl⟩
  | constant value => exact ⟨_, rfl⟩
  | null => exact ⟨_, rfl⟩
  | pattern text =>
      refine ⟨.ok (.text (String.ofList (Pattern.fillIndex index text.toList))), ?_⟩
      rw [value, Pattern.fill_of_not_infix index fixed.1 fixed.2]
      rfl
  | uuid | integerRange | doubleRange | timestampRange | weightedBool | oneOf => cases fixed

theorem exists_fieldValue_of_isFixed {field : Field}
    (fixed : ∀ generator, field.generator = some generator → generator.IsFixed)
    (name : String) (index : UInt64) :
    ∃ result, ∀ stream, (fieldValue name field index).run.run stream = (result, stream) := by
  simp only [run_fieldValue]
  cases given : field.generator with
  | none => exact ⟨_, fun _ => rfl⟩
  | some generator =>
      obtain ⟨made, same⟩ := exists_value_of_isFixed (fixed generator given) index
      simp only [same]
      cases made with
      | error e => exact ⟨_, fun _ => rfl⟩
      | ok value => exact ⟨_, fun _ => rfl⟩

theorem exists_row_of_isFixed {fields : List Field}
    (fixed : ∀ field ∈ fields, ∀ generator, field.generator = some generator → generator.IsFixed)
    (name : String) (index : UInt64) :
    ∃ result, ∀ stream, (row name index fields).run.run stream = (result, stream) := by
  induction fields with
  | nil => exact ⟨_, fun _ => rfl⟩
  | cons field fields ih =>
      obtain ⟨first, others⟩ := List.forall_mem_cons.mp fixed
      obtain ⟨made, same⟩ := exists_fieldValue_of_isFixed first name index
      obtain ⟨rest, alike⟩ := ih others
      simp only [run_row_cons, same]
      cases made with
      | error e => exact ⟨_, fun _ => rfl⟩
      | ok value =>
          simp only [alike]
          cases rest with
          | error e => exact ⟨_, fun _ => rfl⟩
          | ok values => exact ⟨_, fun _ => rfl⟩

/-- What the next record is, or why there is none, depends on its index only. -/
theorem next_of_isFixed (fixed : schema.IsFixed) (index : UInt64) :
    (∃ r, ∀ seed stream,
        (mk schema seed stream index).next = (.ok r, ⟨schema, seed, stream, index + 1⟩)) ∨
      ∃ e, ∀ seed stream,
        (mk schema seed stream index).next = (.error e, ⟨schema, seed, stream, index⟩) := by
  obtain ⟨made, same⟩ := exists_row_of_isFixed fixed schema.name index
  unfold row at same
  simp only [next, same]
  cases made with
  | ok values => exact .inl ⟨⟨values⟩, fun _ _ => rfl⟩
  | error e => exact .inr ⟨e, fun _ _ => rfl⟩

theorem untilFailure_of_isFixed (fixed : schema.IsFixed) (seed seed' : UInt64)
    (stream stream' : KeyStream) (index : UInt64) (count : Nat) :
    (mk schema seed stream index).untilFailure count =
      (mk schema seed' stream' index).untilFailure count := by
  induction count generalizing index with
  | zero => rfl
  | succ count ih =>
      rcases next_of_isFixed fixed index with ⟨r, made⟩ | ⟨e, failed⟩
      · rw [untilFailure_of_ok (made ..), untilFailure_of_ok (made ..), ih]
      · rw [untilFailure_of_error (failed ..), untilFailure_of_error (failed ..)]

theorem untilFailure_mk_add_of_isFixed (fixed : schema.IsFixed) (seed seed' seed'' : UInt64)
    (stream stream' stream'' : KeyStream) (index : UInt64) (count more : Nat) :
    (mk schema seed stream index).untilFailure (count + more) =
      match (mk schema seed' stream' index).untilFailure count with
      | (records, some e) => (records, some e)
      | (records, none) =>
          let (others, failure) :=
            (mk schema seed'' stream'' (index + .ofNat count)).untilFailure more
          (records ++ others, failure) := by
  induction count generalizing index with
  | zero =>
      rw [Nat.zero_add, show index + .ofNat 0 = index from UInt64.add_zero index,
        untilFailure_of_isFixed fixed seed seed'' stream stream'']
      rfl
  | succ count ih =>
      rw [Nat.add_right_comm]
      rcases next_of_isFixed fixed index with ⟨r, made⟩ | ⟨e, failed⟩
      · rw [untilFailure_of_ok (made ..), untilFailure_of_ok (made ..), ih, add_ofNat_succ]
        cases (mk schema seed' stream' (index + 1)).untilFailure count with
        | mk records failure => cases failure <;> rfl
      · rw [untilFailure_of_error (failed ..), untilFailure_of_error (failed ..)]

/-- If nothing is drawn for the fields of a schema, its records may be generated in parts: records
from an index on, and then records from the index behind them on, are together what is generated
from the first index on.  Each part may have a seed of its own.  A failure is met in the parts where
it is met in the whole. -/
theorem untilFailure_add_of_isFixed (fixed : schema.IsFixed) (seed seed' seed'' first : UInt64)
    (count more : Nat) :
    let front := ((start schema seed).startAt first).untilFailure count
    let back := ((start schema seed').startAt (first + .ofNat count)).untilFailure more
    let whole := ((start schema seed'').startAt first).untilFailure (count + more)
    (front.2 = none → front.1.length = count ∧ whole = (front.1 ++ back.1, back.2)) ∧
      (front.2 ≠ none → whole = front) := by
  intro front back whole
  have parts : whole = match front with
      | (records, some e) => (records, some e)
      | (records, none) => (records ++ back.1, back.2) :=
    untilFailure_mk_add_of_isFixed fixed _ _ _ _ _ _ first count more
  have length (complete : front.2 = none) : front.1.length = count := length_untilFailure complete
  generalize front = results at parts length
  obtain ⟨records, failure⟩ := results
  cases failure with
  | none => exact ⟨fun complete => ⟨length complete, parts⟩, fun failed => absurd rfl failed⟩
  | some e => exact ⟨nofun, fun _ => parts⟩

/-- Seven records from the index eight on are three and then four with other seeds.  The fields are
made from the index as a number and as a text, and from a constant. -/
theorem untilFailure_add_of_isFixed_numbered :
    let schema : Schema := ⟨"t", [⟨"id", .int, none, false, some (.sequential 100)⟩,
      ⟨"name", .text, none, false, some (.pattern "user-\x7bindex\x7d\x7brand\x7d")⟩,
      ⟨"kind", .text, none, false, some (.constant (.int 7))⟩, ⟨"note", .text, none, true, none⟩]⟩
    let front := ((start schema 1).startAt 8).untilFailure 3
    let back := ((start schema 2).startAt 11).untilFailure 4
    schema.IsFixed ∧ front.2 = none ∧ back.2 = none ∧
      front.1.getLast? = some ⟨[.int 110, .text "user-10\x7brand\x7d", .text "7", .null]⟩ ∧
      ((start schema 3).startAt 8).untilFailure 7 = (front.1 ++ back.1, none) := by
  intro schema front back
  have fixed : schema.IsFixed := by
    intro field member generator given
    simp only [schema, List.mem_cons, List.not_mem_nil, or_false] at member
    rcases member with rfl | rfl | rfl | rfl
    · cases given
      trivial
    · cases given
      exact ⟨by decide, by decide⟩
    · cases given
      trivial
    · cases given
  have first : front.2 = none := by decide +kernel
  have second : back.2 = none := by decide +kernel
  refine ⟨fixed, first, second, by decide +kernel, ?_⟩
  rw [← second]
  exact ((untilFailure_add_of_isFixed fixed 1 2 3 8 3 4).1 first).2

end Generation

end Reconcile
