import Reconcile.Command
import Reconcile.Proofs.ClosingProblems
import Reconcile.Proofs.GeneratedRecords
import Reconcile.Proofs.RepeatedChecks
import Reconcile.Proofs.ReorderedPlans
import Reconcile.Proofs.StreamSeeds

/-!
# Generated fixtures

A fixture that was generated from the first record on and a source that generates from the same
schema and seed have the same records in the same order.  By the comparison of the schema a check of
one against the other succeeds, either way round.
-/

namespace Reconcile

open Sorting (stable)

/-! ## Generations -/

/-- At the first index the stream is that of the seed itself. -/
theorem Generation.startAt_zero (schema : Schema) (seed : UInt64) :
    (Generation.start schema seed).startAt 0 = .start schema seed := by
  rw [startAt, start, seedAt_zero]

/-- A reader of a generation gives the records that it makes. -/
theorem Reader.yields_generation {files : Store} {g : Generation} {remaining : Nat}
    {records : List Record} (generates : g.untilFailure remaining = (records, none))
    (name : String) : Yields files ⟨name, .generation g remaining, none⟩ records := by
  induction remaining generalizing g records with
  | zero =>
      cases generates
      exact Yields.ended rfl rfl
  | succ remaining ih =>
      rcases g.next_cases with ⟨values, left, -, made⟩ | ⟨e, left, failed⟩
      · rw [Generation.untilFailure_of_ok made] at generates
        obtain ⟨rfl, complete⟩ := Prod.mk.inj generates
        refine Yields.record ?_ (ih (Prod.ext rfl complete))
        simp [next, reachedEnd, read, made]
      · rw [Generation.untilFailure_of_error failed] at generates
        cases generates

/-! ## Checks -/

namespace Source

variable {actual expected s s' : Source} {c : Comparison} {w w' : Workspace}
  {records wanted given : List Record}

/-- A source that provides records which can be read back, is compared in its own way, and closes
well. -/
structure Serves (s : Source) (files : Store) (c : Comparison) (records : List Record) : Prop where
  configured : s.comparison = some c
  known : s.isInitialized = true
  sound : s.IsSound
  provides : s.Provides files c.serializer records
  reads : c.serializer.ReadsBack records

theorem Provides.checkedView_eq (provides : s.Provides w.files c.serializer records)
    (reads : c.serializer.ReadsBack records) (takes : ∀ number, w.temp.refusal number = none) :
    (s.checkedView c w).result = .ok (.ofRecords (stable c.compare records)) := by
  unfold checkedView
  split
  · exact (provides.sortedViewWith_cases reads).resolve_right fun failed => failed.2 takes
  · rename_i unknown
    rw [provides.eq_nil unknown, stable, List.mergeSort_nil]
    rfl

/-- Wherever the records of two sources come from, they are compared sorted. -/
theorem compareWith_of_serves (expectedServes : expected.Serves w.files c wanted)
    (actualServes : actual.Serves w.files c given)
    (takes : ∀ number, w.temp.refusal number = none) :
    (compareWith actual expected w).result =
      c.checkGrouped (.ofRecords (stable c.compare wanted))
        (.ofRecords (stable c.compare given)) := by
  obtain ⟨opened, -, opens⟩ := expected.checkedView_effect c w
  have required : expected.required = .ok c := by rw [Source.required, expectedServes.configured]
  have wantedView := expectedServes.provides.checkedView_eq expectedServes.reads takes
  have givenView : (actual.checkedView c (expected.checkedView c w).workspace).result =
      .ok (.ofRecords (stable c.compare given)) := by
    refine Provides.checkedView_eq ?_ actualServes.reads ?_
    · rw [opens.alike.files]
      exact actualServes.provides
    · rw [opens.alike.refusal]
      exact takes
  simp only [compareWith, expectedServes.known, if_true, required, wantedView, givenView]
  rfl

theorem IsSound.problems_eq_nil {known : Option Comparison} {opened : List Handle}
    (sound : s.IsSound) (left : LeftBy known s opened s') (opens : s.Opens w opened w') :
    s'.handles.problems = [] := by
  rcases left.problems_eq opens with same | grown
  · rw [same, sound.problems]
  · rw [grown, sound.problems, nextProblem, sound.merger]
    rfl

/-- A check of two such sources ends as the comparison of what they provide. -/
theorem check_of_serves (expectedServes : expected.Serves w.files c wanted)
    (actualServes : actual.Serves w.files c given)
    (takes : ∀ number, w.temp.refusal number = none) :
    (check actual expected w).result =
      c.checkGrouped (.ofRecords (stable c.compare wanted))
        (.ofRecords (stable c.compare given)) := by
  obtain ⟨_, _, between, actualLeft, expectedLeft, expectedOpens, actualOpens⟩ :=
    compareWith_effect actual expected w
  have actualCloses := HandleSet.closing_of_problems
    (actualServes.sound.problems_eq_nil actualLeft actualOpens)
  have expectedCloses := HandleSet.closing_of_problems
    (expectedServes.sound.problems_eq_nil expectedLeft expectedOpens)
  rw [check_eq, ← compareWith_of_serves expectedServes actualServes takes]
  simp only [actualCloses, expectedCloses]
  cases (compareWith actual expected w).result <;> rfl

end Source

/-! ## Fixtures -/

namespace Command.GenerateRequest

variable {r : GenerateRequest} {w : Workspace} {schema : Schema} {records : List Record}
  {files : Store}

/-- The source that loads what was written. -/
def loaded (r : GenerateRequest) (schema : Schema) (budget : Nat) : Source :=
  ((Source.ofComparison (.ofSchema schema)).withBudget budget).load r.output

/-- The source that generates what is written. -/
def generated (r : GenerateRequest) (schema : Schema) (budget : Nat) : Source :=
  (Source.new.withBudget budget).generateFrom schema r.seed r.count

/-- What is left where all records can be generated and the output can be written. -/
theorem run_eq (loads : readSchema w.files r.schema = .ok schema) (fromStart : r.start = 0)
    (generates : (Generation.start schema r.seed).untilFailure r.count = (records, none))
    (written : w.files.write r.output (Fixture.write records) = .ok files) :
    r.run w = (.ok r.count, { w with files := files }) := by
  have passes : inContext (loading r.schema) (.ok schema) = .ok schema := rfl
  have counted : records.length = r.count := by
    have complete := Generation.length_untilFailure (congrArg Prod.snd generates)
    rwa [generates] at complete
  unfold run
  rw [loads, fromStart]
  simp only [passes, Generation.startAt_zero, generates, written, counted]

theorem serves_loaded (written : w.files.write r.output (Fixture.write records) = .ok files)
    (kept : ∀ record ∈ records, record.isKept = true) (schema : Schema) (budget : Nat) :
    (r.loaded schema budget).Serves files (.ofSchema schema) records where
  configured := rfl
  known := rfl
  sound := ⟨rfl, fun _ => rfl⟩
  provides := .file rfl ⟨_, Store.read_write written, Serializer.gives_writeAll_iff.mpr kept⟩
  reads := Serializer.readsBack_jsonLines kept

theorem serves_generated
    (generates : (Generation.start schema r.seed).untilFailure r.count = (records, none))
    (kept : ∀ record ∈ records, record.isKept = true) (files : Store) (budget : Nat) :
    (r.generated schema budget).Serves files (.ofSchema schema) records where
  configured := rfl
  known := rfl
  sound := ⟨rfl, fun _ => rfl⟩
  provides := .reader rfl (Reader.yields_generation generates _)
  reads := Serializer.readsBack_jsonLines kept

/-- From the first record on, as many records are written as were asked for.  If each of them can be
read back, then the fixture and the source that generates them have just these records, in the same
order; and at whatever budgets the two are sorted, a check of one against the other succeeds. -/
theorem run_agrees (loads : readSchema w.files r.schema = .ok schema) (fromStart : r.start = 0)
    (generates : (Generation.start schema r.seed).untilFailure r.count = (records, none))
    (reads : ∀ record ∈ records,
      Serializer.jsonLines.Gives (Serializer.jsonLines.writeAll [record]) [record])
    (written : w.files.write r.output (Fixture.write records) = .ok files) (budget budget' : Nat) :
    let loaded := r.loaded schema budget
    let generated := r.generated schema budget'
    r.run w = (.ok r.count, { w with files := files }) ∧
      (∃ input, loaded.records files = .ok input ∧ input.feed files = .ofRecords records) ∧
      (∃ input, generated.records files = .ok input ∧ input.feed files = .ofRecords records) ∧
      ∀ w', w'.files = files → (∀ number, w'.temp.refusal number = none) →
        (∃ report, (Source.check loaded generated w').result = .ok report) ∧
        ∃ report, (Source.check generated loaded w').result = .ok report := by
  intro loaded generated
  have kept (record : Record) (member : record ∈ records) : record.isKept = true :=
    Serializer.gives_singleton_iff.mp (reads record member)
  have fromFile : loaded.Serves files (.ofSchema schema) records :=
    serves_loaded written kept schema budget
  have fromReader : generated.Serves files (.ofSchema schema) records :=
    serves_generated generates kept files budget'
  obtain ⟨report, accepts⟩ : (Comparison.ofSchema schema).Accepts records records :=
    (Comparison.accepts_ofSchema_iff schema records records).mpr (.refl _)
  refine ⟨run_eq loads fromStart generates written, fromFile.provides.records_eq rfl,
    fromReader.provides.records_eq rfl, ?_⟩
  rintro w' rfl takes
  exact ⟨⟨report, (Source.check_of_serves fromReader fromFile takes).trans accepts⟩,
    ⟨report, (Source.check_of_serves fromFile fromReader takes).trans accepts⟩⟩

/-- Three random digits, which do not come in the order of the key. -/
theorem run_agrees_digits :
    let text := "fields: [\x7bname: a, type: int, generator: [int_range, 0, 9]\x7d]"
    let w := Workspace.ofFiles ⟨[], [(["s"], .file text.toUTF8.toList)]⟩ (.ofName "spill")
    let r : GenerateRequest := ⟨"s", 7, 3, 0, "o"⟩
    let records : List Record := [⟨[.int 0]⟩, ⟨[.int 3]⟩, ⟨[.int 1]⟩]
    ∃ schema, readSchema w.files r.schema = .ok schema ∧
      (Generation.start schema r.seed).untilFailure r.count = (records, none) ∧
      (∀ record ∈ records,
        Serializer.jsonLines.Gives (Serializer.jsonLines.writeAll [record]) [record]) ∧
      (r.run w).1 = .ok 3 ∧
      (∃ input, (r.loaded schema 0).records (r.run w).2.files = .ok input ∧
        input.feed (r.run w).2.files = .ofRecords records) ∧
      ∃ report, (Source.check (r.loaded schema 0) (r.generated schema 0) (r.run w).2).result =
        .ok report := by
  intro text w r records
  let schema : Schema := ⟨"", [⟨"a", .int, none, false, some (.integerRange 0 9)⟩]⟩
  have loads : readSchema w.files r.schema = .ok schema := by
    have read : (readSchema w.files r.schema).toOption = some schema := by decide +kernel
    cases result : readSchema w.files r.schema with
    | ok found =>
        rw [result] at read
        exact congrArg Except.ok (Option.some.inj read)
    | error e =>
        rw [result] at read
        cases read
  have generates : (Generation.start schema r.seed).untilFailure r.count = (records, none) := by
    decide +kernel
  have kept : ∀ record ∈ records, record.isKept = true := by decide
  have reads (record : Record) (member : record ∈ records) :
      Serializer.jsonLines.Gives (Serializer.jsonLines.writeAll [record]) [record] :=
    Serializer.gives_singleton_iff.mpr (kept record member)
  have writes (octets octets' : List UInt8) :
      ∃ files, (Store.mk [] [(["s"], .file octets)]).write "o" octets' = .ok files := ⟨_, rfl⟩
  obtain ⟨files, written⟩ : ∃ files, w.files.write r.output (Fixture.write records) = .ok files :=
    writes _ _
  obtain ⟨ran, fromFile, -, checks⟩ := run_agrees loads rfl generates reads written 0 0
  have takes (number : Nat) : (SpillRoot.ofName "spill").refusal number = none := rfl
  rw [ran]
  exact ⟨schema, loads, generates, reads, rfl, fromFile, (checks _ rfl takes).1⟩

end Command.GenerateRequest

end Reconcile
