import Reconcile.Proofs.ArrivalOrder
import Reconcile.Proofs.BagEquality
import Reconcile.Proofs.PlanVerdict

/-!
# Reordered plans

Whether a plan is verified does not depend on the order in which the records of its outputs were
added, as long as these are in memory.  Where a comparison is inferred from the first record, only
the number of fields of that record matters: the types that it suggests decide about the key, which
loses nothing.
-/

namespace Reconcile

open Sorting (stable)

/-! ## Comparisons -/

namespace Comparison

open Grouped

/-- Two comparisons that let the same bags of records pass. -/
def DecidesAlike (c c' : Comparison) : Prop :=
  ∀ {wanted wanted' given given' : List Record}, wanted'.Perm wanted → given'.Perm given →
    (c.Accepts wanted given ↔ c'.Accepts wanted' given')

/-- The matchers that are provided do not depend on the order of the records. -/
theorem decidesAlike_of_isProvided {c : Comparison} (provided : c.matcher.IsProvided) :
    c.DecidesAlike c := by
  intro wanted wanted' given given' wantedPerm givenPerm
  have same := checkGrouped_perm (ignoresOrder_of_isProvided provided) (c.isSorted_stable wanted)
    (c.isSorted_stable given) (c.isSorted_stable wanted') (c.isSorted_stable given')
    (Key.stable_perm_stable c.compare wantedPerm.symm)
    (Key.stable_perm_stable c.compare givenPerm.symm)
  unfold Accepts
  generalize c.checkGrouped (.ofRecords (stable c.compare wanted)) _ = result,
    c.checkGrouped (.ofRecords (stable c.compare wanted')) _ = result' at same
  cases result with
  | error e =>
      cases result' with
      | error e' => exact iff_of_false (by rintro ⟨_, ⟨⟩⟩) (by rintro ⟨_, ⟨⟩⟩)
      | ok report' => cases same
  | ok report =>
      cases result' with
      | error e' => cases same
      | ok report' => exact iff_of_true ⟨_, rfl⟩ ⟨_, rfl⟩

theorem accepts_ofSchema_iff (s : Schema) (wanted given : List Record) :
    (ofSchema s).Accepts wanted given ↔
      (wanted.map fun r => r.row s.length).Perm (given.map fun r => r.row s.length) := by
  rw [accepts_iff_passes, passes_ofSchema_iff]

/-- Of a schema only the number of fields decides. -/
theorem decidesAlike_ofSchema {s s' : Schema} (same : s'.length = s.length) :
    (ofSchema s).DecidesAlike (ofSchema s') := by
  intro wanted wanted' given given' wantedPerm givenPerm
  rw [accepts_ofSchema_iff, accepts_ofSchema_iff, same,
    (wantedPerm.map fun r => r.row s.length).congr_left,
    (givenPerm.map fun r => r.row s.length).congr_right]

end Comparison

/-! ## Sources -/

/-- Rearranged origins are the same, or hold the same records in memory. -/
theorem Origin.Rearranged.eq_or_records {o o' : Origin} (rearranged : o.Rearranged o') :
    o' = o ∨ ∃ before after, o = .records before ∧ o' = .records after ∧ after.Perm before := by
  cases rearranged with
  | same => exact Or.inl rfl
  | records perm => exact Or.inr ⟨_, _, rfl, rfl, perm⟩

namespace Source

variable {s s' expected actual : Source} {records wanted given : List Record}

/-- The records of a source in memory, which are none where nothing or emptiness was said. -/
def inMemory? (s : Source) : Option (List Record) :=
  match s.origin with
  | .unset => some []
  | .empty => some []
  | .records records => some records
  | _ => none

/-- The same source, but for the order of records in memory. -/
structure Reordered (s s' : Source) : Prop where
  origin : s.origin.Rearranged s'.origin
  settings : s' = { s with origin := s'.origin }

theorem Reordered.refl (s : Source) : s.Reordered s := ⟨.same _, rfl⟩

theorem Reordered.rearranged (reordered : s.Reordered s') : s.Rearranged s' := by
  have settings := reordered.settings
  refine ⟨reordered.origin, ?_, ?_⟩
  · rw [settings]
  · rw [settings]

theorem Reordered.handles_eq (reordered : s.Reordered s') : s'.handles = s.handles := by
  rw [reordered.settings]

theorem Reordered.exists_inMemory (reordered : s.Reordered s') (held : s.inMemory? = some records) :
    ∃ records', s'.inMemory? = some records' ∧ records'.Perm records := by
  unfold inMemory? at held ⊢
  rcases reordered.origin.eq_or_records with same | ⟨before, after, origin, origin', perm⟩
  · rw [same]
    exact ⟨records, held, .refl records⟩
  · rw [origin] at held
    obtain rfl := Option.some.inj held
    rw [origin']
    exact ⟨after, rfl, perm⟩

theorem exists_checkedView_of_inMemory (held : s.inMemory? = some records) (c : Comparison)
    (w : Workspace) :
    ∃ sorted, s.checkedView c w = ⟨.ok (.ofRecords (stable c.compare records)), sorted, w⟩ ∧
      sorted.handles = s.handles := by
  unfold inMemory? at held
  split at held
  · rename_i origin
    obtain rfl := Option.some.inj held
    have unknown : s.isInitialized = false := by simp [isInitialized, origin]
    rw [checkedView, unknown, if_neg (by simp), stable, List.mergeSort_nil]
    exact ⟨s, rfl, rfl⟩
  · rename_i origin
    obtain rfl := Option.some.inj held
    have marked : s.isMarkedEmpty = true := by simp [isMarkedEmpty, origin]
    rw [checkedView, marked, if_neg (by simp), stable, List.mergeSort_nil]
    exact ⟨s, rfl, rfl⟩
  · rename_i origin
    obtain rfl := Option.some.inj held
    exact exists_checkedView_of_origin origin c w
  · cases held

theorem firstFailure_eq_ok_iff {α : Type} {result : Except Failure α}
    {closed closed' : Except Failure Unit} :
    (∃ a, firstFailure result closed closed' = .ok a) ↔
      (∃ a, result = .ok a) ∧ closed = .ok () ∧ closed' = .ok () := by
  constructor
  · rintro ⟨a, done⟩
    obtain ⟨_, first, done⟩ := exists_of_bind_eq_ok done
    obtain ⟨_, second, done⟩ := exists_of_bind_eq_ok done
    obtain ⟨_, third, _⟩ := exists_of_bind_eq_ok done
    exact ⟨⟨_, first⟩, second, third⟩
  · rintro ⟨⟨a, rfl⟩, rfl, rfl⟩
    exact ⟨a, rfl⟩

/-- A check of records in memory succeeds just if they pass and what was opened before closes. -/
theorem check_ok_iff_accepts (c : Comparison) (known : expected.isInitialized = true)
    (wantedHeld : expected.inMemory? = some wanted) (givenHeld : actual.inMemory? = some given)
    (w : Workspace) :
    (∃ report, (check actual (expected.withComparison c) w).result = .ok report) ↔
      c.Accepts wanted given ∧ actual.handles.closing = .ok () ∧
        expected.handles.closing = .ok () := by
  let configured := expected.withComparison c
  have configuredHeld : configured.inMemory? = some wanted := wantedHeld
  have configuredKnown : configured.isInitialized = true := known
  have required : configured.required = .ok c := rfl
  obtain ⟨expected', wantedView, wantedHandles⟩ := exists_checkedView_of_inMemory configuredHeld c w
  obtain ⟨actual', givenView, givenHandles⟩ := exists_checkedView_of_inMemory givenHeld c w
  have compared : compareWith actual configured w =
      ⟨c.checkGrouped (.ofRecords (stable c.compare wanted))
        (.ofRecords (stable c.compare given)), actual', expected', w⟩ := by
    simp only [compareWith, configuredKnown, if_true, required, wantedView, givenView]
    rfl
  rw [check_eq, compared]
  simp only [wantedHandles, givenHandles]
  exact firstFailure_eq_ok_iff

/-- Checks by comparisons that decide alike succeed together, whatever the order of the records. -/
theorem check_ok_iff_of_reordered {expected' actual' : Source} {c c' : Comparison}
    (alike : c.DecidesAlike c') (known : expected.isInitialized = true)
    (wantedHeld : expected.inMemory? = some wanted) (givenHeld : actual.inMemory? = some given)
    (expectedReordered : expected.Reordered expected') (actualReordered : actual.Reordered actual')
    (w w' : Workspace) :
    (∃ report, (check actual (expected.withComparison c) w).result = .ok report) ↔
      ∃ report, (check actual' (expected'.withComparison c') w').result = .ok report := by
  obtain ⟨wanted', wantedHeld', wantedPerm⟩ := expectedReordered.exists_inMemory wantedHeld
  obtain ⟨given', givenHeld', givenPerm⟩ := actualReordered.exists_inMemory givenHeld
  have known' : expected'.isInitialized = true :=
    expectedReordered.rearranged.isInitialized_eq.trans known
  rw [check_ok_iff_accepts c known wantedHeld givenHeld w,
    check_ok_iff_accepts c' known' wantedHeld' givenHeld' w', alike wantedPerm givenPerm,
    actualReordered.handles_eq, expectedReordered.handles_eq]

/-- The first records in memory have as many fields. -/
def SameFirstLength (s s' : Source) : Prop :=
  ∀ first rest first' rest', s.origin = .records (first :: rest) →
    s'.origin = .records (first' :: rest') → first'.length = first.length

end Source

/-! ## Plans -/

namespace Plan

variable {p p' : Plan} {name : String} {s s' : Source} {w w' : Workspace}

/-- The same plan, but for the order of records in memory. -/
structure Reordered (p p' : Plan) : Prop where
  comparison : p'.comparison = p.comparison
  expected : ∀ name, Option.Rel Source.Reordered (p.expected.get? name) (p'.expected.get? name)
  actual : ∀ name, Option.Rel Source.Reordered (p.actual.get? name) (p'.actual.get? name)

/-- A plan all outputs of which are in memory. -/
structure IsInMemory (p : Plan) : Prop where
  expected : ∀ name s, p.expected.get? name = some s → ∃ records, s.inMemory? = some records
  actual : ∀ name s, p.actual.get? name = some s → ∃ records, s.inMemory? = some records

/-- A plan in which every comparison that is given uses one of the matchers that are provided. -/
structure IsProvided (p : Plan) : Prop where
  comparison : ∀ c, p.comparison = some c → c.matcher.IsProvided
  own : ∀ name s c, p.expected.get? name = some s → s.comparison = some c → c.matcher.IsProvided

/-! ## One output -/

theorem length_infer (name : String) (sample : Record) :
    (Schema.infer name sample).length = sample.length := by
  simp [Schema.infer, Schema.ofTypes, Schema.length, Record.length]

/-- Comparisons that are inferred from first records with as many fields decide alike. -/
theorem inferred?_alike (reordered : s.Reordered s') (lengths : s.SameFirstLength s') :
    Option.Rel Comparison.DecidesAlike (inferred? name s) (inferred? name s') := by
  have infers (first first' : Record) (same : first'.length = first.length) :
      Comparison.DecidesAlike (.ofSchema (.infer name first)) (.ofSchema (.infer name first')) := by
    refine Comparison.decidesAlike_ofSchema ?_
    rw [length_infer, length_infer, same]
  rcases reordered.origin.eq_or_records with same | ⟨before, after, origin, origin', perm⟩
  · rw [inferred?, inferred?, same]
    split
    · exact .some (infers _ _ rfl)
    · exact .none
  · rw [inferred?, inferred?, origin, origin']
    cases before with
    | nil =>
        rw [List.perm_nil.mp perm]
        exact .none
    | cons first rest =>
        cases after with
        | nil => cases List.nil_perm.mp perm
        | cons first' rest' =>
            exact .some (infers first first' (lengths first rest first' rest' origin origin'))

/-- The comparisons of an output decide alike, whether they are given or inferred. -/
theorem configuration?_alike (reordered : p.Reordered p') (provided : p.IsProvided)
    (given : p.expected.get? name = some s) (sources : s.Reordered s')
    (lengths : s.comparison = none → p.comparison = none → s.SameFirstLength s') :
    Option.Rel Comparison.DecidesAlike (p.configuration? name s) (p'.configuration? name s') := by
  rw [configuration?, configuration?, sources.rearranged.comparison, reordered.comparison]
  cases own : s.comparison with
  | some c =>
      exact .some (Comparison.decidesAlike_of_isProvided (provided.own name s c given own))
  | none =>
      rw [Option.none_or, Option.none_or]
      cases shared : p.comparison with
      | some c => exact .some (Comparison.decidesAlike_of_isProvided (provided.comparison c shared))
      | none =>
          rw [Option.none_or, Option.none_or]
          exact inferred?_alike sources (lengths own shared)

/-- An output does not fail just if there is a comparison for it, by which it equals the actual
output if anything is expected. -/
theorem exists_fares_ok_iff :
    (∃ report?, p.Fares w name s (.ok report?)) ↔
      ∃ c, p.configuration? name s = some c ∧
        (s.isInitialized = true → ∃ report, p.checkOutput w name s c = .ok report) := by
  constructor
  · rintro ⟨report?, fares⟩
    cases fares with
    | unexpected configured unknown =>
        exact ⟨_, configured, fun known => absurd (unknown.symm.trans known) Bool.false_ne_true⟩
    | equal configured known passes => exact ⟨_, configured, fun _ => ⟨_, passes⟩⟩
  · rintro ⟨c, configured, passes⟩
    cases known : s.isInitialized with
    | false => exact ⟨none, .unexpected configured known⟩
    | true =>
        obtain ⟨report, equal⟩ := passes known
        exact ⟨some report, .equal configured known equal⟩

/-- An output fares well by one comparison just if it does by another that decides alike. -/
theorem exists_fares_ok_iff_of_reordered (reordered : p.Reordered p') (inMemory : p.IsInMemory)
    (given : p.expected.get? name = some s) (sources : s.Reordered s')
    (alike : Option.Rel Comparison.DecidesAlike (p.configuration? name s)
      (p'.configuration? name s')) :
    (∃ report?, p.Fares w name s (.ok report?)) ↔
      ∃ report?, p'.Fares w' name s' (.ok report?) := by
  obtain ⟨wanted, wantedHeld⟩ := inMemory.expected name s given
  have known : s'.isInitialized = s.isInitialized := sources.rearranged.isInitialized_eq
  rw [exists_fares_ok_iff, exists_fares_ok_iff]
  generalize p.configuration? name s = configured, p'.configuration? name s' = configured' at alike
  cases alike with
  | none => exact iff_of_false (by rintro ⟨_, ⟨⟩, _⟩) (by rintro ⟨_, ⟨⟩, _⟩)
  | @some c c' alike =>
      have actualReordered : ((p.actual.get? name).getD .new).Reordered
          ((p'.actual.get? name).getD .new) := by
        have both := reordered.actual name
        generalize p.actual.get? name = found, p'.actual.get? name = found' at both
        cases both with
        | none => exact .refl .new
        | some actuals => exact actuals
      obtain ⟨found, foundHeld⟩ : ∃ found,
          ((p.actual.get? name).getD .new).inMemory? = some found := by
        cases actual : p.actual.get? name with
        | none => exact ⟨[], rfl⟩
        | some s => exact inMemory.actual name s actual
      simp only [Option.some.injEq, exists_eq_left', known]
      exact imp_congr_right fun known => Source.check_ok_iff_of_reordered alike known wantedHeld
        foundHeld sources actualReordered w w'

/-! ## All outputs -/

theorem exists_verify_ok_iff (p : Plan) (w : Workspace) :
    (∃ total, (p.verify w).result = .ok total) ↔
      ∀ name s, p.expected.get? name = some s → ∃ report?, p.Fares w name s (.ok report?) := by
  rcases verifyEach_cases p w .empty p.expected.ordered with
    ⟨reports, all, result⟩ | ⟨e, result, name, s, member, fails, -, -⟩
  · refine iff_of_true ⟨_, result⟩ fun name s given => ?_
    have member := p.expected.get?_eq_some_iff.mp given
    obtain ⟨place, inside, here⟩ := List.mem_iff_getElem.mp member
    have fares := all.get inside (all.length_eq ▸ inside)
    rw [List.get_eq_getElem, here] at fares
    exact ⟨_, fares⟩
  · refine iff_of_false ?_ fun passes => ?_
    · rintro ⟨total, told⟩
      cases result.symm.trans told
    · obtain ⟨report?, fares⟩ := passes name s (p.expected.get?_eq_some_iff.mpr member)
      cases fails.unique fares

/-- What holds of related outputs alike holds of all outputs alike. -/
theorem forall_iff_of_rel {outputs outputs' : Outputs} {related : Source → Source → Prop}
    (both : ∀ name, Option.Rel related (outputs.get? name) (outputs'.get? name))
    {holds holds' : String → Source → Prop}
    (each : ∀ name s s', outputs.get? name = some s → outputs'.get? name = some s' →
      related s s' → (holds name s ↔ holds' name s')) :
    (∀ name s, outputs.get? name = some s → holds name s) ↔
      ∀ name s, outputs'.get? name = some s → holds' name s := by
  refine forall_congr' fun name => ?_
  have here := both name
  have alike := each name
  generalize outputs.get? name = found, outputs'.get? name = found' at here alike
  cases here with
  | none => exact iff_of_true (fun _ missing => by cases missing) fun _ missing => by cases missing
  | some sources =>
      have same := alike _ _ rfl rfl sources
      constructor
      · rintro first _ ⟨⟩
        exact same.mp (first _ rfl)
      · rintro second _ ⟨⟩
        exact same.mpr (second _ rfl)

/-- Whether a plan is verified does not depend on the order in which the records of its outputs were
added, if these are in memory and all comparisons that are given use a matcher that is provided: as
long as the first expected record has as many fields as before where no comparison is given. -/
theorem verify_reordered (reordered : p.Reordered p') (inMemory : p.IsInMemory)
    (provided : p.IsProvided)
    (lengths : ∀ name s s', p.expected.get? name = some s → p'.expected.get? name = some s' →
      s.comparison = none → p.comparison = none → s.SameFirstLength s')
    (w w' : Workspace) :
    (∃ total, (p.verify w).result = .ok total) ↔ ∃ total, (p'.verify w').result = .ok total := by
  rw [exists_verify_ok_iff, exists_verify_ok_iff]
  refine forall_iff_of_rel reordered.expected fun name s s' given given' sources => ?_
  exact exists_fares_ok_iff_of_reordered reordered inMemory given sources
    (configuration?_alike reordered provided given sources (lengths name s s' given given'))

/-! ## Plans of one output -/

/-- A plan without a comparison, with records that were added to one output. -/
def ofRecords (name : String) (wanted given : List Record) : Plan :=
  ((ofComparison none).withExpected name (Source.new.addAll wanted)).withActual name
    (Source.new.addAll given)

theorem expected_ofRecords (name other : String) (wanted given : List Record) :
    (ofRecords name wanted given).expected.get? other =
      if other = name then some (Source.new.addAll wanted) else none :=
  Outputs.get?_put _ name other _

theorem actual_ofRecords (name other : String) (wanted given : List Record) :
    (ofRecords name wanted given).actual.get? other =
      if other = name then some (Source.new.addAll given) else none :=
  Outputs.get?_put _ name other _

theorem reordered_addAll {records records' : List Record} (perm : records'.Perm records) :
    (Source.new.addAll records).Reordered (Source.new.addAll records') :=
  ⟨.records perm, rfl⟩

/-- Where all records have as many fields, so do the first ones. -/
theorem sameFirstLength_addAll {records records' : List Record} {count : Nat}
    (uniform : ∀ r ∈ records, r.length = count) (perm : records'.Perm records) :
    (Source.new.addAll records).SameFirstLength (Source.new.addAll records') := by
  intro first rest first' rest' origin origin'
  obtain rfl : records = first :: rest := Origin.records.inj origin
  obtain rfl : records' = first' :: rest' := Origin.records.inj origin'
  rw [uniform first List.mem_cons_self, uniform first' (perm.subset List.mem_cons_self)]

theorem reordered_ofRecords {wanted wanted' given given' : List Record}
    (wantedPerm : wanted'.Perm wanted) (givenPerm : given'.Perm given) (name : String) :
    (ofRecords name wanted given).Reordered (ofRecords name wanted' given') where
  comparison := rfl
  expected other := by
    rw [expected_ofRecords, expected_ofRecords]
    split
    · exact .some (reordered_addAll wantedPerm)
    · exact .none
  actual other := by
    rw [actual_ofRecords, actual_ofRecords]
    split
    · exact .some (reordered_addAll givenPerm)
    · exact .none

theorem isInMemory_ofRecords (name : String) (wanted given : List Record) :
    (ofRecords name wanted given).IsInMemory where
  expected other s found := by
    rw [expected_ofRecords] at found
    split at found
    · obtain rfl := Option.some.inj found
      exact ⟨wanted, rfl⟩
    · cases found
  actual other s found := by
    rw [actual_ofRecords] at found
    split at found
    · obtain rfl := Option.some.inj found
      exact ⟨given, rfl⟩
    · cases found

theorem isProvided_ofRecords (name : String) (wanted given : List Record) :
    (ofRecords name wanted given).IsProvided where
  comparison c shared := by cases shared
  own other s c found own := by
    rw [expected_ofRecords] at found
    split at found
    · obtain rfl := Option.some.inj found
      cases own
    · cases found

/-- Such a plan compares by the first record that is expected. -/
theorem verify_ofRecords (name : String) (first : Record) (others given : List Record)
    (w : Workspace) :
    let c := Comparison.ofSchema (.infer name first)
    ((ofRecords name (first :: others) given).verify w).result =
      ((c.checkGrouped (.ofRecords (stable c.compare (first :: others)))
        (.ofRecords (stable c.compare given))).mapError (atOutput name)).map
          Report.empty.absorb := by
  intro c
  let expected := (Source.new.addAll (first :: others)).withComparison c
  have wantedHeld : expected.HoldsInMemory (first :: others) := ⟨rfl, nofun⟩
  have givenHeld : (Source.new.addAll given).HoldsInMemory given := ⟨rfl, nofun⟩
  have checked := Source.check_eq_checkGrouped (c := c) wantedHeld givenHeld rfl
    (List.cons_ne_nil first others) w
  have actual : (((ofRecords name (first :: others) given).withExpected name expected).actual.get?
      name).getD .new = Source.new.addAll given := by
    change ((ofRecords name (first :: others) given).actual.get? name).getD .new = _
    rw [actual_ofRecords, if_pos rfl, Option.getD_some]
  have sources : (ofRecords name (first :: others) given).expected.sources =
      [(name, Source.new.addAll (first :: others))] := rfl
  have resolved : (ofRecords name (first :: others) given).resolved? name
      (Source.new.addAll (first :: others)) = some expected := rfl
  have known : expected.isInitialized = true := rfl
  rw [verify, sources, verifyEach, resolved]
  simp only [known, if_true, actual, checked]
  cases c.checkGrouped (.ofRecords (stable c.compare (first :: others)))
    (.ofRecords (stable c.compare given)) <;> rfl

/-- The field that is null in the first record counts as text, and as a whole number once the
records are reordered; the key is another one then, but what passes is the same. -/
theorem verify_reordered_inferred :
    let w := Workspace.ofFiles .empty (.ofName "spill")
    let wanted : List Record := [⟨[.null, .int 2]⟩, ⟨[.int 1, .int 3]⟩]
    let p := ofRecords "o" wanted wanted.reverse
    let p' := ofRecords "o" wanted.reverse wanted
    p.Reordered p' ∧ (p.verify w).result = .ok ⟨2, 2, 2, ⟨0⟩⟩ ∧
      ∃ total, (p'.verify w).result = .ok total := by
  intro w wanted p p'
  have reordered : p.Reordered p' :=
    reordered_ofRecords wanted.reverse_perm wanted.reverse_perm.symm "o"
  have verified : (p.verify w).result = .ok ⟨2, 2, 2, ⟨0⟩⟩ := by
    rw [verify_ofRecords, Sorting.stable_eq_insertionSort, Sorting.stable_eq_insertionSort]
    decide +kernel
  have uniform : ∀ r ∈ wanted, r.length = 2 := by simp [wanted, Record.length]
  have lengths (name : String) (s s' : Source) (given : p.expected.get? name = some s)
      (given' : p'.expected.get? name = some s') : s.SameFirstLength s' := by
    rw [expected_ofRecords] at given given'
    split at given
    · rename_i here
      obtain rfl := Option.some.inj given
      rw [if_pos here] at given'
      obtain rfl := Option.some.inj given'
      exact sameFirstLength_addAll uniform wanted.reverse_perm
    · cases given
  refine ⟨reordered, verified, ?_⟩
  exact (verify_reordered reordered (isInMemory_ofRecords _ _ _) (isProvided_ofRecords _ _ _)
    (fun name s s' given given' _ _ => lengths name s s' given given') w w).mp ⟨_, verified⟩

/-- The number of fields of the first record does matter: with one field the second ones are not
compared, with two they are. -/
theorem verify_depends_on_first :
    let w := Workspace.ofFiles .empty (.ofName "spill")
    let wanted : List Record := [⟨[.int 1]⟩, ⟨[.int 1, .int 2]⟩]
    let given : List Record := [⟨[.int 1]⟩, ⟨[.int 1, .int 3]⟩]
    let p := ofRecords "o" wanted given
    let p' := ofRecords "o" wanted.reverse given
    p.Reordered p' ∧ p.IsInMemory ∧ p.IsProvided ∧
      ¬ ((∃ total, (p.verify w).result = .ok total) ↔
        ∃ total, (p'.verify w).result = .ok total) := by
  intro w wanted given p p'
  have verified : (p.verify w).result = .ok ⟨1, 2, 2, ⟨0⟩⟩ := by
    rw [verify_ofRecords, Sorting.stable_eq_insertionSort, Sorting.stable_eq_insertionSort]
    decide +kernel
  have failed : (p'.verify w).result =
      .error (.noValueForKey "[1, 2]" 1 "(1, 2)" "(1, 3)") := by
    rw [show p' = ofRecords "o" (⟨[.int 1, .int 2]⟩ :: [⟨[.int 1]⟩]) given from rfl,
      verify_ofRecords, Sorting.stable_eq_insertionSort, Sorting.stable_eq_insertionSort]
    decide +kernel
  refine ⟨reordered_ofRecords wanted.reverse_perm (.refl given) "o", isInMemory_ofRecords _ _ _,
    isProvided_ofRecords _ _ _, fun same => ?_⟩
  obtain ⟨total, told⟩ := same.mp ⟨_, verified⟩
  cases failed.symm.trans told

end Plan

end Reconcile
