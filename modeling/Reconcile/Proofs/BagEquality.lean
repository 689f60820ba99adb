import Reconcile.Proofs.ExactMatching
import Reconcile.Proofs.MemorySources

/-!
# Equality of bags

The exact comparison of a schema decides whether two bags of records are equal: records with the
same row have the same key, so that comparing group by group loses nothing.
-/

namespace Reconcile

/-- The key in a row. -/
def Key.ofRow (k : Key) (row : List Value) : List Value :=
  k.indices.map fun index => row.getD index .null

theorem Key.extract_eq_ofRow {k : Key} {count : Nat} (inside : ∀ index ∈ k.indices, index < count)
    (r : Record) : k.extract r = k.ofRow (r.row count) := by
  refine List.map_congr_left fun index member => ?_
  have within : index < (List.range count).length := by
    rw [List.length_range]
    exact inside index member
  rw [Record.row, List.getD_eq_getElem?_getD, List.getElem?_map, List.getElem?_eq_getElem within,
    List.getElem_range]
  rfl

namespace Grouped

variable {α : Type} {c : Comparison} {equal : Record → Record → Bool} {f : Record → α}
  {g : α → List Value} {expected actual : List Record}

/-- Where images determine keys, the images of a group are those of its key. -/
theorem map_group [DecidableEq α] {k : Key} (key : ∀ r, k.extract r = g (f r))
    (values : List Value) (records : List Record) :
    (k.group values records).map f = (records.map f).filter fun image => g image = values := by
  rw [List.filter_map, Key.group]
  congr 1
  exact List.filter_congr fun r _ => by rw [key]; rfl

/-- By exact matching, sorted lists pass exactly if their images are the same bag. -/
theorem passes_iff_perm [DecidableEq α] (exactMatcher : c.matcher = .exact equal)
    (same : ∀ a b, equal a b = true ↔ f a = f b) (key : ∀ r, c.key.extract r = g (f r))
    (expectedSorted : c.key.IsSorted expected) (actualSorted : c.key.IsSorted actual) :
    Passes c expected actual ↔ (expected.map f).Perm (actual.map f) := by
  constructor
  · intro passes
    rcases checkGrouped_verdict c expectedSorted actualSorted with ⟨-, passed⟩ | ⟨fails, -⟩
    · rw [checkGrouped_ofRecords] at passed
      have bags := (checkLists_sound exactMatcher same passed).map Prod.snd
      rw [List.map_map, List.map_map] at bags
      exact bags
    · exact absurd passes fails
  · intro bags
    refine ⟨fun a member => ?_, fun e member => ?_, fun e _ => ?_⟩
    · obtain ⟨e, inExpected, equals⟩ :=
        List.mem_map.mp (bags.mem_iff.mpr (List.mem_map_of_mem member))
      exact ⟨e, inExpected, by rw [key, key, equals]⟩
    · obtain ⟨a, inActual, equals⟩ :=
        List.mem_map.mp (bags.mem_iff.mp (List.mem_map_of_mem member))
      refine List.ne_nil_of_mem (Key.mem_group.mpr ⟨inActual, ?_⟩)
      rw [key, key, equals]
    · rw [leftOver, Comparison.residue, exactMatcher, Matcher.residue,
        Matcher.pairOff_isEmpty_iff same, map_group key, map_group key]
      exact bags.filter _

/-- The exact comparison of a schema lets bags pass that are equal in the fields of the schema. -/
theorem passes_ofSchema_iff (s : Schema) {wanted given : List Record} :
    Passes (.ofSchema s) (Sorting.stable (Comparison.ofSchema s).compare wanted)
        (Sorting.stable (Comparison.ofSchema s).compare given) ↔
      (wanted.map fun r => r.row s.length).Perm (given.map fun r => r.row s.length) := by
  let c := Comparison.ofSchema s
  have wantedPerm := (Key.stable_perm c.compare wanted).map fun r => r.row s.length
  have givenPerm := (Key.stable_perm c.compare given).map fun r => r.row s.length
  have rows (a b : Record) :
      Record.agree s.length a b = true ↔ a.row s.length = b.row s.length := Record.agree_iff
  have key (r : Record) : c.key.extract r = c.key.ofRow (r.row s.length) :=
    Key.extract_eq_ofRow (fun _ => Key.lt_length_of_mem_ofSchema) r
  rw [passes_iff_perm (c := c) rfl rows key (c.isSorted_stable wanted) (c.isSorted_stable given),
    wantedPerm.congr_left, givenPerm.congr_right]

end Grouped

namespace Source

open Grouped

/-- Checking records in memory by the exact comparison of a schema succeeds exactly if expected and
actual records can be paired such that both of a pair agree.  It then counts the records of both
sides and the keys; otherwise records are found to differ. -/
theorem check_exact (s : Schema) {expected actual : Source} {wanted given : List Record}
    (wantedHeld : expected.HoldsInMemory wanted) (givenHeld : actual.HoldsInMemory given)
    (expectedConfigured : expected.comparison = some (.ofSchema s))
    (nonempty : wanted ≠ []) (w : Workspace) :
    ((∃ report, (check actual expected w).result = .ok report) ↔
      wanted.length = given.length ∧ ∃ pairing : Fin wanted.length ≃ Fin given.length,
        ∀ i, Record.agree s.length (wanted.get i) (given.get (pairing i)) = true) ∧
    (∀ report, (check actual expected w).result = .ok report →
      report.expected = wanted.length ∧ report.actual = given.length ∧
        report.groups = (wanted.map (Key.ofSchema s).extract).toFinset.card) ∧
    (∀ failure, (check actual expected w).result = .error failure →
      failure.isMismatch = true) := by
  let c := Comparison.ofSchema s
  have key (r : Record) : c.key.extract r = c.key.ofRow (r.row s.length) :=
    Key.extract_eq_ofRow (fun _ => Key.lt_length_of_mem_ofSchema) r
  have passes_iff : Passes c (Sorting.stable c.compare wanted) (Sorting.stable c.compare given) ↔
      ∃ pairing : Fin wanted.length ≃ Fin given.length,
        ∀ i, Record.agree s.length (wanted.get i) (given.get (pairing i)) = true := by
    have wantedPerm := (Key.stable_perm c.compare wanted).map fun r => r.row s.length
    have givenPerm := (Key.stable_perm c.compare given).map fun r => r.row s.length
    have wantedSorted : c.key.IsSorted (Sorting.stable c.compare wanted) :=
      Key.isSorted_stable wanted
    have givenSorted : c.key.IsSorted (Sorting.stable c.compare given) :=
      Key.isSorted_stable given
    rw [passes_iff_perm (f := fun r => r.row s.length) (g := c.key.ofRow) rfl
      (fun _ _ => Record.agree_iff) key wantedSorted givenSorted, wantedPerm.congr_left,
      givenPerm.congr_right, perm_map_iff_exists_pairing]
    simp only [Record.agree_iff]
  rcases check_verdict wantedHeld givenHeld expectedConfigured nonempty w with
    ⟨passes, counted⟩ | ⟨fails, failure, found, mismatch⟩
  · obtain ⟨pairing, agree⟩ := passes_iff.mp passes
    rw [counted]
    refine ⟨iff_of_true ⟨_, rfl⟩ ⟨Fin.equiv_iff_eq.mp ⟨pairing⟩, pairing, agree⟩, ?_, ?_⟩
    · rintro report ⟨⟩
      exact ⟨rfl, rfl, rfl⟩
    · rintro failure ⟨⟩
  · rw [found]
    refine ⟨iff_of_false ?_ fun paired => fails (passes_iff.mpr paired.2), ?_, ?_⟩
    · rintro ⟨report, ⟨⟩⟩
    · rintro report ⟨⟩
    · rintro other ⟨⟩
      exact mismatch

/-- Records in different orders, of which some lack a field that is null in others, are equal. -/
theorem check_exact_reordered :
    let w := Workspace.ofFiles .empty (.ofName "spill")
    let s := Schema.ofTypes "pairs" [.int, .text]
    let wanted : List Record := [⟨[.int 2]⟩, ⟨[.int 1]⟩, ⟨[.int 2, .null]⟩]
    let given : List Record := [⟨[.int 1, .null]⟩, ⟨[.int 2]⟩, ⟨[.int 2]⟩]
    let expected := (ofComparison (.ofSchema s)).addAll wanted
    let actual := (ofComparison (.ofSchema s)).addAll given
    ∃ report, (check actual expected w).result = .ok report ∧ report.expected = 3 ∧
      report.actual = 3 ∧ report.groups = 2 := by
  intro w s wanted given expected actual
  obtain ⟨decided, counts, -⟩ := check_exact s (holdsInMemory_addAll (.ofSchema s) wanted)
    (holdsInMemory_addAll (.ofSchema s) given) rfl (by simp [wanted]) w
  have paired (i : Fin 3) :
      Record.agree s.length (wanted.get i) (given.get (Equiv.swap (0 : Fin 3) 1 i)) = true := by
    revert i
    decide
  obtain ⟨report, passes⟩ := decided.mpr ⟨rfl, Equiv.swap (0 : Fin 3) 1, paired⟩
  obtain ⟨expectedCount, actualCount, groupCount⟩ := counts report passes
  exact ⟨report, passes, expectedCount, actualCount, groupCount.trans (by decide)⟩

end Source

end Reconcile
