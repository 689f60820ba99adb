import Reconcile.Serializer

/-!
# Reading records back

Records are given by octets if reading one after another gives them and then the end.  Records are
read back if whatever is written of them gives just what was written.
-/

namespace Reconcile

namespace Fixture

theorem read_of_next?_none {octets : List UInt8} (last : next? octets = none) :
    read octets = [] := by
  have all := next?_eq octets
  rw [last, Option.map_none] at all
  split at all
  · rename_i empty
    exact List.isEmpty_iff.mp empty
  · cases all

theorem read_of_next?_some {octets rest : List UInt8} {result : Except Json.Fault Record}
    (next : next? octets = some (result, rest)) : read octets = result :: read rest := by
  have all := next?_eq octets
  rw [next, Option.map_some] at all
  by_cases empty : (read octets).isEmpty = true
  · rw [if_pos empty] at all
    cases all
  · rw [if_neg empty] at all
    exact (Option.some.inj all).symm

end Fixture

namespace Serializer

variable {s : Serializer}

/-- Reading one record after another gives these and then the end. -/
inductive Gives (s : Serializer) : List UInt8 → List Record → Prop where
  | ended {octets : List UInt8} (last : s.next? octets = none) : Gives s octets []
  | record {octets rest : List UInt8} {r : Record} {others : List Record}
      (next : s.next? octets = some (.ok r, rest)) (later : Gives s rest others) :
      Gives s octets (r :: others)

/-- However often and in whatever order the records are written, they are read back. -/
def ReadsBack (s : Serializer) (records : List Record) : Prop :=
  ∀ written : List Record, (∀ r ∈ written, r ∈ records) → s.Gives (s.writeAll written) written

theorem ReadsBack.of_subset {records others : List Record} (reads : s.ReadsBack records)
    (inside : ∀ r ∈ others, r ∈ records) : s.ReadsBack others :=
  fun written taken => reads written fun r member => inside r (taken r member)

theorem readsBack_nil (s : Serializer) : s.ReadsBack [] := by
  intro written inside
  have none_ : written = [] := List.eq_nil_iff_forall_not_mem.mpr fun r member =>
    List.not_mem_nil (inside r member)
  rw [none_]
  exact Gives.ended s.next?_nil

theorem Gives.read_eq {octets : List UInt8} {records : List Record}
    (gives : s.Gives octets records) : s.read octets = records.map .ok := by
  induction gives with
  | ended last =>
      rw [read]
      split
      · rfl
      · rename_i next
        cases last.symm.trans next
      · rename_i next
        cases last.symm.trans next
  | record next later ih =>
      rw [read]
      split
      · rename_i other
        cases next.symm.trans other
      · rename_i other
        cases next.symm.trans other
      · rename_i other
        cases next.symm.trans other
        rw [ih]
        rfl

theorem Gives.unique {octets : List UInt8} {records others : List Record}
    (gives : s.Gives octets records) (gives' : s.Gives octets others) : records = others := by
  have same : records.map (Except.ok (ε := AccessFault)) = others.map .ok :=
    gives.read_eq.symm.trans gives'.read_eq
  exact (List.map_inj_right fun _ _ => Except.ok.inj).mp same

/-- Nothing gives nothing. -/
theorem gives_nil (s : Serializer) : s.Gives [] [] := .ended s.next?_nil

/-! ## Lines of JSON -/

theorem next?_jsonLines_eq_none {octets : List UInt8} :
    jsonLines.next? octets = none ↔ Fixture.next? octets = none :=
  Option.map_eq_none_iff

theorem next?_jsonLines_eq_some {octets rest : List UInt8} {r : Record} :
    jsonLines.next? octets = some (.ok r, rest) ↔
      Fixture.next? octets = some (.ok r, rest) := by
  change (Fixture.next? octets).map _ = _ ↔ _
  cases Fixture.next? octets with
  | none => simp
  | some pair =>
      obtain ⟨item, after⟩ := pair
      cases item with
      | error fault => exact iff_of_false (by rintro ⟨⟩) (by rintro ⟨⟩)
      | ok record =>
          constructor
          · rintro ⟨⟩
            rfl
          · rintro ⟨⟩
            rfl

/-- Octets give the records of their lines, if there is no fault among these. -/
theorem gives_jsonLines_iff {octets : List UInt8} {records : List Record} :
    jsonLines.Gives octets records ↔ Fixture.read octets = records.map .ok := by
  constructor
  · intro gives
    induction gives with
    | ended last => exact Fixture.read_of_next?_none (next?_jsonLines_eq_none.mp last)
    | record next _ ih =>
        rw [Fixture.read_of_next?_some (next?_jsonLines_eq_some.mp next), ih, List.map_cons]
  · intro all
    induction records generalizing octets with
    | nil =>
        cases next : Fixture.next? octets with
        | none => exact Gives.ended (next?_jsonLines_eq_none.mpr next)
        | some pair => cases all.symm.trans (Fixture.read_of_next?_some next)
    | cons r others ih =>
        cases next : Fixture.next? octets with
        | none => cases all.symm.trans (Fixture.read_of_next?_none next)
        | some pair =>
            obtain ⟨result, rest⟩ := pair
            obtain ⟨rfl, later⟩ := List.cons.inj (all.symm.trans (Fixture.read_of_next?_some next))
            exact Gives.record (next?_jsonLines_eq_some.mpr next) (ih later.symm)

end Serializer

end Reconcile
