import Reconcile.AccessFault
import Reconcile.Fixture.Lines

/-!
# Serializers

How records are written as octets, one after another, and read back.
-/

namespace Reconcile

structure Serializer where
  /-- the octets of a record -/
  write : Record → List UInt8
  /-- how many octets a record counts against a budget -/
  size : Record → Nat
  /-- the next record or fault with the octets behind it, none at the end -/
  next? : List UInt8 → Option (Except AccessFault Record × List UInt8)
  /-- without octets the end is reached -/
  next?_nil : next? [] = none
  /-- a record takes octets up -/
  next?_shorter : ∀ {octets rest : List UInt8} {r : Record},
    next? octets = some (.ok r, rest) → rest.length < octets.length

namespace Sorting

/-- The faults of fixture lines as faults of access. -/
def ofFault : Json.Fault → AccessFault
  | .truncated => .unexpectedEnd
  | .malformed => .invalidData

end Sorting

namespace Serializer

/-- The octets of records, one after another. -/
def writeAll (s : Serializer) (records : List Record) : List UInt8 := records.flatMap s.write

/-- What is read one after another, up to the end or the first fault. -/
def read (s : Serializer) (octets : List UInt8) : List (Except AccessFault Record) :=
  match next : s.next? octets with
  | none => []
  | some (.error fault, _) => [.error fault]
  | some (.ok r, rest) =>
      have := s.next?_shorter next
      .ok r :: s.read rest
termination_by octets.length

/-- One line of JSON for each record. -/
def jsonLines : Serializer where
  write r := (Fixture.line r).toUTF8.toList
  size := Fixture.lineSize
  next? octets := (Fixture.next? octets).map fun (item, rest) =>
    (item.mapError Sorting.ofFault, rest)
  next?_nil := by
    rw [Fixture.next?]
    rfl
  next?_shorter := by
    intro octets rest r next
    obtain ⟨⟨item, after⟩, taken, same⟩ := Option.map_eq_some_iff.mp next
    obtain ⟨-, rfl⟩ := Prod.mk.inj same
    exact Fixture.next?_shorter taken

theorem writeAll_jsonLines (records : List Record) :
    jsonLines.writeAll records = Fixture.write records := rfl

end Serializer

end Reconcile
