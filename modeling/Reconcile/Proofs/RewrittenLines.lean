import Reconcile.Proofs.KeptFixtures
import Reconcile.Proofs.LineByLine

/-!
# Rewritten lines

A line can spell its record in many ways.  Whatever record was read can be written again, as one
line that is read as that record, so that lines that were rewritten once stay as they are.
-/

namespace Reconcile

namespace Fixture

variable {octets rest : List UInt8} {r : Record}

theorem next?_of_some {result : Except Json.Fault Record} (inside : octets ≠ [])
    (given : readLine? (firstLine octets) = some result) :
    next? octets = some (result, afterLine octets) := by
  rw [next?, dif_neg inside]
  simp only [given]

/-- The line of a record, without its line feed. -/
theorem readLine?_recordText (r : Record) :
    readLine? ((recordText r).flatMap String.utf8EncodeChar) = some (readBackRecord r) := by
  rw [← recordOfText_recordText]
  exact readLine?_text (trim_bracketed _) (List.cons_ne_nil _ _)

/-- A record that was written is the next one, and what follows it is left. -/
theorem next?_line (r : Record) (behind : List UInt8) :
    next? ((line r).toUTF8.toList ++ behind) = some (readBackRecord r, behind) := by
  obtain ⟨first, after⟩ :=
    firstLine_append (lineFeed_notMem_flatMap (lineFeed_notMem_recordText r)) behind
  have given := readLine?_recordText r
  rw [← first] at given
  rw [line, octets_line, next?_of_some (by simp) given, after]

/-- A record is written as one line. -/
theorem areLines_line (r : Record) :
    AreLines (line r).toUTF8.toList [(recordText r).flatMap String.utf8EncodeChar] [] where
  together := by
    have octets := octets_line (recordText r) []
    rw [List.append_nil] at octets
    rw [line, octets]
    simp
  ended_whole := by
    rw [List.forall_mem_singleton]
    exact lineFeed_notMem_flatMap (lineFeed_notMem_recordText r)
  last_whole := List.not_mem_nil

end Fixture

namespace Serializer

/-- The octets of the next record, written anew. -/
def rewrite? (s : Serializer) (octets : List UInt8) : Option (List UInt8) :=
  match s.next? octets with
  | some (.ok r, _) => some (s.write r)
  | _ => none

theorem next?_write {r : Record} (kept : r.isKept = true) (behind : List UInt8) :
    jsonLines.next? (jsonLines.write r ++ behind) = some (.ok r, behind) := by
  refine next?_jsonLines_eq_some.mpr ?_
  change Fixture.next? ((Fixture.line r).toUTF8.toList ++ behind) = _
  rw [Fixture.next?_line, Fixture.readBackRecord_eq_ok_iff.mpr kept]

/-- However a record was spelled that is read from octets, it is written as one line.  That line is
read as the same record, by itself and in front of anything else, and is written as it is. -/
theorem jsonLines_rewrite {octets rest : List UInt8} {r : Record}
    (accepted : jsonLines.next? octets = some (.ok r, rest)) :
    (∃ line, Fixture.AreLines (jsonLines.write r) [line] [] ∧
      jsonLines.call 0 line = some (.ok r)) ∧
    (∀ behind, jsonLines.next? (jsonLines.write r ++ behind) = some (.ok r, behind)) ∧
    jsonLines.rewrite? octets = some (jsonLines.write r) ∧
    jsonLines.rewrite? (jsonLines.write r) = some (jsonLines.write r) := by
  have kept := Fixture.isKept_of_next? (next?_jsonLines_eq_some.mp accepted)
  have again := next?_write kept
  have alone := again []
  rw [List.append_nil] at alone
  have cut := Fixture.areLines_line r
  refine ⟨⟨_, cut, ?_⟩, again, ?_, ?_⟩
  · rw [call_of_whole (cut.ended_whole _ List.mem_cons_self), ofLine?,
      Fixture.readLine?_recordText, Fixture.readBackRecord_eq_ok_iff.mpr kept]
    rfl
  · rw [rewrite?, accepted]
  · rw [rewrite?, alone]

/-- Blanks, members in the other order, a pair instead of an object, a local time, an exponent. -/
theorem jsonLines_rewrite_spelled :
    let spelled := (" [ \x7b\"value\": \"2020-01-01t02:00:00.50+02:00\", " ++
      "\"type\":\"date_time\"\x7d,[\"double\",15E-1]]\r\n").toUTF8.toList
    let plain := ("[\x7b\"type\":\"date_time\",\"value\":\"2020-01-01T00:00:00.500Z\"\x7d," ++
      "\x7b\"type\":\"double\",\"value\":1.5\x7d]\n").toUTF8.toList
    let r : Record := ⟨[.dateTime ⟨1577836800, 500000000, by decide, by decide⟩,
      .double ⟨0x3ff8000000000000⟩]⟩
    jsonLines.next? spelled = some (.ok r, []) ∧ jsonLines.next? plain = some (.ok r, []) ∧
      jsonLines.rewrite? spelled = some plain ∧ jsonLines.rewrite? plain = some plain := by
  intro spelled plain r
  have accepted : jsonLines.next? spelled = some (.ok r, []) := by decide +kernel
  have written : jsonLines.write r = plain := by decide +kernel
  obtain ⟨-, again, first, second⟩ := jsonLines_rewrite accepted
  have alone := again []
  rw [List.append_nil] at alone
  rw [← written]
  exact ⟨accepted, alone, first, second⟩

end Serializer

end Reconcile
