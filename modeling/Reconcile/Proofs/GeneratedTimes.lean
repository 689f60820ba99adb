import Reconcile.Generation.Basic
import Reconcile.Proofs.DrawnNumbers

/-!
# Generated times

A range of times gives whole seconds, from the second of its first bound to that of its last.  So
nothing is made behind the last bound, but where the first bound has a fraction, the beginning of
its second lies before it.
-/

namespace Reconcile

namespace Timestamp

theorem isLE_compare_iff {a b : Timestamp} :
    (compare a b).isLE = true ↔
      a.seconds < b.seconds ∨ a.seconds = b.seconds ∧ a.nanos ≤ b.nanos := by
  change ((compare a.seconds b.seconds).then (compare a.nanos b.nanos)).isLE = true ↔ _
  rw [Ordering.isLE_then_iff_or, Int.compare_eq_lt, Int.compare_eq_eq, Nat.isLE_compare]

/-- The beginnings of the seconds between two times are times. -/
theorem exists_ofParts? {first last : Timestamp} {seconds : Int} (least : first.seconds ≤ seconds)
    (most : seconds ≤ last.seconds) :
    ∃ t, ofParts? seconds 0 = some t ∧ t.seconds = seconds ∧ t.nanos = 0 := by
  have whole : 0 < 2 * nanosPerSecond := by decide
  have range := And.intro (Int.le_trans first.seconds_range.1 least)
    (Int.le_trans most last.seconds_range.2)
  exact ⟨⟨seconds, 0, range, whole⟩, dif_pos ⟨range, whole⟩, rfl, rfl⟩

end Timestamp

namespace Generation

variable {first last : String} {start stop : Timestamp}

/-- A range between two bounds that can be read gives a time. -/
theorem value_timestampRange (starts : Timestamp.ofBoundText? first = some start)
    (stops : Timestamp.ofBoundText? last = some stop) (index : UInt64) (stream : KeyStream) :
    (value (.timestampRange first last) index).run.run stream =
      (.ok (.dateTime ((instant start stop).run stream).1),
        ((instant start stop).run stream).2) := by
  rw [value, starts, stops]
  rfl

/-- A range within one second gives its first bound. -/
theorem instant_of_le (within : stop.seconds ≤ start.seconds) (stream : KeyStream) :
    (instant start stop).run stream = (start, stream) := by
  rw [instant, if_pos within]
  rfl

/-- A longer range gives the beginning of the second that is drawn. -/
theorem instant_of_lt (longer : start.seconds < stop.seconds) (stream : KeyStream) :
    ∃ t, (instant start stop).run stream =
        (t, ((Draw.integer start.seconds stop.seconds).run stream).2) ∧
      t.seconds = ((Draw.integer start.seconds stop.seconds).run stream).1 ∧ t.nanos = 0 := by
  obtain ⟨least, most⟩ := Draw.integer_mem (Int.le_of_lt longer) stream
  obtain ⟨t, made, seconds, nanos⟩ := Timestamp.exists_ofParts? least most
  refine ⟨t, ?_, seconds, nanos⟩
  rw [instant, if_neg (Int.not_le.mpr longer), StateT.run_bind]
  change ((Timestamp.ofParts? ((Draw.integer start.seconds stop.seconds).run stream).1 0).getD start,
    ((Draw.integer start.seconds stop.seconds).run stream).2) = _
  rw [made]
  rfl

/-- A range of times gives a time, not behind the last bound and not before the second of the first
one.  It lies before the first bound exactly if that bound has a fraction and its own second is
drawn out of several. -/
theorem timestampRange_between_iff (starts : Timestamp.ofBoundText? first = some start)
    (stops : Timestamp.ofBoundText? last = some stop)
    (ordered : (compare start stop).isLE = true) (index : UInt64) (stream : KeyStream) :
    ∃ t left, (value (.timestampRange first last) index).run.run stream =
        (.ok (.dateTime t), left) ∧
      (compare t stop).isLE = true ∧ start.seconds ≤ t.seconds ∧
      ((compare start t).isLE = true ↔
        ¬ (0 < start.nanos ∧ start.seconds < stop.seconds ∧
          ((Draw.integer start.seconds stop.seconds).run stream).1 = start.seconds)) := by
  rw [value_timestampRange starts stops]
  rw [Timestamp.isLE_compare_iff] at ordered
  by_cases longer : start.seconds < stop.seconds
  · obtain ⟨t, made, seconds, nanos⟩ := instant_of_lt longer stream
    obtain ⟨least, most⟩ := Draw.integer_mem (Int.le_of_lt longer) stream
    rw [← seconds] at least most ⊢
    rw [made]
    refine ⟨t, _, rfl, ?_, least, ?_⟩
    · rw [Timestamp.isLE_compare_iff]
      omega
    · rw [Timestamp.isLE_compare_iff]
      omega
  · rw [instant_of_le (Int.not_lt.mp longer)]
    refine ⟨start, stream, rfl, ?_, Int.le_refl _, ?_⟩
    · exact Timestamp.isLE_compare_iff.mpr ordered
    · rw [Timestamp.isLE_compare_iff]
      omega

/-- From the middle of a second to its end, the seed zero gives the end. -/
theorem timestampRange_between_end :
    let start : Timestamp := ⟨1704067200, 500000000, by decide, by decide⟩
    let stop : Timestamp := ⟨1704067201, 0, by decide, by decide⟩
    Timestamp.ofBoundText? "2024-01-01T00:00:00.5Z" = some start ∧
      Timestamp.ofBoundText? "2024-01-01T00:00:01Z" = some stop ∧
      (compare start stop).isLE = true ∧
      ∃ t left, (value (.timestampRange "2024-01-01T00:00:00.5Z" "2024-01-01T00:00:01Z") 0).run.run
          (.ofSeed 0) = (.ok (.dateTime t), left) ∧
        (compare start t).isLE = true ∧ (compare t stop).isLE = true := by
  intro start stop
  have starts : Timestamp.ofBoundText? "2024-01-01T00:00:00.5Z" = some start := by decide +kernel
  have stops : Timestamp.ofBoundText? "2024-01-01T00:00:01Z" = some stop := by decide +kernel
  have ordered : (compare start stop).isLE = true := by decide
  obtain ⟨t, left, made, most, -, least⟩ :=
    timestampRange_between_iff starts stops ordered 0 (.ofSeed 0)
  refine ⟨starts, stops, ordered, t, left, made, least.mpr ?_, most⟩
  have drawn : ((Draw.integer start.seconds stop.seconds).run (.ofSeed 0)).1 ≠ start.seconds := by
    decide +kernel
  exact fun beginning => drawn beginning.2.2

/-- From the same range the seed two gives the beginning of the second, half a second too early. -/
theorem timestampRange_before_start :
    let start : Timestamp := ⟨1704067200, 500000000, by decide, by decide⟩
    let t : Timestamp := ⟨1704067200, 0, by decide, by decide⟩
    Timestamp.ofBoundText? "2024-01-01T00:00:00.5Z" = some start ∧
      ((value (.timestampRange "2024-01-01T00:00:00.5Z" "2024-01-01T00:00:01Z") 0).run.run
        (.ofSeed 2)).1 = .ok (.dateTime t) ∧
      compare t start = .lt := by
  intro start t
  have starts : Timestamp.ofBoundText? "2024-01-01T00:00:00.5Z" = some start := by decide +kernel
  have stops : Timestamp.ofBoundText? "2024-01-01T00:00:01Z" =
      some ⟨1704067201, 0, by decide, by decide⟩ := by
    decide +kernel
  refine ⟨starts, ?_, by decide⟩
  rw [value_timestampRange starts stops]
  have drawn : ((instant start ⟨1704067201, 0, by decide, by decide⟩).run (.ofSeed 2)).1 = t := by
    decide +kernel
  rw [drawn]

end Generation

end Reconcile
