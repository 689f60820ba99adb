import Mathlib.Logic.Function.Basic
import Reconcile.Proofs.GeneratedRecords

/-!
# Stream seeds

A generation that starts at an index draws from a stream with a seed of its own.  The seed of the
generation and that of the stream give the index back, since what the index is multiplied by has an
inverse: no two indexes share a stream's seed.
-/

namespace Reconcile

namespace Generation

variable {seed : UInt64} {g h : Generation}

/-! ## Seeds -/

/-- The stream of the first index has the seed of the generation itself. -/
@[simp] theorem seedAt_zero (seed : UInt64) : seedAt seed 0 = seed := by
  rw [seedAt, UInt64.zero_mul, UInt64.add_zero]

/-- The index whose stream has a seed. -/
def indexOf (seed streamSeed : UInt64) : UInt64 := (streamSeed - seed) * 0xf1de83e19937733d

theorem indexOf_seedAt (seed : UInt64) : Function.LeftInverse (indexOf seed) (seedAt seed) := by
  intro index
  have inverse : (0x9e3779b97f4a7c15 : UInt64) * 0xf1de83e19937733d = 1 := by decide
  rw [indexOf, seedAt, UInt64.add_comm, UInt64.add_sub_cancel, UInt64.mul_assoc, inverse,
    UInt64.mul_one]

theorem seedAt_injective (seed : UInt64) : Function.Injective (seedAt seed) :=
  (indexOf_seedAt seed).injective

/-! ## Starts -/

/-- Whether a generation was begun with a seed.  Since then it may have been moved to other indexes and
asked for records. -/
inductive IsBegunWith (seed : UInt64) : Generation → Prop where
  | start (schema : Schema) : IsBegunWith seed (.start schema seed)
  | startAt {g : Generation} (begun : IsBegunWith seed g) (index : UInt64) :
      IsBegunWith seed (g.startAt index)
  | next {g : Generation} (begun : IsBegunWith seed g) : IsBegunWith seed g.next.2

theorem seed_next (g : Generation) : g.next.2.seed = g.seed := by
  rcases g.next_cases with ⟨values, left, -, made⟩ | ⟨e, left, failed⟩
  · rw [made]
  · rw [failed]

theorem IsBegunWith.seed_eq (begun : IsBegunWith seed g) : g.seed = seed := by
  induction begun with
  | start schema => rfl
  | startAt begun index ih => exact ih
  | next begun ih => rw [seed_next, ih]

theorem IsBegunWith.stream_startAt (begun : IsBegunWith seed g) (index : UInt64) :
    (g.startAt index).stream = .ofSeed (seedAt seed index) := by
  rw [Generation.startAt, begun.seed_eq]

/-- Generations that were begun with one seed have streams of different seeds at different indexes,
whatever they have made before.  At the first index it is that seed itself. -/
theorem startAt_seeds_apart (first : IsBegunWith seed g) (second : IsBegunWith seed h)
    (index other : UInt64) :
    (g.startAt index).stream = .ofSeed (seedAt seed index) ∧
      (h.startAt other).stream = .ofSeed (seedAt seed other) ∧
      (seedAt seed index = seedAt seed other ↔ index = other) ∧ seedAt seed 0 = seed :=
  ⟨first.stream_startAt index, second.stream_startAt other, (seedAt_injective seed).eq_iff,
    seedAt_zero seed⟩

/-- Half of all indexes behind the first one, the seed differs in its highest bit only. -/
theorem startAt_seeds_apart_half :
    let g : Generation := start ⟨"t", []⟩ 7
    let h := (g.startAt 5).next.2
    let half : UInt64 := 0x8000000000000000
    IsBegunWith 7 g ∧ IsBegunWith 7 h ∧ (g.startAt 0).stream = .ofSeed 7 ∧
      (h.startAt half).stream = .ofSeed 0x8000000000000007 ∧ seedAt 7 0 ≠ seedAt 7 half := by
  intro g h half
  have begun : IsBegunWith 7 g := .start _
  have moved : IsBegunWith 7 h := .next (.startAt begun 5)
  have seed : seedAt 7 half = 0x8000000000000007 := by decide
  obtain ⟨atFirst, atHalf, same, zero⟩ := startAt_seeds_apart begun moved 0 half
  rw [zero] at atFirst
  rw [seed] at atHalf
  exact ⟨begun, moved, atFirst, atHalf, mt same.mp (by decide)⟩

end Generation

end Reconcile
