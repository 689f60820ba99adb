import Reconcile.Generation.Basic

/-!
# Batches

Records of a generation are asked for one by one, or in batches.  A batch makes its records as they
are taken, and may be given up before all of them were.
-/

namespace Reconcile

namespace Generation

/-- How a request for a record ended, and the index of the record to come next. -/
structure Answer where
  result : Except Error Record
  index : UInt64

/-- So many records more of a generation. -/
structure Batch where
  generation : Generation
  remaining : UInt64

namespace Batch

/-- The next record of a batch, or the failure to make it; nothing once all were asked for. -/
def next? (b : Batch) : Option (Except Error Record) × Batch :=
  if b.remaining = 0 then (none, b)
  else
    let (result, g) := b.generation.next
    (some result, ⟨g, b.remaining - 1⟩)

/-- The answers to a number of requests, and the generation that the batch leaves. -/
def take : Batch → Nat → List Answer × Generation
  | b, 0 => ([], b.generation)
  | b, requests + 1 =>
      match b.next? with
      | (none, b) => b.take requests
      | (some result, b) =>
          let (answers, g) := b.take requests
          (⟨result, b.generation.index⟩ :: answers, g)

end Batch

/-- A way of asking for records. -/
inductive Call where
  /-- the next record -/
  | next
  /-- a batch of records, of which so many are requested -/
  | batch (count : UInt64) (requests : Nat)

/-- The answers to a call, and the generation after it. -/
def answer (g : Generation) : Call → List Answer × Generation
  | .next =>
      let (result, g) := g.next
      ([⟨result, g.index⟩], g)
  | .batch count requests => (Batch.mk g count).take requests

/-- The answers to calls one after another. -/
def answers : Generation → List Call → List Answer × Generation
  | g, [] => ([], g)
  | g, call :: calls =>
      let (first, g) := g.answer call
      let (others, g) := g.answers calls
      (first ++ others, g)

end Generation

end Reconcile
