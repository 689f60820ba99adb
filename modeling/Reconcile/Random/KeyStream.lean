/-!
# Key streams

The source of all randomness: the key stream of a block cipher of additions, rotations and
exclusive ors, in twelve rounds.  A seed determines the key, and the key all words that follow.
-/

namespace Reconcile

/-- Sixteen words that the rounds mix. -/
abbrev Block := Vector UInt32 16

namespace Block

def rotateLeft (x : UInt32) (n : UInt32) : UInt32 := (x <<< n) ||| (x >>> (32 - n))

/-- Adds the word at `b` to the one at `a`, and mixes the sum into the one at `d`. -/
def stir (s : Block) (a b d : Fin 16) (rotation : UInt32) : Block :=
  let sum := s[a] + s[b]
  (s.set a sum).set d (rotateLeft (s[d] ^^^ sum) rotation)

def quarterRound (s : Block) (a b c d : Fin 16) : Block :=
  (((s.stir a b d 16).stir c d b 12).stir a b d 8).stir c d b 7

/-- A round on the columns of the square of words and one on its diagonals. -/
def doubleRound (s : Block) : Block :=
  let s := ((((s.quarterRound 0 4 8 12).quarterRound 1 5 9 13).quarterRound 2 6 10 14).quarterRound
    3 7 11 15)
  (((s.quarterRound 0 5 10 15).quarterRound 1 6 11 12).quarterRound 2 7 8 13).quarterRound 3 4 9 14

/-- Twelve rounds, and the block from before added. -/
def scramble (s : Block) : Block :=
  let mixed := (List.range 6).foldl (fun s _ => s.doubleRound) s
  Vector.zipWith (· + ·) mixed s

end Block

/-- The words of a key stream from some place on. -/
structure KeyStream where
  key : Vector UInt32 8
  /-- the number of the next block -/
  counter : UInt64
  /-- what has not been taken of the block before -/
  ready : List UInt32

namespace KeyStream

/-- The block of a number. -/
def block (key : Vector UInt32 8) (counter : UInt64) : Block :=
  Block.scramble #v[0x61707865, 0x3320646e, 0x79622d32, 0x6b206574,
    key[0], key[1], key[2], key[3], key[4], key[5], key[6], key[7],
    counter.toUInt32, (counter >>> 32).toUInt32, 0, 0]

/-- One step of the generator that stretches a seed. -/
def stretch (state : UInt64) : UInt64 := state * 6364136223846793005 + 11634580027462260723

/-- The word of a state of that generator: the high bits folded, then rotated. -/
def stretchedWord (state : UInt64) : UInt32 :=
  let x := (((state >>> 18) ^^^ state) >>> 27).toUInt32
  let n := (state >>> 59).toUInt32
  (x >>> n) ||| (x <<< ((32 - n) % 32))

/-- The states after one, two and so on steps. -/
def states (seed : UInt64) : Nat → List UInt64
  | 0 => []
  | n + 1 => stretch seed :: states (stretch seed) n

theorem length_states (seed : UInt64) (n : Nat) : (states seed n).length = n := by
  induction n generalizing seed with
  | zero => rfl
  | succ n ih => simp only [states, List.length_cons, ih]

def ofSeed (seed : UInt64) : KeyStream where
  key := ⟨((states seed 8).map stretchedWord).toArray, by simp [length_states]⟩
  counter := 0
  ready := []

/-- The next word. -/
def next (k : KeyStream) : UInt32 × KeyStream :=
  match k.ready with
  | word :: ready => (word, { k with ready := ready })
  | [] =>
      let words := block k.key k.counter
      (words[0], { k with counter := k.counter + 1, ready := words.toList.drop 1 })

end KeyStream

end Reconcile
