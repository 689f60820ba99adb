import Reconcile.Random.Draw

/-!
# Drawn numbers

Whatever the key stream holds, a number that is drawn from a range lies in it.
-/

namespace Reconcile

namespace Draw

/-- Scaling numbers below a modulus to a range gives numbers of the range; if every attempt is
passed over, zero is one of them. -/
theorem scaled_lt {modulus range : Nat} (zone : Nat) {draw : Draw Nat} (positive : 0 < range)
    (small : ∀ stream, (draw.run stream).1 < modulus) (attempts : Nat) (stream : KeyStream) :
    ((scaled modulus range zone draw attempts).run stream).1 < range := by
  induction attempts generalizing stream with
  | zero => exact positive
  | succ attempts ih =>
      rw [scaled, StateT.run_bind]
      change (StateT.run (if (draw.run stream).1 * range % modulus ≤ zone then
          (pure ((draw.run stream).1 * range / modulus) : Draw Nat)
        else scaled modulus range zone draw attempts) (draw.run stream).2).1 < range
      split
      · apply Nat.div_lt_of_lt_mul
        exact Nat.mul_lt_mul_of_pos_right (small stream) positive
      · exact ih _

theorem below_lt {range : Nat} (positive : 0 < range) (stream : KeyStream) :
    ((below range).run stream).1 < range := by
  have small (stream : KeyStream) :
      (StateT.run (do return (← long).toNat : Draw Nat) stream).1 < 2 ^ 64 :=
    (StateT.run long stream).1.toNat_lt
  unfold below
  split
  · rename_i whole
    rw [whole]
    exact small stream
  · exact scaled_lt _ positive small attempts stream

theorem belowSmall_lt {range : Nat} (positive : 0 < range) (stream : KeyStream) :
    ((belowSmall range).run stream).1 < range :=
  scaled_lt _ positive (fun stream => (word.run stream).1.toNat_lt) attempts stream

theorem integer_mem {least greatest : Int} (ordered : least ≤ greatest) (stream : KeyStream) :
    least ≤ ((integer least greatest).run stream).1 ∧
      ((integer least greatest).run stream).1 ≤ greatest := by
  have some_ : 0 < (greatest - least + 1).toNat := by omega
  have inside := below_lt some_ stream
  change least ≤ least + ((below (greatest - least + 1).toNat).run stream).1 ∧
    least + ((below (greatest - least + 1).toNat).run stream).1 ≤ greatest
  omega

end Draw

end Reconcile
