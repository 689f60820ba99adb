import Reconcile.Binary64.Arithmetic
import Reconcile.Text.Digits

/-!
# Reports

What a successful comparison counted, and how long it took.
-/

namespace Reconcile

/-- A span of time in nanoseconds. -/
structure Duration where
  nanos : Nat
deriving DecidableEq, Repr

namespace Duration

instance : Add Duration := ⟨fun a b => ⟨a.nanos + b.nanos⟩⟩

/-- The whole seconds and the rest of a span, each rounded, then their sum. -/
def seconds (d : Duration) : Binary64 :=
  .ofNat (d.nanos / 1000000000) + .ofNat (d.nanos % 1000000000) / .ofNat 1000000000

/-- A number of units with up to `places` decimals, without trailing zeros. -/
def decimalText (nanos places : Nat) : List Char :=
  let fraction := Text.padded places (nanos % 10 ^ places)
  let fraction := (fraction.reverse.dropWhile (· == '0')).reverse
  let whole := Text.decimal (nanos / 10 ^ places)
  if places = 0 ∨ fraction.isEmpty then whole else whole ++ '.' :: fraction

/-- A span in the largest unit of which it has at least one. -/
def display (d : Duration) : String :=
  if 1000000000 ≤ d.nanos then String.ofList (decimalText d.nanos 9) ++ "s"
  else if 1000000 ≤ d.nanos then String.ofList (decimalText d.nanos 6) ++ "ms"
  else if 1000 ≤ d.nanos then String.ofList (decimalText d.nanos 3) ++ "µs"
  else String.ofList (decimalText d.nanos 0) ++ "ns"

example : (Duration.mk 1500).display = "1.5µs" ∧ (Duration.mk 2000000000).display = "2s" := by
  decide +kernel

end Duration

structure Report where
  groups : Nat
  expected : Nat
  actual : Nat
  duration : Duration
deriving DecidableEq, Repr

namespace Report

def empty : Report := ⟨0, 0, 0, ⟨0⟩⟩

/-- Both reports in one. -/
def absorb (r other : Report) : Report :=
  ⟨r.groups + other.groups, r.expected + other.expected, r.actual + other.actual,
    r.duration + other.duration⟩

/-- Expected records for each second; zero if no time has passed. -/
def recordsPerSecond (r : Report) : Binary64 :=
  if Binary64.zero.lt r.duration.seconds then .ofNat r.expected / r.duration.seconds else .zero

def summary (r : Report) : String :=
  let count (n : Nat) : String := String.ofList (Text.decimal n)
  "Verification PASSED: " ++ count r.expected ++ " expected and " ++ count r.actual ++
    " actual records in " ++ count r.groups ++ " key groups (" ++ r.duration.display ++ ")"

end Report

end Reconcile
