import Reconcile.Fixture.Reading

/-!
# Lines of fixtures

A fixture is a sequence of octets cut into lines at line feeds.  Blank lines are passed over, and
what any other line gives, a record or a fault, depends on that line alone.
-/

namespace Reconcile

namespace Fixture

open Json (Fault)

def lineFeed : UInt8 := 10

/-- The octets before the first line feed. -/
def firstLine (octets : List UInt8) : List UInt8 := octets.takeWhile (· != lineFeed)

/-- The octets behind the first line feed. -/
def afterLine (octets : List UInt8) : List UInt8 := (octets.dropWhile (· != lineFeed)).drop 1

/-- The characters that octets encode. -/
def decode? (octets : List UInt8) : Option (List Char) :=
  (String.fromUTF8? ⟨octets.toArray⟩).map String.toList

/-- What a line gives: nothing if it is blank, else a record or a fault. -/
def readLine? (line : List UInt8) : Option (Except Fault Record) :=
  match decode? line with
  | none => some (.error .malformed)
  | some text =>
      let text := Text.trim text
      if text.isEmpty then none else some (recordOfText text)

theorem afterLine_shorter {octets : List UInt8} (inside : octets ≠ []) :
    (afterLine octets).length < octets.length := by
  unfold afterLine
  rw [List.length_drop]
  have := (List.dropWhile_sublist (· != lineFeed) (l := octets)).length_le
  have := List.length_pos_iff.2 inside
  omega

/-- What the next line that is not blank gives, with the octets behind it; none at the end. -/
def next? (octets : List UInt8) : Option (Except Fault Record × List UInt8) :=
  if inside : octets = [] then none
  else
    have := afterLine_shorter inside
    match readLine? (firstLine octets) with
    | some result => some (result, afterLine octets)
    | none => next? (afterLine octets)
termination_by octets.length

theorem next?_shorter {octets rest : List UInt8} {result : Except Fault Record}
    (next : next? octets = some (result, rest)) : rest.length < octets.length := by
  fun_induction next? octets with
  | case1 => cases next
  | case2 octets inside shorter =>
      cases next
      exact shorter
  | case3 octets inside shorter blank ih => exact Nat.lt_trans (ih next) shorter

/-- The lines of a fixture; what follows the last line feed is a line if it is not empty. -/
def lines (octets : List UInt8) : List (List UInt8) :=
  if inside : octets = [] then []
  else
    have := afterLine_shorter inside
    firstLine octets :: lines (afterLine octets)
termination_by octets.length

/-- What all lines give, in order. -/
def read (octets : List UInt8) : List (Except Fault Record) := (lines octets).filterMap readLine?

theorem lines_nil : lines [] = [] := by
  unfold lines
  rfl

theorem lines_of_ne_nil {octets : List UInt8} (inside : octets ≠ []) :
    lines octets = firstLine octets :: lines (afterLine octets) := by
  conv => lhs; unfold lines
  exact dif_neg inside

theorem read_of_some {octets : List UInt8} {result : Except Fault Record} (inside : octets ≠ [])
    (given : readLine? (firstLine octets) = some result) :
    read octets = result :: read (afterLine octets) := by
  simp [read, lines_of_ne_nil inside, given]

theorem read_of_none {octets : List UInt8} (inside : octets ≠ [])
    (blank : readLine? (firstLine octets) = none) : read octets = read (afterLine octets) := by
  simp [read, lines_of_ne_nil inside, blank]

/-- Taking results one after another gives what the lines give, in order, and then the end. -/
theorem next?_eq (octets : List UInt8) :
    (next? octets).map (fun (result, rest) => result :: read rest) =
      if (read octets).isEmpty then none else some (read octets) := by
  fun_induction next? octets with
  | case1 => simp [read, lines_nil]
  | case2 octets inside _ result given => simp [read_of_some inside given]
  | case3 octets inside _ blank ih => rw [ih, read_of_none inside blank]

end Fixture

end Reconcile
