import Reconcile.Comparison
import Reconcile.Failure
import Reconcile.Preview
import Reconcile.Report

/-!
# Grouped comparison

Two sorted feeds are compared group by group: the records of one key on one side with those of
the same key on the other.  The first group that does not match ends the comparison.  Each side
is read one record ahead, so that the end of a group is seen.
-/

namespace Reconcile

namespace Grouped

/-- One side: the record read ahead, the feed behind it, and how many records were taken. -/
structure Side where
  held : Option Record
  rest : Feed
  taken : Nat

namespace Side

/-- Reads the first record of a feed. -/
def start : Feed → Except Failure Side
  | [] => .ok ⟨none, [], 0⟩
  | .ok r :: rest => .ok ⟨some r, rest, 0⟩
  | .error e :: _ => .error e

/-- How many items are still to come. -/
def size (s : Side) : Nat := s.held.toList.length + s.rest.length

/-- Takes the held record and reads the next. -/
def advance (s : Side) : Except Failure Side :=
  match s.rest with
  | [] => .ok ⟨none, [], s.taken + 1⟩
  | .ok r :: rest => .ok ⟨some r, rest, s.taken + 1⟩
  | .error e :: _ => .error e

/-- Takes the records in front that belong to a group. -/
def takeWhile (belongs : Record → Bool) :
    Option Record → Feed → Nat → Except Failure (List Record × Side)
  | none, rest, taken => .ok ([], ⟨none, rest, taken⟩)
  | some r, rest, taken =>
      if belongs r then
        match rest with
        | [] => .ok ([r], ⟨none, [], taken + 1⟩)
        | .error e :: _ => .error e
        | .ok next :: rest => do
            let (group, side) ← takeWhile belongs (some next) rest (taken + 1)
            return (r :: group, side)
      else .ok ([], ⟨some r, rest, taken⟩)

def takeGroup (s : Side) (belongs : Record → Bool) : Except Failure (List Record × Side) :=
  takeWhile belongs s.held s.rest s.taken

theorem size_advance {s after : Side} {r : Record} (held : s.held = some r)
    (advanced : s.advance = .ok after) : after.size < s.size := by
  unfold advance at advanced
  split at advanced <;> cases advanced <;> simp_all [size]

theorem size_takeWhile {belongs : Record → Bool} {held : Option Record} {rest : Feed}
    {taken : Nat} {group : List Record} {after : Side}
    (took : takeWhile belongs held rest taken = .ok (group, after)) :
    after.size ≤ held.toList.length + rest.length := by
  induction rest generalizing held taken group after with
  | nil =>
    cases held with
    | none => cases took; simp [size]
    | some r =>
      unfold takeWhile at took
      split at took
      · cases took
        simp [size]
      · cases took
        simp [size]
  | cons item rest ih =>
    cases held with
    | none => cases took; simp [size]
    | some r =>
      unfold takeWhile at took
      split at took
      · cases item with
        | error e => cases took
        | ok next =>
          cases inner : takeWhile belongs (some next) rest (taken + 1) with
          | error e => simp [inner, bind, Except.bind] at took
          | ok result =>
            obtain ⟨others, side⟩ := result
            simp only [inner, bind, Except.bind, pure, Except.pure, Except.ok.injEq,
              Prod.mk.injEq] at took
            have := ih inner
            rw [← took.2]
            simp only [Option.toList_some, List.length_cons, List.length_nil] at this ⊢
            omega
      · cases took
        simp [size]

theorem size_takeGroup {s after : Side} {belongs : Record → Bool} {group : List Record}
    (took : s.takeGroup belongs = .ok (group, after)) : after.size ≤ s.size :=
  size_takeWhile took

end Side

/-- The failure that what is left over of a group makes, if anything is. -/
def residueFailure (c : Comparison) (key : String) (position : Nat) (residue : Residue) :
    Option Failure :=
  match residue.expected, residue.actual with
  | [], [] => none
  | expected, [] =>
      some (.moreElementsExpected (some key) (Preview.message c.render expected))
  | [], actual => some (.lessElementsExpected (some key) (Preview.message c.render actual))
  | expected, actual =>
      some (.unmatchedValues key position (Preview.message c.render expected)
        (Preview.message c.render actual))

/-- Compares the group of a key; `held` is the actual record read ahead behind it. -/
def checkGroup (c : Comparison) (values : List Value) (position : Nat)
    (expected actual : List Record) (held : Option Record) : Except Failure Unit :=
  let key := Key.display values
  if actual.isEmpty then
    .error (.noValueForKey key position (Preview.message c.render expected)
      ((held.map c.render).getD "none"))
  else
    match residueFailure c key position (c.residue expected actual) with
    | some failure => .error failure
    | none => .ok ()

/-- Compares group after group, and counts them, until the expected side ends. -/
def checkGroups (c : Comparison) (groups : Nat) (expected actual : Side) :
    Except Failure (Nat × Side × Side) :=
  match held : expected.held with
  | none => .ok (groups, expected, actual)
  | some first =>
      let values := c.key.extract first
      match advanced : expected.advance with
      | .error e => .error e
      | .ok next =>
          match took : next.takeGroup fun r => c.key.belongs r values with
          | .error e => .error e
          | .ok (others, after) =>
              have : after.size < expected.size :=
                Nat.lt_of_le_of_lt (Side.size_takeGroup took) (Side.size_advance held advanced)
              match actual.takeGroup fun r => c.key.belongs r values with
              | .error e => .error e
              | .ok (group, actual) =>
                  match checkGroup c values expected.taken (first :: others) group actual.held with
                  | .error e => .error e
                  | .ok () => checkGroups c (groups + 1) after actual
termination_by expected.size

/-- Actual records behind the last group are too many. -/
def checkEnd (c : Comparison) (actual : Side) : Except Failure Unit :=
  match actual.held with
  | none => .ok ()
  | some r => do
      let others ← actual.rest.upTo Preview.limit
      .error (.lessElementsExpected none (Preview.message c.render (r :: others)))

end Grouped

/-- Compares two feeds that are sorted by key. -/
def Comparison.checkGrouped (c : Comparison) (expected actual : Feed) : Except Failure Report := do
  let expected ← Grouped.Side.start expected
  let actual ← Grouped.Side.start actual
  let (groups, expected, actual) ← Grouped.checkGroups c 0 expected actual
  Grouped.checkEnd c actual
  return ⟨groups, expected.taken, actual.taken, ⟨0⟩⟩

end Reconcile
