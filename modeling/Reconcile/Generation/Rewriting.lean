import Reconcile.Generation.Pattern

/-!
# Rewriting in place

A pattern can also be filled without being taken apart: a placeholder is looked for in the whole
text, what is drawn for it is put into its range, and the search goes on.  Positions count octets.
-/

namespace Reconcile

namespace Text

/-- How many octets a text takes. -/
def octets (text : List Char) : Nat := (String.ofList text).utf8ByteSize

/-- Whether two positions enclose a part of a text: neither lies behind the end of the text or inside
a character. -/
structure IsRange (text : String) (first last : Nat) : Prop where
  ordered : first ≤ last
  isValid_first : String.Pos.Raw.IsValid text ⟨first⟩
  isValid_last : String.Pos.Raw.IsValid text ⟨last⟩

instance (text : String) (first last : Nat) : Decidable (IsRange text first last) :=
  decidable_of_iff
    (first ≤ last ∧ String.Pos.Raw.IsValid text ⟨first⟩ ∧ String.Pos.Raw.IsValid text ⟨last⟩)
    ⟨fun ⟨ordered, first, last⟩ => ⟨ordered, first, last⟩,
      fun ⟨ordered, first, last⟩ => ⟨ordered, first, last⟩⟩

/-- Positions that enclose no part of a text. -/
structure RangeFault where
  first : Nat
  last : Nat
deriving DecidableEq

/-- The part of a text between two positions. -/
def slice (text : String) (first last : Nat) : Except RangeFault String :=
  if IsRange text first last then .ok (String.Pos.Raw.extract text ⟨first⟩ ⟨last⟩)
  else .error ⟨first, last⟩

/-- A text with something else in place of a part of it. -/
def replaceRange (text : String) (first last : Nat) (filling : String) :
    Except RangeFault String := do
  let _ ← slice text first last
  return (← slice text 0 first) ++ filling ++ (← slice text last text.utf8ByteSize)

/-- Where a mark occurs first in a text. -/
def find? (mark : List Char) (text : String) : Option Nat :=
  (Pattern.split? mark text.toList).map fun (before, _) => octets before

end Text

namespace Pattern

open Text (RangeFault find? octets slice replaceRange)

/-- What random texts are drawn from: identifiers, and texts of a number of digits, which may be
more than can be drawn. -/
structure Randomness (σ : Type) where
  uuid : StateM σ Uuid
  digits : Nat → OptionT (StateM σ) (List Char)

def Randomness.keyStream : Randomness KeyStream := ⟨Draw.uuid, Draw.digits⟩

/-- Why rewriting stops before it has come to an end. -/
inductive Stop where
  | range (fault : RangeFault)
  /-- so many digits are not drawn -/
  | undrawn (count : Nat)
deriving DecidableEq

/-- A pattern that is being rewritten. -/
structure Rewriting (σ : Type) where
  text : String
  /-- where the search begins -/
  position : Nat
  source : σ

namespace Rewriting

variable {σ : Type}

/-- How many octets there are behind the position. -/
def behind (s : Rewriting σ) : Nat := s.text.utf8ByteSize - s.position

/-- An iteration that puts an identifier in place of the first placeholder of the text; nothing if
there is none. -/
def putUuid (randomness : Randomness σ) (s : Rewriting σ) :
    Except RangeFault (Option (Rewriting σ)) := do
  let some first := find? uuidMark s.text | return none
  let (uuid, source) := randomness.uuid.run s.source
  let text ← replaceRange s.text first (first + octets uuidMark) (String.ofList uuid.text)
  return some { s with text, source }

/-- The first placeholder of digits behind the position: where it begins, where its closing brace
stands, and what is between its mark and that brace.  None if there is none that is closed. -/
def placeholder? (s : Rewriting σ) : Except RangeFault (Option (Nat × Nat × String)) := do
  let unread ← slice s.text s.position s.text.utf8ByteSize
  let some offset := find? digitsMark unread | return none
  let first := s.position + offset
  let opened ← slice s.text first s.text.utf8ByteSize
  let some length := find? ['}'] opened | return none
  let last := first + length
  let inside ← slice s.text (first + octets digitsMark) last
  return some (first, last, inside)

/-- An iteration that puts digits in place of the first placeholder behind the position, or passes
over it if it names no number; nothing if there is none. -/
def putDigits (randomness : Randomness σ) (s : Rewriting σ) :
    Except Stop (Option (Rewriting σ)) := do
  let some (first, last, inside) ← s.placeholder?.mapError .range | return none
  match digitCount? inside.toList with
  | none => return some { s with position := last + 1 }
  | some count =>
      let (some digits, source) := (randomness.digits count).run.run s.source
        | throw (.undrawn count)
      let text ← (replaceRange s.text first (last + 1) (String.ofList digits)).mapError .range
      return some ⟨text, first + octets digits, source⟩

/-- A pattern with the index filled in, of which nothing else is yet. -/
def start (pattern : String) (index : UInt64) (source : σ) : Rewriting σ :=
  ⟨String.ofList (fillIndex index pattern.toList), 0, source⟩

theorem toList_text_start (pattern : String) (index : UInt64) (source : σ) :
    (start pattern index source).text.toList = fillIndex index pattern.toList :=
  String.toList_ofList

end Rewriting

/-- Whether a loop goes through some states, one after each of its iterations, and then ends or
stops. -/
inductive IsRun {ε α : Type} (iteration : α → Except ε (Option α)) :
    α → List α → Except ε Unit → Prop where
  | ended {s : α} (ends : iteration s = .ok none) : IsRun iteration s [] (.ok ())
  | stopped {s : α} {stop : ε} (stops : iteration s = .error stop) :
      IsRun iteration s [] (.error stop)
  | next {s t : α} {states : List α} {outcome : Except ε Unit} (goes : iteration s = .ok (some t))
      (others : IsRun iteration t states outcome) : IsRun iteration s (t :: states) outcome

/-- Whether rewriting goes through some states with identifiers to the end, and from the last of them
on through others with digits. -/
structure IsRewriting {σ : Type} (randomness : Randomness σ) (start : Rewriting σ)
    (uuids digits : List (Rewriting σ)) (outcome : Except Stop Unit) : Prop where
  uuids_run : IsRun (Rewriting.putUuid randomness) start uuids (.ok ())
  digits_run : IsRun (Rewriting.putDigits randomness) (uuids.getLastD start) digits outcome

end Pattern

end Reconcile
