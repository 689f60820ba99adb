import Reconcile.Random.Draw
import Reconcile.Text.Digits

/-!
# Patterns

A pattern is a text with placeholders for the index of the record, for identifiers and for random
digits.  They are filled kind after kind, each kind from left to right.
-/

namespace Reconcile

namespace Pattern

/-- The text before and behind the first occurrence of `mark`. -/
def split? (mark : List Char) : List Char → Option (List Char × List Char)
  | [] => if mark.isEmpty then some ([], []) else none
  | c :: text =>
      if mark.isPrefixOf (c :: text) then some ([], (c :: text).drop mark.length)
      else (split? mark text).map fun (before, behind) => (c :: before, behind)

theorem split?_length {mark text before behind : List Char}
    (found : split? mark text = some (before, behind)) :
    before.length + mark.length + behind.length = text.length := by
  induction text generalizing before behind with
  | nil =>
    unfold split? at found
    split at found
    · cases found
      rename_i empty
      simp [List.isEmpty_iff.mp empty]
    · cases found
  | cons c text ih =>
    unfold split? at found
    split at found
    · rename_i starts
      cases found
      have := (List.isPrefixOf_iff_prefix.mp starts).length_le
      simp only [List.length_nil, List.length_drop]
      omega
    · simp only [Option.map_eq_some_iff, Prod.mk.injEq] at found
      obtain ⟨⟨inner, rest⟩, found, rfl, rfl⟩ := found
      have := ih found
      simp only [List.length_cons]
      omega

theorem split?_shorter {mark text before behind : List Char} (marked : mark ≠ [])
    (found : split? mark text = some (before, behind)) : behind.length < text.length := by
  have := split?_length found
  have := List.length_pos_iff.mpr marked
  omega

def indexMark : List Char := "\x7bindex\x7d".toList

def uuidMark : List Char := "\x7buuid\x7d".toList

def digitsMark : List Char := "\x7brand:".toList

/-- Fills in the index. -/
def fillIndex (index : UInt64) (text : List Char) : List Char :=
  match found : split? indexMark text with
  | none => text
  | some (before, behind) =>
      have : behind.length < text.length := split?_shorter (by decide) found
      before ++ Text.decimal index.toNat ++ fillIndex index behind
termination_by text.length

/-- Fills in identifiers. -/
def fillUuids (text : List Char) : Draw (List Char) :=
  match found : split? uuidMark text with
  | none => return text
  | some (before, behind) =>
      have : behind.length < text.length := split?_shorter (by decide) found
      do
        let uuid ← Draw.uuid
        return before ++ uuid.text ++ (← fillUuids behind)
termination_by text.length

/-- The number of digits that a placeholder asks for, if it is one; a plus sign may precede it. -/
def digitCount? (text : List Char) : Option Nat :=
  let digits :=
    match text with
    | '+' :: digits => digits
    | digits => digits
  (Text.natOfText? 10 digits).filter fun n => n < 2 ^ 64

/-- Fills in random digits.  A placeholder that names no number is left as it is; one for which there
is no room leaves no text. -/
def fillDigits (text : List Char) : OptionT Draw (List Char) :=
  match found : split? digitsMark text with
  | none => return text
  | some (before, behind) =>
      match closed : split? ['}'] behind with
      | none => return text
      | some (inside, rest) =>
          have : rest.length < text.length :=
            Nat.lt_trans (split?_shorter (by decide) closed) (split?_shorter (by decide) found)
          do
            let filling ←
              match digitCount? inside with
              | some n => Draw.digits n
              | none => pure (digitsMark ++ inside ++ ['}'])
            return before ++ filling ++ (← fillDigits rest)
termination_by text.length

/-- The text of a pattern for a record, if there is room for its digits. -/
def fill (pattern : String) (index : UInt64) : OptionT Draw String := do
  let text ← fillUuids (fillIndex index pattern.toList)
  return String.ofList (← fillDigits text)

end Pattern

end Reconcile
