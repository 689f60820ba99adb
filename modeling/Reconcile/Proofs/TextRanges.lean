import Mathlib.Data.String.Basic
import Reconcile.Generation.Rewriting

/-!
# Ranges of texts

The octets in front of a part of a text, and those up to its end, enclose just that part: no such
range is a fault.
-/

namespace Reconcile

namespace Text

theorem octets_append (front back : List Char) :
    octets (front ++ back) = octets front + octets back := by
  rw [octets, octets, octets, String.ofList_append, String.utf8ByteSize_append]

theorem find?_ofList (mark text : List Char) :
    find? mark (.ofList text) = (Pattern.split? mark text).map fun parts => octets parts.1 := by
  rw [find?, String.toList_ofList]

variable (front between back : List Char)

theorem isValid_octets :
    String.Pos.Raw.IsValid (.ofList (front ++ back)) ⟨octets front⟩ := by
  rw [String.Pos.Raw.isValid_iff_exists_append]
  exact ⟨.ofList front, .ofList back, String.ofList_append, rfl⟩

theorem isRange_octets :
    IsRange (.ofList (front ++ between ++ back)) (octets front) (octets (front ++ between)) where
  ordered := by
    rw [octets_append]
    exact Nat.le_add_right _ _
  isValid_first := by
    rw [List.append_assoc]
    exact isValid_octets front (between ++ back)
  isValid_last := isValid_octets (front ++ between) back

theorem slice_octets :
    slice (.ofList (front ++ between ++ back)) (octets front) (octets (front ++ between)) =
      .ok (.ofList between) := by
  have size (text : List Char) : octets text = String.utf8Len text :=
    String.utf8ByteSize_ofList text
  rw [slice, if_pos (isRange_octets front between back), octets_append, size, size,
    String.extract_of_valid]

/-- The part of a text from a position on. -/
theorem slice_behind :
    slice (.ofList (front ++ back)) (octets front) (String.ofList (front ++ back)).utf8ByteSize =
      .ok (.ofList back) := by
  have whole := slice_octets front back []
  rwa [List.append_nil] at whole

theorem replaceRange_octets (filling : List Char) :
    replaceRange (.ofList (front ++ between ++ back)) (octets front) (octets (front ++ between))
      (.ofList filling) = .ok (.ofList (front ++ filling ++ back)) := by
  have before := slice_octets [] front (between ++ back)
  rw [List.nil_append, ← List.append_assoc, show octets [] = 0 from rfl] at before
  rw [replaceRange, slice_octets, before, slice_behind, String.ofList_append, String.ofList_append]
  rfl

end Text

end Reconcile
