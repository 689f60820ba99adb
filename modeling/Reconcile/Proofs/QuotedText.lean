import Reconcile.Json.Quoted
import Reconcile.Proofs.DigitText

/-!
# Quoted strings

Reading what was written between quotes gives the string back, whatever follows, and no line of
text is broken by it.
-/

namespace Reconcile

namespace Json

/-- How a character is written: by a short escape, by its code, or as it is. -/
theorem escape_cases (c : Char) :
    (∃ letter, (letter, c) ∈ shortEscapes ∧ escape c = ['\\', letter]) ∨
      (c.toNat < 0x20 ∧
        escape c = '\\' :: 'u' :: '0' :: '0' :: Text.hexByte (UInt8.ofNat c.toNat)) ∨
      (c ≠ '"' ∧ c ≠ '\\' ∧ ¬ c.toNat < 0x20 ∧ escape c = [c]) := by
  unfold escape
  generalize found : shortEscapes.find? _ = result
  cases result with
  | some pair =>
      obtain ⟨letter, meaning⟩ := pair
      obtain rfl : meaning = c := by simpa using List.find?_some found
      exact Or.inl ⟨letter, List.mem_of_find?_eq_some found, rfl⟩
  | none =>
      have noneShort := List.find?_eq_none.mp found
      have notQuote : c ≠ '"' := by
        rintro rfl
        exact noneShort ('"', '"') (by decide) rfl
      have notBackslash : c ≠ '\\' := by
        rintro rfl
        exact noneShort ('\\', '\\') (by decide) rfl
      by_cases control : c.toNat < 0x20
      · exact Or.inr (Or.inl ⟨control, if_pos control⟩)
      · exact Or.inr (Or.inr ⟨notQuote, notBackslash, control, if_neg control⟩)

/-- A short escape reads back. -/
theorem readEscape_short {letter c : Char} (known : (letter, c) ∈ shortEscapes)
    (rest : List Char) : readEscape (letter :: rest) = .ok (c, rest) := by
  have all : ∀ pair ∈ shortEscapes, pair.1 ≠ 'u' ∧ shortEscape? pair.1 = some pair.2 := by decide
  obtain ⟨notCode, meaning⟩ := all _ known
  rw [readEscape, if_neg notCode, meaning]

/-- The code of a control character reads back. -/
theorem readEscape_code {c : Char} (control : c.toNat < 0x20) (rest : List Char) :
    readEscape ('u' :: '0' :: '0' :: (Text.hexByte (UInt8.ofNat c.toNat) ++ rest)) =
      .ok (c, rest) := by
  have all : ∀ code : Fin 0x20, Text.natOfText? 16
      ('0' :: '0' :: Text.hexByte (UInt8.ofNat code)) = some code.val := by decide
  have read : hexDigits ('0' :: '0' :: (Text.hexByte (UInt8.ofNat c.toNat) ++ rest)) =
      .ok (c.toNat, rest) := by
    have code := all ⟨c.toNat, control⟩
    simp only [Text.hexByte] at code ⊢
    simp only [List.cons_append, List.nil_append, hexDigits, code]
  rw [readEscape, if_pos rfl, codeEscape, read]
  change (if 0xdc00 ≤ c.toNat ∧ c.toNat ≤ 0xdfff then _ else _) = _
  rw [if_neg (by omega), if_neg (by omega), Char.ofNat_toNat]

/-- One written character is read, and then the rest. -/
theorem readString_escape (c : Char) {text rest read : List Char}
    (more : readString text = .ok (read, rest)) :
    readString (escape c ++ text) = .ok (c :: read, rest) := by
  rcases escape_cases c with ⟨letter, known, written⟩ | ⟨control, written⟩ |
    ⟨notQuote, notBackslash, seen, written⟩
  · rw [written, List.cons_append, List.cons_append, List.nil_append, readString]
    simp only [show '\\' ≠ '"' by decide, if_false, if_true]
    split
    · rename_i fault failed
      rw [readEscape_short known] at failed
      cases failed
    · rename_i first after escaped
      rw [readEscape_short known] at escaped
      cases escaped
      rw [more]
  · rw [written, List.cons_append, List.cons_append, List.cons_append, List.cons_append, readString]
    simp only [show '\\' ≠ '"' by decide, if_false, if_true]
    split
    · rename_i fault failed
      rw [readEscape_code control] at failed
      cases failed
    · rename_i first after escaped
      rw [readEscape_code control] at escaped
      cases escaped
      rw [more]
  · rw [written, List.cons_append, List.nil_append, readString]
    simp only [if_neg notQuote, if_neg notBackslash, if_neg seen, more]

/-- A written string reads back up to its closing quote. -/
theorem readString_flatMap_escape (text rest : List Char) :
    readString (text.flatMap escape ++ '"' :: rest) = .ok (text, rest) := by
  induction text with
  | nil =>
      rw [List.flatMap_nil, List.nil_append, readString]
      rfl
  | cons c text ih =>
      rw [List.flatMap_cons, List.append_assoc]
      exact readString_escape c ih

theorem quote_append (text rest : List Char) :
    quote text ++ rest = '"' :: (text.flatMap escape ++ '"' :: rest) := by
  simp [quote]

/-- Quoting hides line feeds. -/
theorem lineFeed_notMem_quote (text : List Char) : '\n' ∉ quote text := by
  have hidden (c : Char) : '\n' ∉ escape c := by
    rcases escape_cases c with ⟨letter, known, written⟩ | ⟨control, written⟩ |
      ⟨-, -, seen, written⟩
    · have all : ∀ pair ∈ shortEscapes, '\n' ≠ pair.1 := by decide
      rw [written]
      simp [all _ known]
    · have all : ∀ code : Fin 0x20, '\n' ∉ Text.hexByte (UInt8.ofNat code) := by decide
      rw [written]
      simp [all ⟨c.toNat, control⟩]
    · rw [written, List.mem_singleton]
      rintro rfl
      exact seen (by decide)
  simp only [quote, List.cons_append, List.mem_cons, List.mem_append, List.mem_flatMap]
  rintro (impossible | ⟨c, -, inEscape⟩ | impossible)
  · cases impossible
  · exact hidden c inEscape
  · simp at impossible

end Json

end Reconcile
