import Reconcile.Fixture.Lines
import Reconcile.Fixture.Writing

/-!
# Octets of written lines

The octets of a text decode to that text, and a text without line feeds that is written as a line
is read as that line.
-/

namespace Reconcile

namespace Fixture

/-! ## Octets of characters -/

theorem toList_loop (octets : ByteArray) (place : Nat) (before : List UInt8) :
    ByteArray.toList.loop octets place before =
      before.reverse ++ octets.data.toList.drop place := by
  fun_induction ByteArray.toList.loop octets place before with
  | case1 place before inside ih =>
      have bound : place < octets.data.size := inside
      have octet : octets.get! place = octets.data.toList[place] :=
        getElem!_pos octets.data place bound
      rw [ih, octet, List.drop_eq_getElem_cons (l := octets.data.toList) bound]
      simp
  | case2 place before outside =>
      have behind : octets.data.toList.length ≤ place := Nat.le_of_not_lt outside
      rw [List.drop_eq_nil_of_le behind, List.append_nil]

theorem toUTF8_ofList (text : List Char) :
    (String.ofList text).toUTF8.toList = text.flatMap String.utf8EncodeChar := by
  rw [ByteArray.toList, toList_loop, String.toUTF8, String.toByteArray_ofList]
  simp [List.utf8Encode]

/-- The octets of characters decode to these. -/
theorem decode?_flatMap (text : List Char) :
    decode? (text.flatMap String.utf8EncodeChar) = some text := by
  have same : ByteArray.mk (text.flatMap String.utf8EncodeChar).toArray =
      (String.ofList text).toByteArray := by
    rw [String.toByteArray_ofList]
    apply ByteArray.ext
    apply Array.ext'
    simp [List.utf8Encode]
  unfold decode? String.fromUTF8?
  rw [same, dif_pos (String.isValidUTF8 _)]
  exact congrArg some String.toList_ofList

/-- No other character has the octet of the line feed in it. -/
theorem lineFeed_notMem_utf8EncodeChar {c : Char} (other : c ≠ '\n') :
    lineFeed ∉ String.utf8EncodeChar c := by
  have code : c.val.toNat ≠ 10 := fun same => other (Char.ext (UInt32.toNat_inj.mp same))
  have differs {n : Nat} (small : n < 256) (notTen : n ≠ 10) : lineFeed ≠ UInt8.ofNat n := by
    intro same
    have value := congrArg UInt8.toNat same
    rw [UInt8.toNat_ofNat_of_lt' small] at value
    exact notTen value.symm
  unfold String.utf8EncodeChar
  simp only
  split
  · rw [List.mem_singleton]
    exact differs (by omega) code
  · split
    · simp only [List.mem_cons, List.not_mem_nil, or_false, not_or]
      exact ⟨differs (by omega) (by omega), differs (by omega) (by omega)⟩
    · split
      · simp only [List.mem_cons, List.not_mem_nil, or_false, not_or]
        exact ⟨differs (by omega) (by omega), differs (by omega) (by omega),
          differs (by omega) (by omega)⟩
      · simp only [List.mem_cons, List.not_mem_nil, or_false, not_or]
        exact ⟨differs (by omega) (by omega), differs (by omega) (by omega),
          differs (by omega) (by omega), differs (by omega) (by omega)⟩

theorem lineFeed_notMem_flatMap {text : List Char} (oneLine : '\n' ∉ text) :
    lineFeed ∉ text.flatMap String.utf8EncodeChar := by
  rw [List.mem_flatMap]
  rintro ⟨c, inText, inOctets⟩
  refine lineFeed_notMem_utf8EncodeChar ?_ inOctets
  rintro rfl
  exact oneLine inText

/-! ## Lines -/

theorem bne_lineFeed_of_mem {octets : List UInt8} (oneLine : lineFeed ∉ octets) :
    ∀ octet ∈ octets, (octet != lineFeed) = true := by
  intro octet member
  rw [bne_iff_ne]
  rintro rfl
  exact oneLine member

/-- Octets without a line feed in front of one are the first line. -/
theorem firstLine_append {octets : List UInt8} (oneLine : lineFeed ∉ octets) (rest : List UInt8) :
    firstLine (octets ++ lineFeed :: rest) = octets ∧
      afterLine (octets ++ lineFeed :: rest) = rest := by
  have all := bne_lineFeed_of_mem oneLine
  constructor
  · rw [firstLine, List.takeWhile_append_of_pos all, List.takeWhile_cons_of_neg (by simp),
      List.append_nil]
  · rw [afterLine, List.dropWhile_append_of_pos all, List.dropWhile_cons_of_neg (by simp)]
    rfl

theorem octets_line (text : List Char) (rest : List UInt8) :
    (String.ofList (text ++ ['\n'])).toUTF8.toList ++ rest =
      text.flatMap String.utf8EncodeChar ++ lineFeed :: rest := by
  rw [toUTF8_ofList, List.flatMap_append, List.append_assoc]
  rfl

/-- A text without blanks at its ends that is not empty gives the record that it spells. -/
theorem readLine?_text {text : List Char} (trimmed : Text.trim text = text)
    (nonempty : text ≠ []) :
    readLine? (text.flatMap String.utf8EncodeChar) = some (recordOfText text) := by
  rw [readLine?, decode?_flatMap]
  simp only [trimmed]
  rw [if_neg (by simp [nonempty])]

/-- A text without line feeds and without blanks at its ends that is not empty is read as the
record that it spells. -/
theorem read_line {text : List Char} (oneLine : '\n' ∉ text) (trimmed : Text.trim text = text)
    (nonempty : text ≠ []) (rest : List UInt8) :
    read ((String.ofList (text ++ ['\n'])).toUTF8.toList ++ rest) =
      recordOfText text :: read rest := by
  obtain ⟨first, after⟩ := firstLine_append (lineFeed_notMem_flatMap oneLine) rest
  have given := readLine?_text trimmed nonempty
  rw [← first] at given
  rw [octets_line, read_of_some (by simp) given, after]

/-- A line of nothing is passed over. -/
theorem read_cons_lineFeed (rest : List UInt8) : read (lineFeed :: rest) = read rest := by
  obtain ⟨first, after⟩ := firstLine_append List.not_mem_nil rest
  rw [List.nil_append] at first after
  have blank : readLine? (firstLine (lineFeed :: rest)) = none := by
    rw [first, readLine?, show decode? [] = some [] from decode?_flatMap []]
    rfl
  rw [read_of_none (List.cons_ne_nil _ _) blank, after]

end Fixture

end Reconcile
