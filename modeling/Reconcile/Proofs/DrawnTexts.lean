import Mathlib.Data.List.Forall2
import Mathlib.Data.Nat.Digits.Defs
import Reconcile.Proofs.DigitText
import Reconcile.Proofs.DrawnNumbers

/-!
# Drawn texts

Whatever the key stream holds, the text of a drawn identifier is that of a random one, and drawn
digits are as many as were asked for, the first of them not zero.
-/

namespace Reconcile

/-! ## Identifiers -/

namespace Uuid

/-- Whether a text is that of a random identifier: with the version four in front of the third group
and the standard variant in front of the fourth. -/
structure IsRandomText (text : List Char) : Prop where
  length_eq : text.length = 36
  version : text[14]? = some '4'
  variant : ∃ c ∈ ['8', '9', 'a', 'b'], text[19]? = some c
  grouped : ∃ u : Uuid, u.text = text

/-- Octets one after another are the digits of a number to the base 256. -/
theorem foldl_octets (octets : List UInt8) :
    octets.foldl (fun n octet => n * 256 + octet.toNat) 0 =
      Nat.ofDigits 256 (octets.map UInt8.toNat).reverse := by
  rw [Nat.ofDigits_eq_foldr, List.foldr_reverse, List.foldl_map]
  congr
  funext n octet
  rw [Nat.mul_comm, Nat.add_comm]
  rfl

/-- The upper half of an octet is a hexadecimal digit of the number. -/
theorem ofDigits_div_mod {digits : List Nat} (small : ∀ digit ∈ digits, digit < 256)
    {place digit : Nat} (there : digits[place]? = some digit) :
    Nat.ofDigits 256 digits / 16 ^ (2 * place + 1) % 16 = digit / 16 := by
  obtain ⟨inside, here⟩ := List.getElem?_eq_some_iff.mp there
  have bounded : digit < 256 := small digit (List.mem_of_getElem? there)
  rw [pow_succ, pow_mul, show (16 : Nat) ^ 2 = 256 from rfl, ← Nat.div_div_eq_div_mul,
    Nat.ofDigits_div_pow_eq_ofDigits_drop place (by decide) _ small,
    List.drop_eq_getElem_cons inside, here, Nat.ofDigits_cons]
  omega

/-- An octet at a place of a random identifier, with the mark of that place put in. -/
def marked (octet : UInt8) (place : Nat) : UInt8 :=
  if place = 6 then octet &&& 0x0f ||| 0x40
  else if place = 8 then octet &&& 0x3f ||| 0x80
  else octet

/-- The octets of a random identifier, as digits of which the first weighs least. -/
def markedDigits (octets : List UInt8) : List Nat :=
  ((octets.zipIdx.map fun (octet, place) => marked octet place).map UInt8.toNat).reverse

theorem lt_of_mem_markedDigits {octets : List UInt8} {digit : Nat}
    (member : digit ∈ markedDigits octets) : digit < 256 := by
  obtain ⟨octet, -, rfl⟩ := List.mem_map.mp (List.mem_reverse.mp member)
  exact octet.toNat_lt

theorem length_markedDigits (octets : List UInt8) :
    (markedDigits octets).length = octets.length := by
  simp [markedDigits]

theorem getElem?_markedDigits {octets : List UInt8} (sixteen : octets.length = 16) {place : Nat}
    (inside : place < 16) :
    (markedDigits octets)[15 - place]? = some (marked octets[place] place).toNat := by
  rw [markedDigits, List.getElem?_reverse (by simp; omega)]
  have there : octets[place]? = some octets[place] := List.getElem?_eq_getElem _
  simp [sixteen, there, show 15 - (15 - place) = place by omega]

theorem toNat_bits_ofRandomOctets {octets : List UInt8} (sixteen : octets.length = 16) :
    (ofRandomOctets octets).bits.toNat = Nat.ofDigits 256 (markedDigits octets) := by
  have small : ∀ digit ∈ markedDigits octets, digit < 256 := fun _ => lt_of_mem_markedDigits
  have bounded := Nat.ofDigits_lt_base_pow_length (b := 256) (by decide) small
  rw [length_markedDigits, sixteen] at bounded
  have number : ofRandomOctets octets = ⟨.ofNat 128 (Nat.ofDigits 256 (markedDigits octets))⟩ :=
    congrArg (fun n => mk (.ofNat 128 n)) (foldl_octets _)
  rw [number, BitVec.toNat_ofNat]
  exact Nat.mod_eq_of_lt bounded

/-- The first hexadecimal digit of the octet at a place. -/
theorem ofRandomOctets_div_mod {octets : List UInt8} (sixteen : octets.length = 16) {place : Nat}
    (inside : place < 16) :
    (ofRandomOctets octets).bits.toNat / 16 ^ (2 * (15 - place) + 1) % 16 =
      (marked octets[place] place).toNat / 16 := by
  rw [toNat_bits_ofRandomOctets sixteen]
  exact ofDigits_div_mod (fun _ => lt_of_mem_markedDigits) (getElem?_markedDigits sixteen inside)

theorem isRandomText_ofRandomOctets {octets : List UInt8} (sixteen : octets.length = 16) :
    IsRandomText (ofRandomOctets octets).text where
  length_eq := rfl
  version := by
    have shown (u : Uuid) :
        u.text[14]? = some (Nat.digitChar (u.bits.toNat / 16 ^ (2 * (15 - 6) + 1) % 16)) := rfl
    have four : ∀ octet : Fin 256, (marked (.ofFin octet) 6).toNat / 16 = 4 := by decide +kernel
    rw [shown, ofRandomOctets_div_mod sixteen (by decide)]
    exact congrArg (fun digit => some (Nat.digitChar digit)) (four octets[6].toFin)
  variant := by
    have shown (u : Uuid) :
        u.text[19]? = some (Nat.digitChar (u.bits.toNat / 16 ^ (2 * (15 - 8) + 1) % 16)) := rfl
    have standard : ∀ octet : Fin 256,
        Nat.digitChar ((marked (.ofFin octet) 8).toNat / 16) ∈ ['8', '9', 'a', 'b'] := by
      decide +kernel
    rw [shown, ofRandomOctets_div_mod sixteen (by decide)]
    exact ⟨_, standard octets[8].toFin, rfl⟩
  grouped := ⟨_, rfl⟩

theorem eq_hyphen_or_mem_digits {u : Uuid} {c : Char} (member : c ∈ u.text) :
    c = '-' ∨ c ∈ u.digits := by
  simp only [text, List.mem_append, List.mem_cons] at member
  rcases member with (((group | hyphen | group) | hyphen | group) | hyphen | group) | hyphen | group
  · exact .inr (List.mem_of_mem_take group)
  · exact .inl hyphen
  · exact .inr (List.mem_of_mem_drop (List.mem_of_mem_take group))
  · exact .inl hyphen
  · exact .inr (List.mem_of_mem_drop (List.mem_of_mem_take group))
  · exact .inl hyphen
  · exact .inr (List.mem_of_mem_drop (List.mem_of_mem_take group))
  · exact .inl hyphen
  · exact .inr (List.mem_of_mem_drop group)

/-- A character that is neither a hyphen nor a hexadecimal digit is in no identifier. -/
theorem not_mem_text {c : Char} (hyphen : c ≠ '-')
    (others : ∀ digit : Fin 16, Nat.digitChar digit ≠ c) (u : Uuid) : c ∉ u.text := by
  intro member
  rcases eq_hyphen_or_mem_digits member with same | digit
  · exact hyphen same
  · obtain ⟨place, -, shown⟩ := List.mem_map.mp digit
    exact others ⟨_, Nat.mod_lt _ (by decide)⟩ shown

theorem brace_not_mem_text (u : Uuid) : '{' ∉ u.text := not_mem_text (by decide) (by decide) u

end Uuid

namespace Draw

theorem isRandomText_uuid (stream : KeyStream) :
    Uuid.IsRandomText ((uuid.run stream).1).text :=
  Uuid.isRandomText_ofRandomOctets rfl

/-- What follows a draw matters for what may be drawn only. -/
theorem bind_congr_run {α β : Type} {draw : Draw α} {f g : α → Draw β}
    (same : ∀ stream, f (draw.run stream).1 = g (draw.run stream).1) : draw >>= f = draw >>= g :=
  funext fun stream => congrArg (fun next => next (draw.run stream).2) (same stream)

/-- Draws one after another: each result is drawn from some stream. -/
theorem forall₂_mapM {α β : Type} (draw : α → Draw β) (items : List α) (stream : KeyStream) :
    List.Forall₂ (fun item result => ∃ stream, ((draw item).run stream).1 = result) items
      ((items.mapM draw).run stream).1 := by
  induction items generalizing stream with
  | nil => exact .nil
  | cons item items ih =>
      rw [List.mapM_cons]
      exact .cons ⟨stream, rfl⟩ (ih _)

/-! ## Draws that may give nothing -/

/-- A draw that gives nothing ends what would follow. -/
theorem run_bind {α β : Type} (draw : OptionT Draw α) (next : α → OptionT Draw β)
    (stream : KeyStream) :
    (draw >>= next).run.run stream =
      match draw.run.run stream with
      | (none, left) => (none, left)
      | (some a, left) => (next a).run.run left := by
  rw [OptionT.run_bind, Option.elimM, StateT.run_bind]
  change ((draw.run.run stream).1.elim (pure none) fun a => (next a).run).run
    (draw.run.run stream).2 = _
  rcases draw.run.run stream with ⟨_ | a, left⟩ <;> rfl

theorem run_map {α β : Type} (f : α → β) (draw : OptionT Draw α) (stream : KeyStream) :
    (f <$> draw).run.run stream =
      ((draw.run.run stream).1.map f, (draw.run.run stream).2) := by
  rw [map_eq_pure_bind, run_bind]
  rcases draw.run.run stream with ⟨_ | a, left⟩ <;> rfl

theorem run_lift {α : Type} (draw : Draw α) (stream : KeyStream) :
    (OptionT.lift draw).run.run stream = (some (draw.run stream).1, (draw.run stream).2) := rfl

/-- What follows a draw that gives something matters for what may be drawn only. -/
theorem lift_bind_congr {α β : Type} {draw : Draw α} {f g : α → OptionT Draw β}
    (same : ∀ stream, f (draw.run stream).1 = g (draw.run stream).1) :
    OptionT.lift draw >>= f = OptionT.lift draw >>= g := by
  refine OptionT.ext (StateT.ext fun stream => ?_)
  rw [run_bind, run_bind, run_lift]
  simp only [same]

section

variable {α β : Type} {draw : α → OptionT Draw β} {items : List α}

theorem run_mapM_cons (draw : α → OptionT Draw β) (item : α) (items : List α)
    (stream : KeyStream) :
    ((item :: items).mapM draw).run.run stream =
      match (draw item).run.run stream with
      | (none, left) => (none, left)
      | (some first, left) => ((first :: ·) <$> items.mapM draw).run.run left := by
  rw [List.mapM_cons, run_bind]
  simp only [map_eq_pure_bind]

/-- If each draw gives something, whatever the stream, then so do all. -/
theorem exists_mapM {P : α → β → Prop} (each : ∀ item ∈ items, ∀ stream, ∃ result left,
      (draw item).run.run stream = (some result, left) ∧ P item result) (stream : KeyStream) :
    ∃ results left, (items.mapM draw).run.run stream = (some results, left) ∧
      List.Forall₂ P items results := by
  induction items generalizing stream with
  | nil => exact ⟨[], stream, rfl, .nil⟩
  | cons item items ih =>
      obtain ⟨here, others⟩ := List.forall_mem_cons.mp each
      obtain ⟨first, between, drawn, fits⟩ := here stream
      obtain ⟨results, left, drawnOthers, fitOthers⟩ := ih others between
      refine ⟨first :: results, left, ?_, .cons fits fitOthers⟩
      rw [run_mapM_cons, drawn]
      simp only [run_map, drawnOthers, Option.map_some]

/-- If some draw never gives anything, then all together give nothing. -/
theorem mapM_eq_none {item : α} (member : item ∈ items)
    (never : ∀ stream, ((draw item).run.run stream).1 = none) (stream : KeyStream) :
    ((items.mapM draw).run.run stream).1 = none := by
  induction items generalizing stream with
  | nil => cases member
  | cons first items ih =>
      rw [run_mapM_cons]
      rcases List.mem_cons.mp member with rfl | later
      · have nothing := never stream
        split
        · rfl
        · rename_i drawn
          rw [drawn] at nothing
          cases nothing
      · split
        · rfl
        · simp only [run_map, ih later, Option.map_none]

end

/-! ## Digits -/

theorem exists_digit {least : Nat} (small : least < 10) (stream : KeyStream) :
    ∃ value, least ≤ value ∧ value < 10 ∧ Nat.digitChar value = ((digit least).run stream).1 := by
  have inside := belowSmall_lt (show 0 < 10 - least by omega) stream
  refine ⟨least + ((belowSmall (10 - least)).run stream).1, Nat.le_add_right _ _, ?_, rfl⟩
  exact Nat.add_lt_of_lt_sub' inside

/-- Whether a text is a number of so many digits, written without a zero in front. -/
structure IsNumber (count : Nat) (text : List Char) : Prop where
  length_eq : text.length = count
  isDigit : ∀ c ∈ text, Text.isDigit c = true
  head_ne : text.head? ≠ some '0'

theorem isNumber_number (count : Nat) (stream : KeyStream) :
    IsNumber count ((number count).run stream).1 := by
  cases count with
  | zero => exact ⟨rfl, nofun, nofun⟩
  | succ count =>
      obtain ⟨value, positive, small, first⟩ := exists_digit (show 1 < 10 by decide) stream
      have others := forall₂_mapM (fun _ => digit 0) (List.replicate count ())
        ((digit 1).run stream).2
      have split : ((number (count + 1)).run stream).1 = ((digit 1).run stream).1 ::
        (((List.replicate count ()).mapM fun _ => digit 0).run ((digit 1).run stream).2).1 := rfl
      rw [split, ← first]
      refine ⟨?_, List.forall_mem_cons.mpr ⟨Text.isDigit_digitChar small, ?_⟩, ?_⟩
      · rw [List.length_cons, ← others.length_eq, List.length_replicate]
      · intro c member
        obtain ⟨place, inside, rfl⟩ := List.mem_iff_getElem.mp member
        obtain ⟨stream, drawn⟩ := others.get (others.length_eq ▸ inside) inside
        obtain ⟨value, -, small, shown⟩ := exists_digit (show 0 < 10 by decide) stream
        rw [List.get_eq_getElem] at drawn
        rw [← drawn, ← shown]
        exact Text.isDigit_digitChar small
      · intro zero
        have none_ := Nat.digitChar_eq_zero.mp (Option.some.inj zero)
        omega

theorem digits_of_le {count : Nat} (fits : count ≤ room) :
    digits count = OptionT.lift (number count) :=
  if_pos fits

theorem digits_of_lt {count : Nat} (excess : room < count) : digits count = failure :=
  if_neg (Nat.not_le.mpr excess)

/-- Where there is no room for digits, none are taken off the stream. -/
theorem eq_of_run_digits {count : Nat} {stream left : KeyStream}
    (undrawn : (digits count).run.run stream = (none, left)) : left = stream := by
  rcases Nat.lt_or_ge room count with excess | fits
  · rw [digits_of_lt excess] at undrawn
    exact (congrArg Prod.snd undrawn).symm
  · rw [digits_of_le fits, run_lift] at undrawn
    cases undrawn

end Draw

end Reconcile
