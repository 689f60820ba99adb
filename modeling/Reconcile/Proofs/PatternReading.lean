import Reconcile.Proofs.DrawnTexts
import Reconcile.Proofs.ListPasses
import Reconcile.Proofs.Placeholders

/-!
# Reading a pattern

A pattern is filled in three passes, each over the text that the one before left.  If no brace is
opened between an opening brace and the closing one that follows, then what is filled in is nothing
that a later pass looks for, and the passes come to one reading of the pattern from left to right.
-/

namespace Reconcile

namespace Pattern

/-! ## Reading -/

/-- Whether no brace is opened between an opening brace and the closing one that follows. -/
def IsFlat (text : List Char) : Prop :=
  ∀ behind, '{' :: behind <:+ text → '}' ∈ behind → '{' ∉ behind.takeWhile (· ≠ '}')

theorem isFlat_iff {text : List Char} :
    IsFlat text ↔ ∀ rest ∈ text.tails, rest.head? = some '{' → '}' ∈ rest.tail →
      '{' ∉ rest.tail.takeWhile (· ≠ '}') := by
  simp only [IsFlat, List.mem_tails]
  constructor
  · intro flat rest suffix opens
    obtain ⟨behind, rfl⟩ := List.head?_eq_some_iff.mp opens
    exact flat behind suffix
  · exact fun flat behind suffix => flat _ suffix rfl

instance (text : List Char) : Decidable (IsFlat text) := decidable_of_iff' _ isFlat_iff

/-- A piece of a pattern: a text that stays as it is, or a name in braces. -/
inductive Piece where
  | kept (text : List Char)
  | braced (name : List Char)
deriving DecidableEq

/-- A piece as it stands in the text. -/
def Piece.text : Piece → List Char
  | .kept text => text
  | .braced name => '{' :: name ++ ['}']

/-- The pieces of a text, read from left to right. -/
def pieces (text : List Char) : List Piece :=
  match text with
  | [] => []
  | c :: text =>
      if c = '{' then
        match found : split? ['}'] text with
        | none => [.kept (c :: text)]
        | some (name, behind) =>
            have : behind.length < text.length := split?_shorter (by decide) found
            .braced name :: pieces behind
      else .kept [c] :: pieces text
termination_by text.length

/-- How many digits a name asks for, if it asks for digits. -/
def asked? (name : List Char) : Option Nat :=
  if "rand:".toList <+: name then digitCount? (name.drop 5) else none

/-- A piece with the index filled in. -/
def numbered (index : UInt64) : Piece → Piece
  | .kept text => .kept text
  | .braced name =>
      if name = "index".toList then .kept (Text.decimal index.toNat) else .braced name

/-- A piece with an identifier drawn. -/
def identified : Piece → Draw Piece
  | .kept text => return .kept text
  | .braced name =>
      if name = "uuid".toList then return .kept (← Draw.uuid).text else return .braced name

/-- How many digits a piece asks for, if it does. -/
def Piece.count? : Piece → Option Nat
  | .kept _ => none
  | .braced name => asked? name

/-- A piece with digits drawn. -/
def randomised (piece : Piece) : OptionT Draw Piece :=
  match piece.count? with
  | some count => return .kept (← Draw.digits count)
  | none => return piece

/-- Whether no piece asks for more digits than a text has room for. -/
def HasRoom (pieces : List Piece) : Prop :=
  ∀ piece ∈ pieces, ∀ count ∈ piece.count?, count ≤ Draw.room

/-- What may stand for a piece in the end. -/
def IsFilling (index : UInt64) (piece : Piece) (text : List Char) : Prop :=
  match piece with
  | .kept kept => text = kept
  | .braced name =>
      if name = "index".toList then text = Text.decimal index.toNat
      else if name = "uuid".toList then Uuid.IsRandomText text
      else
        match asked? name with
        | some count => Draw.IsNumber count text
        | none => text = piece.text

/-! ## Pieces of flat texts -/

theorem flatMap_text_pieces (text : List Char) : (pieces text).flatMap Piece.text = text := by
  fun_induction pieces text with
  | case1 => rfl
  | case2 text found => exact List.append_nil _
  | case3 text name behind found shorter ih =>
      rw [List.flatMap_cons, ih, eq_of_split? found]
      simp [Piece.text]
  | case4 c text other ih => rw [List.flatMap_cons, ih, Piece.text, List.singleton_append]

theorem IsFlat.of_suffix {text behind : List Char} (flat : IsFlat text) (suffix : behind <:+ text) :
    IsFlat behind :=
  fun rest inside => flat rest (inside.trans suffix)

/-- Pieces among which no brace is opened in a name, nor in a text that stays, unless nothing is
closed behind it. -/
inductive IsOrderly : List Piece → Prop where
  | nil : IsOrderly []
  | unclosed {text : List Char} (open_ : '}' ∉ text) : IsOrderly [.kept text]
  | kept {text : List Char} {rest : List Piece} (plain : '{' ∉ text) (orderly : IsOrderly rest) :
      IsOrderly (.kept text :: rest)
  | braced {name : List Char} {rest : List Piece} (unopened : '{' ∉ name) (unclosed : '}' ∉ name)
      (orderly : IsOrderly rest) : IsOrderly (.braced name :: rest)

theorem isOrderly_pieces {text : List Char} (flat : IsFlat text) : IsOrderly (pieces text) := by
  fun_induction pieces text with
  | case1 => exact .nil
  | case2 text found =>
      have absent : '}' ∉ text := by
        rwa [split?_eq_none_iff, List.singleton_infix_iff] at found
      exact .unclosed (List.not_mem_cons_of_ne_of_not_mem (by decide) absent)
  | case3 text name behind found shorter ih =>
      have unclosed := not_mem_of_split?_singleton found
      obtain rfl : text = name ++ '}' :: behind := by
        rw [eq_of_split? found, List.append_assoc, List.singleton_append]
      have before : (name ++ '}' :: behind).takeWhile (· ≠ '}') = name := by
        have others : ∀ c ∈ name, decide (c ≠ '}') = true := fun c member =>
          decide_eq_true fun same => unclosed (same ▸ member)
        rw [List.takeWhile_append_of_pos others]
        simp
      have unopened := flat (name ++ '}' :: behind) List.suffix_rfl (by simp)
      rw [before] at unopened
      refine .braced unopened unclosed (ih (flat.of_suffix ?_))
      exact ⟨'{' :: name ++ ['}'], by simp⟩
  | case4 c text other ih =>
      refine .kept ?_ (ih (flat.of_suffix (List.suffix_cons c text)))
      exact fun same => other (List.mem_singleton.mp same).symm

/-! ## Names in braces -/

section

variable {name text : List Char}

theorem isPassed_braced {mark : List Char} (unopened : '{' ∉ name)
    (other : ¬ mark <+: name ++ '}' :: text) :
    IsPassed ('{' :: mark) (Piece.braced name).text text := by
  have plain : '{' ∉ name ++ ['}'] := by simpa using unopened
  refine isPassed_cons (fun starts => other ?_) (isPassed_of_not_mem plain text)
  have behind := (List.cons_prefix_cons.mp starts).2
  rwa [List.append_eq, List.append_assoc, List.singleton_append] at behind

/-- A name that is followed by a closing brace is read to that brace. -/
theorem eq_of_prefix_closed {inner : List Char} (unclosed : '}' ∉ name) (inner_ : '}' ∉ inner)
    (starts : inner ++ ['}'] <+: name ++ '}' :: text) : name = inner := by
  obtain ⟨rest, same⟩ := starts
  rw [List.append_assoc, List.singleton_append] at same
  have read := split?_singleton inner_ rest
  rw [same, split?_singleton unclosed text] at read
  exact (Prod.mk.inj (Option.some.inj read)).1

theorem fillIndex_braced (index : UInt64) (unopened : '{' ∉ name) (unclosed : '}' ∉ name)
    (text : List Char) :
    fillIndex index ((Piece.braced name).text ++ text) =
      (numbered index (.braced name)).text ++ fillIndex index text := by
  by_cases named : name = "index".toList
  · subst named
    exact fillIndex_of_some index (split?_append_self text (by decide))
  · rw [numbered, if_neg named, fillIndex_append]
    exact isPassed_braced unopened fun starts =>
      named (eq_of_prefix_closed unclosed (by decide) starts)

theorem fillUuids_braced (unopened : '{' ∉ name) (unclosed : '}' ∉ name) (text : List Char) :
    fillUuids ((Piece.braced name).text ++ text) = do
      return (← identified (.braced name)).text ++ (← fillUuids text) := by
  by_cases named : name = "uuid".toList
  · subst named
    exact fillUuids_of_some (split?_append_self text (by decide))
  · rw [identified, if_neg named, fillUuids_append]
    · rfl
    · exact isPassed_braced unopened fun starts =>
        named (eq_of_prefix_closed unclosed (by decide) starts)

/-- A mark without a closing brace begins in a name or in none. -/
theorem prefix_of_prefix_closed {mark : List Char} (open_ : '}' ∉ mark)
    (starts : mark <+: name ++ '}' :: text) : mark <+: name := by
  rcases List.prefix_or_prefix_of_prefix starts (List.prefix_append name _) with within | ⟨rest, rfl⟩
  · exact within
  · cases rest with
    | nil => rw [List.append_nil]
    | cons c rest =>
        have last := (List.prefix_append_right_inj name).mp starts
        obtain ⟨rfl, -⟩ := List.cons_prefix_cons.mp last
        simp at open_

theorem fillDigits_braced (unopened : '{' ∉ name) (unclosed : '}' ∉ name) (text : List Char) :
    fillDigits ((Piece.braced name).text ++ text) = do
      return (← randomised (.braced name)).text ++ (← fillDigits text) := by
  by_cases starts : "rand:".toList <+: name
  · obtain ⟨inside, rfl⟩ := starts
    have asks : asked? ("rand:".toList ++ inside) = digitCount? inside :=
      if_pos (List.prefix_append _ inside)
    have mark : digitsMark = '{' :: "rand:".toList := by decide
    have shown : (Piece.braced ("rand:".toList ++ inside)).text ++ text =
        digitsMark ++ (inside ++ '}' :: text) := by
      rw [mark, Piece.text]
      simp only [List.cons_append, List.append_assoc, List.nil_append]
    have found := split?_append_self (inside ++ '}' :: text) (show digitsMark ≠ [] by decide)
    have closed : split? ['}'] (inside ++ '}' :: text) = some (inside, text) :=
      split?_singleton (fun member => unclosed (List.mem_append_right _ member)) text
    rw [shown, fillDigits_of_closed found closed, filling, randomised, Piece.count?, asks]
    cases digitCount? inside with
    | none => rfl
    | some count => simp only [bind_assoc, pure_bind, Piece.text, List.nil_append]
  · have asks : asked? name = none := if_neg starts
    rw [randomised, Piece.count?, asks, fillDigits_append]
    · simp only [pure_bind, map_eq_pure_bind]
    · exact isPassed_braced unopened fun within =>
        starts (prefix_of_prefix_closed (by decide) within)

end

/-! ## The passes over pieces -/

variable {pieces : List Piece}

theorem fillIndex_flatMap (index : UInt64) (orderly : IsOrderly pieces) :
    fillIndex index (pieces.flatMap Piece.text) =
      (pieces.map (numbered index)).flatMap Piece.text := by
  induction orderly with
  | nil => exact fillIndex_of_none index (by decide)
  | unclosed open_ =>
      simp only [List.map_singleton, numbered, List.flatMap_singleton, Piece.text]
      exact fillIndex_of_none index (split?_eq_none_of_not_mem (by decide) open_)
  | kept plain _ ih =>
      rw [List.map_cons, List.flatMap_cons, List.flatMap_cons, ← ih]
      exact fillIndex_append index (isPassed_of_not_mem plain _)
  | braced unopened unclosed _ ih =>
      rw [List.map_cons, List.flatMap_cons, List.flatMap_cons, ← ih]
      exact fillIndex_braced index unopened unclosed _

/-- A pass that copies plain texts and texts in which nothing is closed, and fills a piece in braces
before it goes on, fills all pieces in turn. -/
theorem pass_flatMap {m : Type → Type} [Monad m] [LawfulMonad m]
    {pass : List Char → m (List Char)} {fillPiece : Piece → m Piece}
    (fillPiece_kept : ∀ text, fillPiece (.kept text) = pure (.kept text))
    (unclosed : ∀ {text}, '}' ∉ text → pass text = pure text)
    (plain : ∀ {front} text, '{' ∉ front → pass (front ++ text) = (front ++ ·) <$> pass text)
    (braced : ∀ {name} text, '{' ∉ name → '}' ∉ name →
      pass ((Piece.braced name).text ++ text) = do
        return (← fillPiece (.braced name)).text ++ (← pass text))
    (orderly : IsOrderly pieces) :
    pass (pieces.flatMap Piece.text) = do
      return (← pieces.mapM fillPiece).flatMap Piece.text := by
  induction orderly with
  | nil =>
      rw [List.mapM_nil, pure_bind]
      exact unclosed List.not_mem_nil
  | unclosed open_ =>
      simp only [List.mapM_cons, List.mapM_nil, fillPiece_kept, pure_bind, List.flatMap_singleton]
      exact unclosed open_
  | kept plain_ _ ih =>
      rw [List.flatMap_cons, Piece.text, plain _ plain_, ih, List.mapM_cons, fillPiece_kept]
      simp only [map_bind, map_pure, bind_assoc, pure_bind, List.flatMap_cons, Piece.text]
  | braced unopened unclosed_ _ ih =>
      rw [List.flatMap_cons, braced _ unopened unclosed_, ih, List.mapM_cons]
      simp only [bind_assoc, pure_bind, List.flatMap_cons]

theorem fillUuids_flatMap (orderly : IsOrderly pieces) :
    fillUuids (pieces.flatMap Piece.text) = do
      return (← pieces.mapM identified).flatMap Piece.text := by
  refine pass_flatMap (fun _ => rfl) (fun open_ => ?_) (fun text plain => ?_) ?_ orderly
  · exact fillUuids_of_none (split?_eq_none_of_not_mem (by decide) open_)
  · exact fillUuids_append (isPassed_of_not_mem plain text)
  · exact fun text unopened unclosed => fillUuids_braced unopened unclosed text

theorem fillDigits_flatMap (orderly : IsOrderly pieces) :
    fillDigits (pieces.flatMap Piece.text) = do
      return (← pieces.mapM randomised).flatMap Piece.text := by
  refine pass_flatMap (fun _ => rfl) fillDigits_of_not_mem (fun text plain => ?_) ?_ orderly
  · exact fillDigits_append (isPassed_of_not_mem plain text)
  · exact fun text unopened unclosed => fillDigits_braced unopened unclosed text

/-! ## What the passes leave -/

/-- A piece that is left as it is, or a name that asks for no digits and for which a text without
braces is filled in. -/
inductive IsLeft : Piece → Piece → Prop where
  | same (piece : Piece) : IsLeft piece piece
  | filled {name text : List Char} (unasked : asked? name = none) (plain : '{' ∉ text) :
      IsLeft (.braced name) (.kept text)

theorem IsOrderly.of_isLeft {left : List Piece} (orderly : IsOrderly pieces)
    (all : List.Forall₂ IsLeft pieces left) : IsOrderly left := by
  induction orderly generalizing left with
  | nil =>
      cases all
      exact .nil
  | unclosed open_ =>
      obtain _ | ⟨⟨⟩, ⟨⟩⟩ := all
      exact .unclosed open_
  | kept plain _ ih =>
      obtain _ | ⟨⟨⟩, others⟩ := all
      exact .kept plain (ih others)
  | braced unopened unclosed _ ih =>
      obtain _ | ⟨first, others⟩ := all
      cases first with
      | same => exact .braced unopened unclosed (ih others)
      | filled unasked plain => exact .kept plain (ih others)

theorem isLeft_numbered (index : UInt64) (piece : Piece) : IsLeft piece (numbered index piece) := by
  cases piece with
  | kept text => exact .same _
  | braced name =>
      rw [numbered]
      split
      · rename_i named
        have plain : '{' ∉ Text.decimal index.toNat :=
          fun member => absurd (Text.isDigit_of_mem_decimal member) (by decide)
        exact .filled (named ▸ rfl) plain
      · exact .same _

theorem isLeft_identified (piece : Piece) (stream : KeyStream) :
    IsLeft piece ((identified piece).run stream).1 := by
  cases piece with
  | kept text => exact .same _
  | braced name =>
      rw [identified]
      split
      · rename_i named
        exact .filled (named ▸ rfl) (Uuid.brace_not_mem_text _)
      · exact .same _

/-- The first two passes leave what is asked for of digits. -/
theorem hasRoom_iff_of_isLeft {left : List Piece} (all : List.Forall₂ IsLeft pieces left) :
    HasRoom left ↔ HasRoom pieces := by
  induction all with
  | nil => exact Iff.rfl
  | @cons piece filled pieces left first _ ih =>
      have counts : filled.count? = piece.count? := by
        cases first with
        | same => rfl
        | filled unasked _ => exact unasked.symm
      simp only [HasRoom, List.forall_mem_cons, counts] at ih ⊢
      exact and_congr_right fun _ => ih

/-- What may stand for a piece once digits are drawn. -/
def IsRandomised (piece filled : Piece) : Prop :=
  match piece.count? with
  | some count => Draw.IsNumber count filled.text
  | none => filled = piece

theorem exists_randomised {piece : Piece} (fits : ∀ count ∈ piece.count?, count ≤ Draw.room)
    (stream : KeyStream) : ∃ filled left,
      (randomised piece).run.run stream = (some filled, left) ∧ IsRandomised piece filled := by
  unfold randomised IsRandomised
  cases asks : piece.count? with
  | none => exact ⟨piece, stream, rfl, rfl⟩
  | some count =>
      simp only [Draw.digits_of_le (fits count asks)]
      exact ⟨_, _, rfl, Draw.isNumber_number count stream⟩

theorem randomised_eq_none {piece : Piece} {count : Nat} (asks : piece.count? = some count)
    (excess : Draw.room < count) (stream : KeyStream) :
    ((randomised piece).run.run stream).1 = none := by
  unfold randomised
  simp only [asks, Draw.digits_of_lt excess]
  rfl

/-- A text that is drawn for a piece is one that may stand for it. -/
theorem isFilling_text (index : UInt64) {piece drawn filled : Piece}
    (identifies : ∃ stream, ((identified (numbered index piece)).run stream).1 = drawn)
    (randomises : IsRandomised drawn filled) : IsFilling index piece filled.text := by
  obtain ⟨before, rfl⟩ := identifies
  cases piece with
  | kept text =>
      obtain rfl : filled = .kept text := randomises
      rfl
  | braced name =>
      by_cases counts : name = "index".toList
      · subst counts
        obtain rfl : filled = .kept (Text.decimal index.toNat) := randomises
        rfl
      · by_cases identifies : name = "uuid".toList
        · subst identifies
          obtain rfl : filled = .kept ((Draw.uuid.run before).1).text := randomises
          exact Draw.isRandomText_uuid before
        · rw [numbered, if_neg counts, identified, if_neg identifies] at randomises
          rw [IsFilling, if_neg counts, if_neg identifies]
          change match asked? name with
            | some count => Draw.IsNumber count filled.text
            | none => filled = .braced name at randomises
          cases asks : asked? name with
          | none =>
              rw [asks] at randomises
              exact congrArg Piece.text randomises
          | some count =>
              rw [asks] at randomises
              exact randomises

/-! ## Filling -/

/-- The reading of pieces from left to right: the index is filled in where it is asked for, then
identifiers are drawn for the pieces in turn, and then digits. -/
def reading (pieces : List Piece) (index : UInt64) : OptionT Draw (List Piece) := do
  let drawn ← OptionT.lift ((pieces.map (numbered index)).mapM identified)
  drawn.mapM randomised

section

variable {pieces : List Piece}

theorem forall₂_numbered (index : UInt64) (pieces : List Piece) :
    List.Forall₂ IsLeft pieces (pieces.map (numbered index)) :=
  List.forall₂_map_right_iff.mpr (List.forall₂_same.mpr fun piece _ => isLeft_numbered index piece)

theorem forall₂_identified (pieces : List Piece) (stream : KeyStream) :
    List.Forall₂ IsLeft pieces ((pieces.mapM identified).run stream).1 :=
  (Draw.forall₂_mapM identified pieces stream).imp
    fun piece _ ⟨between, made⟩ => made ▸ isLeft_identified piece between

/-- The three passes over a text are one reading of its pieces. -/
theorem fill_flatMap {pattern : String} (orderly : IsOrderly pieces)
    (same : pieces.flatMap Piece.text = pattern.toList) (index : UInt64) :
    fill pattern index = do
      return String.ofList ((← reading pieces index).flatMap Piece.text) := by
  have numbered_ := orderly.of_isLeft (forall₂_numbered index pieces)
  have passes : fill pattern index =
      OptionT.lift (fillUuids (fillIndex index pattern.toList)) >>= fun text => do
        return String.ofList (← fillDigits text) := rfl
  rw [passes, ← same, fillIndex_flatMap index orderly, fillUuids_flatMap numbered_, reading,
    OptionT.lift_bind]
  simp only [bind_assoc]
  refine Draw.lift_bind_congr fun stream => ?_
  have left := numbered_.of_isLeft (forall₂_identified (pieces.map (numbered index)) stream)
  rw [OptionT.lift_pure, pure_bind, fillDigits_flatMap left]
  simp only [bind_assoc, pure_bind]

/-- Identifiers can always be drawn, and digits are drawn from what they leave of the stream. -/
theorem run_reading (pieces : List Piece) (index : UInt64) (stream : KeyStream) :
    let drawn := ((pieces.map (numbered index)).mapM identified).run stream
    (reading pieces index).run.run stream = (drawn.1.mapM randomised).run.run drawn.2 := by
  intro drawn
  rw [reading, Draw.run_bind, Draw.run_lift]

/-- Pieces for whose digits there is room can be read, and each gets what may stand for it. -/
theorem exists_reading (room : HasRoom pieces) (index : UInt64) (stream : KeyStream) :
    ∃ filled, ((reading pieces index).run.run stream).1 = some filled ∧
      List.Forall₂ (fun piece drawn => IsFilling index piece drawn.text) pieces filled := by
  have numbered_ := forall₂_numbered index pieces
  have identified_ := forall₂_identified (pieces.map (numbered index)) stream
  have first := Draw.forall₂_mapM identified (pieces.map (numbered index)) stream
  rw [List.forall₂_map_left_iff] at first
  rw [← hasRoom_iff_of_isLeft numbered_, ← hasRoom_iff_of_isLeft identified_] at room
  obtain ⟨filled, left, drawn, second⟩ := Draw.exists_mapM
    (fun piece member stream => exists_randomised (room piece member) stream)
    (((pieces.map (numbered index)).mapM identified).run stream).2
  have both := forall₂_comp (T := fun piece filled => IsFilling index piece filled.text)
    (isFilling_text index) first second
  refine ⟨filled, ?_, both⟩
  rw [run_reading, drawn]

/-- If there is no room for the digits of some piece, then nothing is read. -/
theorem reading_eq_none (excess : ¬ HasRoom pieces) (index : UInt64) (stream : KeyStream) :
    ((reading pieces index).run.run stream).1 = none := by
  have numbered_ := forall₂_numbered index pieces
  have identified_ := forall₂_identified (pieces.map (numbered index)) stream
  rw [← hasRoom_iff_of_isLeft numbered_, ← hasRoom_iff_of_isLeft identified_, HasRoom] at excess
  push Not at excess
  obtain ⟨piece, member, count, asks, excess⟩ := excess
  rw [run_reading]
  exact Draw.mapM_eq_none member (randomised_eq_none asks excess) _

end

theorem run_fill {pattern : String} (flat : IsFlat pattern.toList) (index : UInt64)
    (stream : KeyStream) :
    ((fill pattern index).run.run stream).1 =
      ((reading (Pattern.pieces pattern.toList) index).run.run stream).1.map fun filled =>
        String.ofList (filled.flatMap Piece.text) := by
  rw [fill_flatMap (isOrderly_pieces flat) (flatMap_text_pieces pattern.toList),
    ← map_eq_pure_bind, Draw.run_map]

/-- Without braces inside braces, the text of a pattern is made of its pieces, read once from left to
right: the index is filled in where it is asked for, then identifiers are drawn for the pieces in
turn, and then digits.  In the end each piece stands as it was, or as what its name asks for.  There
is a text, whatever is drawn, unless a piece asks for more digits than a text has room for. -/
theorem fill_eq_reading {pattern : String} (flat : IsFlat pattern.toList) (index : UInt64) :
    let read := Pattern.pieces pattern.toList
    read.flatMap Piece.text = pattern.toList ∧
      (fill pattern index = do
        let drawn ← OptionT.lift ((read.map (numbered index)).mapM identified)
        let filled ← drawn.mapM randomised
        return String.ofList (filled.flatMap Piece.text)) ∧
      ∀ stream,
        (HasRoom read → ∃ texts, List.Forall₂ (IsFilling index) read texts ∧
          ((fill pattern index).run.run stream).1 = some (String.ofList texts.flatten)) ∧
        (¬ HasRoom read → ((fill pattern index).run.run stream).1 = none) := by
  intro read
  have same : read.flatMap Piece.text = pattern.toList := flatMap_text_pieces pattern.toList
  refine ⟨same, ?_, fun stream => ⟨fun room => ?_, fun excess => ?_⟩⟩
  · rw [fill_flatMap (isOrderly_pieces flat) same, reading, bind_assoc]
  · obtain ⟨filled, made, fits⟩ := exists_reading room index stream
    refine ⟨filled.map Piece.text, List.forall₂_map_right_iff.mpr fits, ?_⟩
    rw [run_fill flat, made, Option.map_some, List.flatMap_def]
  · rw [run_fill flat, reading_eq_none excess, Option.map_none]

/-- An index, an identifier and two digits, a name that asks for nothing, no digits, and braces that
do not belong together. -/
theorem fill_eq_reading_placeholders :
    let pattern := "\x7bindex\x7d-\x7buuid\x7d/\x7brand:2\x7d\x7brand:x\x7d\x7brand:0\x7d\x7d\x7brand:3"
    let text := "7-a2242722-6377-4c86-bd51-ad3f130af08a/86\x7brand:x\x7d\x7d\x7brand:3"
    IsFlat pattern.toList ∧ HasRoom (Pattern.pieces pattern.toList) ∧
      ((fill pattern 7).run.run (.ofSeed 42)).1 = some text ∧
      ∃ texts, List.Forall₂ (IsFilling 7) (Pattern.pieces pattern.toList) texts ∧
        String.ofList texts.flatten = text := by
  intro pattern text
  have flat : IsFlat pattern.toList := by decide +kernel
  have read : Pattern.pieces pattern.toList =
      [.braced "index".toList, .kept ['-'], .braced "uuid".toList, .kept ['/'],
        .braced "rand:2".toList, .braced "rand:x".toList, .braced "rand:0".toList, .kept ['\x7d'],
        .kept "\x7brand:3".toList] := by decide +kernel
  have room : HasRoom (Pattern.pieces pattern.toList) := by
    rw [read, HasRoom]
    decide +kernel
  obtain ⟨-, passes, made⟩ := fill_eq_reading flat 7
  have drawn : ((fill pattern 7).run.run (.ofSeed 42)).1 = some text := by
    rw [passes, read]
    decide +kernel
  obtain ⟨texts, fits, same⟩ := (made (.ofSeed 42)).1 room
  exact ⟨flat, room, drawn, texts, fits, Option.some.inj (same.symm.trans drawn)⟩

/-- A placeholder that asks for one digit more than a text has room for. -/
theorem fill_eq_none_excess :
    let pattern := "\x7brand:9223372036854775808\x7d"
    IsFlat pattern.toList ∧ digitCount? "9223372036854775808".toList = some (2 ^ 63) ∧
      ∀ index stream, ((fill pattern index).run.run stream).1 = none := by
  intro pattern
  have flat : IsFlat pattern.toList := by decide +kernel
  have counts : digitCount? "9223372036854775808".toList = some (2 ^ 63) := by decide +kernel
  have read : Pattern.pieces pattern.toList = [.braced "rand:9223372036854775808".toList] := by
    decide +kernel
  have excess : ¬ HasRoom (Pattern.pieces pattern.toList) := by
    intro room
    rw [read] at room
    have fits := room _ List.mem_cons_self (2 ^ 63) counts
    exact absurd fits (by decide)
  refine ⟨flat, counts, fun index stream => ?_⟩
  rw [run_fill flat, reading_eq_none excess, Option.map_none]

end Pattern

end Reconcile
