import Reconcile.Text.Digits
import Reconcile.Yaml.Glyph

/-!
# Text of scalars

The spellings of a scalar: plain, between single or double quotes, and as an indented block.  A
single line break between two words is folded to a space; of several, the first is dropped.
-/

namespace Reconcile

namespace Yaml

/-- What stands between two words: spaces, or line breaks with the spaces around them left out. -/
structure Gap where
  spaces : List Char
  breaks : List Char

namespace Gap

def empty : Gap := ⟨[], []⟩

def isBroken (gap : Gap) : Bool := !gap.breaks.isEmpty

/-- The folded gap. -/
def text (gap : Gap) : List Char :=
  match gap.breaks with
  | [] => gap.spaces
  | ['\n'] => [' ']
  | '\n' :: breaks => breaks
  | breaks => breaks

end Gap

/-- The glyphs of the gap that begins here. -/
def gapGlyphs (source : List Glyph) : List Glyph := source.takeWhile fun g => isGap g.char

def dropGap (source : List Glyph) : List Glyph := source.dropWhile fun g => isGap g.char

def gapOf (source : List Glyph) : Gap :=
  let gap := gapGlyphs source
  ⟨chars (gap.takeWhile fun g => isSpace g.char), chars (gap.filter fun g => isBreak g.char)⟩

/-! ## Plain scalars -/

def isFlowMark (c : Char) : Bool := [',', '[', ']', '{', '}'].contains c

/-- A word of a plain scalar, up to a gap, a colon before a gap, or a mark of flow collections
inside one.  There a colon directly before such a mark is not allowed. -/
def plainWord (inFlow : Bool) : List Glyph → Option (List Char × List Glyph)
  | [] => some ([], [])
  | g :: rest =>
      if isGap g.char then some ([], g :: rest)
      else if inFlow && g.char == ':' && startsWith (fun c => isFlowMark c || c == '?') rest then
        none
      else if (g.char == ':' && atWordEnd rest) || (inFlow && isFlowMark g.char) then
        some ([], g :: rest)
      else (plainWord inFlow rest).map fun (word, rest) => (g.char :: word, rest)

/-- A plain scalar as read: its text, whether a line break follows it, and the rest. -/
structure PlainScalar where
  text : List Char
  lineEnded : Bool
  rest : List Glyph

/-- Whether a tab stands in the indentation of a line that the gap here leads to. -/
def hasIndentingTab (indent : Int) (source : List Glyph) : Bool :=
  ((gapGlyphs source).dropWhile fun g => isSpace g.char).any fun g =>
    g.char == '\t' && g.column < indent

/-- Whether the text here is indented less than a scalar's lines have to be. -/
def isOutdented (indent : Int) : List Glyph → Bool
  | [] => true
  | g :: _ => g.column < indent

/-- The words of a plain scalar after the gap `gap`.  A comment, a document mark or a lesser
indentation ends it; `fuel` bounds the words. -/
def plainWords (inFlow : Bool) (indent : Int) : Nat → Gap → List Glyph → Option PlainScalar
  | 0, _, _ => none
  | fuel + 1, gap, source =>
      if atDocumentMark source || startsWith (· == '#') source then
        some ⟨[], gap.isBroken, source⟩
      else do
        let (word, rest) ← plainWord inFlow source
        if word.isEmpty then some ⟨[], gap.isBroken, rest⟩
        else if !startsWith isGap rest then some ⟨gap.text ++ word, false, rest⟩
        else if hasIndentingTab indent rest then none
        else
          let next := gapOf rest
          let rest := dropGap rest
          if !inFlow && isOutdented indent rest then
            some ⟨gap.text ++ word, next.isBroken, rest⟩
          else
            let scalar ← plainWords inFlow indent fuel next rest
            some ⟨gap.text ++ word ++ scalar.text, scalar.lineEnded, scalar.rest⟩

def plainScalar (inFlow : Bool) (indent : Int) (source : List Glyph) : Option PlainScalar :=
  plainWords inFlow indent (source.length + 1) .empty source

/-! ## Quoted scalars -/

/-- A piece of a quoted scalar without gaps; `joined` if an escaped line break ends it. -/
structure QuotedPiece where
  text : List Char
  joined : Bool
  rest : List Glyph

/-- A piece between single quotes, in which a doubled quote stands for one. -/
def singlePiece : List Glyph → QuotedPiece
  | [] => ⟨[], false, []⟩
  | g :: rest =>
      if isGap g.char then ⟨[], false, g :: rest⟩
      else if g.char == '\'' then
        match rest with
        | [] => ⟨[], false, [g]⟩
        | next :: rest =>
            if next.char == '\'' then
              let piece := singlePiece rest
              { piece with text := '\'' :: piece.text }
            else ⟨[], false, g :: next :: rest⟩
      else
        let piece := singlePiece rest
        { piece with text := g.char :: piece.text }

/-- The escapes of one letter. -/
def letterEscapes : List (Char × Char) :=
  [('0', '\x00'), ('a', '\x07'), ('b', '\x08'), ('t', '\t'), ('\t', '\t'), ('n', '\n'),
    ('v', '\x0b'), ('f', '\x0c'), ('r', '\r'), ('e', '\x1b'), (' ', ' '), ('"', '"'), ('/', '/'),
    ('\\', '\\'), ('N', '\u0085'), ('_', '\u00a0'), ('L', '\u2028'), ('P', '\u2029')]

/-- The escapes of a code: how many hexadecimal digits follow the letter. -/
def codeEscapes : List (Char × Nat) := [('x', 2), ('u', 4), ('U', 8)]

/-- The character of a code that is one. -/
def charOfCode? (code : Nat) : Option Char :=
  if code < 0xd800 ∨ (0xe000 ≤ code ∧ code ≤ 0x10ffff) then some (Char.ofNat code) else none

/-- The character of an escape after its backslash, and how many glyphs spell it. -/
def escaped? (source : List Glyph) : Option (Char × Nat) := do
  let letter ← source.head?
  match letterEscapes.lookup letter.char with
  | some c => some (c, 1)
  | none =>
      let width ← codeEscapes.lookup letter.char
      let digits := chars ((source.drop 1).take width)
      if digits.length < width then none
      else
        let code ← Text.natOfText? 16 digits
        let c ← charOfCode? code
        some (c, width + 1)

/-- A piece between double quotes; `fuel` bounds its glyphs. -/
def doublePiece : Nat → List Glyph → Option QuotedPiece
  | 0, _ => none
  | _ + 1, [] => some ⟨[], false, []⟩
  | fuel + 1, g :: rest =>
      if isGap g.char || g.char == '"' then some ⟨[], false, g :: rest⟩
      else if g.char == '\\' then
        if startsWith isBreak rest then some ⟨[], true, rest.drop 1⟩
        else do
          let (c, width) ← escaped? rest
          let piece ← doublePiece fuel (rest.drop width)
          some { piece with text := c :: piece.text }
      else do
        let piece ← doublePiece fuel rest
        some { piece with text := g.char :: piece.text }

/-- A quoted scalar after its opening quote, up to and with the closing one.  No line of it may
begin with a document mark.  Behind an escaped line break all further breaks are kept. -/
def quotedPieces (quote : Char) : Nat → List Glyph → Option (List Char × List Glyph)
  | 0, _ => none
  | fuel + 1, source =>
      if atDocumentMark source then none
      else do
        let piece ←
          if quote = '"' then doublePiece (source.length + 1) source else some (singlePiece source)
        match piece.rest with
        | [] => none
        | g :: rest =>
            if g.char == quote then some (piece.text, rest)
            else
              let gap := gapOf (g :: rest)
              let (text, rest) ← quotedPieces quote fuel (dropGap (g :: rest))
              some (piece.text ++ (if piece.joined then gap.breaks else gap.text) ++ text, rest)

def quotedScalar (quote : Char) (source : List Glyph) : Option (List Char × List Glyph) :=
  quotedPieces quote (source.length + 1) source

/-! ## Block scalars -/

/-- What becomes of the line breaks at the end of a block. -/
inductive Chomping where
  | strip
  | clip
  | keep
deriving DecidableEq

def chomping? : Char → Option Chomping
  | '-' => some .strip
  | '+' => some .keep
  | _ => none

/-- The head of a block: the chomping and the indentation, in either order; an indentation of
zero is not allowed. -/
def blockHead (source : List Glyph) : Option (Chomping × Option Nat × List Glyph) :=
  let chomped (source : List Glyph) : Option Chomping × List Glyph :=
    match source with
    | g :: rest =>
        match chomping? g.char with
        | some chomping => (some chomping, rest)
        | none => (none, source)
    | [] => (none, [])
  let indented (source : List Glyph) : Option Nat × List Glyph :=
    match source with
    | g :: rest =>
        match Text.digitValue? g.char with
        | some digit => (some digit, rest)
        | none => (none, source)
    | [] => (none, [])
  let (before, rest) := chomped source
  let (increment, rest) := indented rest
  let (chomping, rest) :=
    match before, increment with
    | none, some _ => chomped rest
    | _, _ => (before, rest)
  if increment = some 0 then none else some (chomping.getD .clip, increment, rest)

/-- The empty lines before the next line of a block, by their breaks, and the deepest
indentation seen.  An indentation of zero is one that is not known yet. -/
def emptyLines (indent : Nat) : Nat → Nat → List Glyph → Option (List Char × Nat × List Glyph)
  | 0, _, _ => none
  | fuel + 1, deepest, source =>
      let indenting (g : Glyph) : Bool := indent == 0 || g.column < indent
      match source.dropWhile fun g => g.char == ' ' && indenting g with
      | [] => some ([], deepest, [])
      | g :: rest =>
          let deepest := max deepest g.column
          if g.char == '\t' && indenting g then none
          else if isBreak g.char then do
            let (breaks, deepest, rest) ← emptyLines indent fuel deepest rest
            some (g.char :: breaks, deepest, rest)
          else some ([], deepest, g :: rest)

/-- A block while it is read: the break behind the line before, the breaks of the empty lines
after that, and whether the line before began with a space. -/
structure BlockGap where
  lineBreak : List Char
  breaks : List Char
  afterSpace : Bool

/-- What stands between two lines of a block.  Folding spares lines that begin with a space. -/
def BlockGap.text (gap : BlockGap) (literal beforeSpace : Bool) : List Char :=
  if !literal && gap.lineBreak == ['\n'] && !gap.afterSpace && !beforeSpace then
    if gap.breaks.isEmpty then [' '] else gap.breaks
  else gap.lineBreak ++ gap.breaks

def BlockGap.tail (gap : BlockGap) (chomping : Chomping) : List Char :=
  match chomping with
  | .strip => []
  | .clip => gap.lineBreak
  | .keep => gap.lineBreak ++ gap.breaks

def blockLines (literal : Bool) (chomping : Chomping) (indent : Nat) :
    Nat → BlockGap → List Glyph → Option (List Char × List Glyph)
  | 0, _, _ => none
  | _ + 1, gap, [] => some (gap.tail chomping, [])
  | fuel + 1, gap, g :: source =>
      if g.column ≠ indent then some (gap.tail chomping, g :: source)
      else do
        let space := isSpace g.char
        let line := (g :: source).takeWhile fun g => !isBreak g.char
        let rest := dropLine (g :: source)
        let (breaks, _, after) ← emptyLines indent (rest.length + 1) 0 (rest.drop 1)
        let (text, after) ←
          blockLines literal chomping indent fuel ⟨chars (rest.take 1), breaks, space⟩ after
        some (gap.text literal space ++ chars line ++ text, after)

/-- A block after its indicator, inside a collection indented by `indent`. -/
def blockScalar (literal : Bool) (indent : Int) (source : List Glyph) :
    Option (List Char × List Glyph) := do
  let (chomping, increment, rest) ← blockHead source
  let rest ← lineRest? rest
  let known :=
    match increment with
    | some n => if 0 ≤ indent then indent.toNat + n else n
    | none => 0
  let (breaks, deepest, rest) ← emptyLines known (rest.length + 1) 0 rest
  let indent := if known = 0 then max deepest (max (indent + 1) 1).toNat else known
  blockLines literal chomping indent (rest.length + 1) ⟨[], breaks, false⟩ rest

end Yaml

end Reconcile
