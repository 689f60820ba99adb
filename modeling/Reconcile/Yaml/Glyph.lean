/-!
# Glyphs

A YAML text is read as glyphs, characters that know where they stand.  Every line end is one
character: a line feed, or one of the two separators of lines and paragraphs.
-/

namespace Reconcile

namespace Yaml

structure Glyph where
  char : Char
  line : Nat
  column : Nat

def isBreak (c : Char) : Bool := c == '\n' || c == '\u2028' || c == '\u2029'

def isSpace (c : Char) : Bool := c == ' ' || c == '\t'

def isGap (c : Char) : Bool := isSpace c || isBreak c

/-- The code points that a text may hold: no controls but tab, line ends and next line. -/
def isAllowed (c : Char) : Bool :=
  let code := c.toNat
  code == 0x9 || code == 0xa || code == 0xd || (0x20 ≤ code && code ≤ 0x7e) || code == 0x85 ||
    (0xa0 ≤ code && code ≤ 0xd7ff) || (0xe000 ≤ code && code ≤ 0xfffd) || 0x10000 ≤ code

/-- Carriage returns, alone or before a line feed, and next lines become line feeds. -/
def lineFeeds : List Char → List Char
  | '\r' :: '\n' :: rest => '\n' :: lineFeeds rest
  | '\r' :: rest => '\n' :: lineFeeds rest
  | '\u0085' :: rest => '\n' :: lineFeeds rest
  | c :: rest => c :: lineFeeds rest
  | [] => []

/-- Characters with their places, counted from a line and a column on. -/
def placed : Nat → Nat → List Char → List Glyph
  | _, _, [] => []
  | line, column, c :: rest =>
      ⟨c, line, column⟩ ::
        if isBreak c then placed (line + 1) 0 rest else placed line (column + 1) rest

/-- The glyphs of a text, none if it holds a character that is not allowed. -/
def glyphs? (text : List Char) : Option (List Glyph) :=
  if text.all isAllowed then some (placed 0 0 (lineFeeds text)) else none

/-! ## What stands next -/

def startsWith (test : Char → Bool) : List Glyph → Bool
  | [] => false
  | g :: _ => test g.char

/-- Whether a word ends here, at a gap or at the end of the text. -/
def atWordEnd : List Glyph → Bool
  | [] => true
  | g :: _ => isGap g.char

def atLineEnd : List Glyph → Bool
  | [] => true
  | g :: _ => isBreak g.char

/-- Whether a line begins here with a word of three equal characters. -/
def atTriple (c : Char) : List Glyph → Bool
  | first :: second :: third :: rest =>
      first.column == 0 && first.char == c && second.char == c && third.char == c && atWordEnd rest
  | _ => false

/-- Whether a line begins here with the mark of a document's start or end. -/
def atDocumentMark (source : List Glyph) : Bool := atTriple '-' source || atTriple '.' source

def chars (source : List Glyph) : List Char := source.map Glyph.char

def dropSpaces (source : List Glyph) : List Glyph := source.dropWhile fun g => isSpace g.char

/-- The rest from the next line end on. -/
def dropLine (source : List Glyph) : List Glyph := source.dropWhile fun g => !isBreak g.char

/-- The rest behind spaces and a comment, which must end the line; none if something else is
left on it. -/
def lineRest? (source : List Glyph) : Option (List Glyph) :=
  let rest := dropSpaces source
  let rest := if startsWith (· == '#') rest then dropLine rest else rest
  if atLineEnd rest then some (rest.drop 1) else none

end Yaml

end Reconcile
