import Reconcile.Yaml.Name
import Reconcile.Yaml.ScalarText

/-!
# Tokens

A text as a row of tokens.  Indentation becomes tokens that open and close block collections.
Whether something is the key of a mapping shows only at the colon behind it; the tokens that
mark it as one are put in front of it then.
-/

namespace Reconcile

namespace Yaml

/-- How a scalar is spelled, as far as its meaning depends on it. -/
inductive Style where
  | plain
  | literal
  | quoted
deriving DecidableEq

inductive Token where
  | directive (directive : Directive)
  | documentStart
  | documentEnd
  | sequenceStart
  | mappingStart
  | blockEnd
  | entry
  | flowSequenceStart
  | flowSequenceEnd
  | flowMappingStart
  | flowMappingEnd
  | flowEntry
  | key
  | value
  | alias (name : List Char)
  | anchor (name : List Char)
  | tag (spelling : TagSpelling)
  | scalar (style : Style) (text : List Char)

/-- Something that a colon may still turn into a key. -/
structure PendingKey where
  /-- nothing else can stand there -/
  required : Bool
  /-- how many tokens come before it -/
  position : Nat
  line : Nat
  column : Nat

/-- A text while its tokens are read. -/
structure Lexer where
  tokens : Array Token
  /-- the indentation of the innermost block collection, −1 outside of all -/
  indent : Int
  /-- the indentations of the collections around it -/
  outer : List Int
  /-- the pending keys of the innermost flow collection and of all around it -/
  pending : Option PendingKey
  outerPending : List (Option PendingKey)
  /-- whether a key may begin here -/
  keyAllowed : Bool

namespace Lexer

def start : Lexer := ⟨#[], -1, [], none, [], true⟩

def inFlow (l : Lexer) : Bool := !l.outerPending.isEmpty

def push (l : Lexer) (token : Token) : Lexer := { l with tokens := l.tokens.push token }

def insert (l : Lexer) (position : Nat) (token : Token) : Lexer :=
  { l with tokens := l.tokens.insertIdxIfInBounds position token }

/-- Closes the block collections that are indented more than a column. -/
def closeBlocks (column : Int) : List Int → Lexer → Lexer
  | [], l => l
  | indent :: outer, l =>
      if column < l.indent then
        closeBlocks column outer { l.push .blockEnd with indent := indent, outer := outer }
      else l

def unindent (l : Lexer) (column : Int) : Lexer :=
  if l.inFlow then l else closeBlocks column l.outer l

/-- Opens a block collection at a column that is indented more than the innermost one. -/
def openBlock (l : Lexer) (column position : Nat) (token : Token) : Lexer :=
  if !l.inFlow && l.indent < column then
    { l.insert position token with indent := column, outer := l.indent :: l.outer }
  else l

/-- Gives up the innermost pending key, which must not be a required one. -/
def dropPending (l : Lexer) : Option Lexer :=
  match l.pending with
  | some key => if key.required then none else some { l with pending := none }
  | none => some l

/-- A key stands on one line and is no longer than 1024 characters. -/
def PendingKey.isStale (key : PendingKey) (g : Glyph) : Bool :=
  key.line < g.line || key.column + 1024 < g.column

/-- Gives up the pending keys that can no longer be keys. -/
def dropStale (l : Lexer) (g : Glyph) : Option Lexer :=
  let stale (pending : Option PendingKey) : Bool :=
    pending.any fun key => PendingKey.isStale key g
  let lost (pending : Option PendingKey) : Bool :=
    stale pending && pending.any PendingKey.required
  let kept (pending : Option PendingKey) : Option PendingKey :=
    if stale pending then none else pending
  if lost l.pending || l.outerPending.any lost then none
  else some { l with pending := kept l.pending, outerPending := l.outerPending.map kept }

/-- Notes that what begins here may turn out to be a key. -/
def expectKey (l : Lexer) (g : Glyph) : Option Lexer :=
  if l.keyAllowed then do
    let required := !l.inFlow && l.indent == g.column
    let l ← l.dropPending
    some { l with pending := some ⟨required, l.tokens.size, g.line, g.column⟩ }
  else some l

/-- The gap and the comments before the next token.  A tab may not stand where a key could
begin. -/
def skipGap : Nat → Lexer → List Glyph → Lexer × List Glyph
  | 0, l, source => (l, source)
  | fuel + 1, l, source =>
      let source :=
        match source with
        | g :: rest => if g.column == 0 && g.char == '\ufeff' then rest else source
        | [] => []
      let source := source.dropWhile fun g =>
        g.char == ' ' || ((l.inFlow || !l.keyAllowed) && g.char == '\t')
      let source := if startsWith (· == '#') source then dropLine source else source
      match source with
      | g :: rest =>
          if isBreak g.char then
            skipGap fuel { l with keyAllowed := l.keyAllowed || !l.inFlow } rest
          else (l, source)
      | [] => (l, [])

/-! ## One token -/

abbrev Step := Option (Lexer × List Glyph)

def ofDirective (l : Lexer) (rest : List Glyph) : Step := do
  let l ← (l.unindent (-1)).dropPending
  let (directive, rest) ← directive rest
  some ({ l.push (.directive directive) with keyAllowed := false }, rest)

def ofDocumentMark (l : Lexer) (token : Token) (source : List Glyph) : Step := do
  let l ← (l.unindent (-1)).dropPending
  some ({ l.push token with keyAllowed := false }, source.drop 3)

def ofFlowStart (l : Lexer) (token : Token) (g : Glyph) (rest : List Glyph) : Step := do
  let l ← l.expectKey g
  some ({ l.push token with
    pending := none, outerPending := l.pending :: l.outerPending, keyAllowed := true }, rest)

def ofFlowEnd (l : Lexer) (token : Token) (rest : List Glyph) : Step := do
  let l ← l.dropPending
  let l :=
    match l.outerPending with
    | pending :: outer => { l with pending := pending, outerPending := outer }
    | [] => l
  some ({ l.push token with keyAllowed := false }, rest)

def ofFlowEntry (l : Lexer) (rest : List Glyph) : Step := do
  let l ← l.dropPending
  some ({ l.push .flowEntry with keyAllowed := true }, rest)

/-- An item of a block sequence.  Inside flow collections it is left to the grammar. -/
def ofEntry (l : Lexer) (g : Glyph) (rest : List Glyph) : Step :=
  if !l.inFlow && !l.keyAllowed then none
  else do
    let l ← (l.openBlock g.column l.tokens.size .sequenceStart).dropPending
    some ({ l.push .entry with keyAllowed := true }, rest)

/-- A key marked by a question mark. -/
def ofKey (l : Lexer) (g : Glyph) (rest : List Glyph) : Step :=
  if !l.inFlow && !l.keyAllowed then none
  else do
    let l ← (l.openBlock g.column l.tokens.size .mappingStart).dropPending
    some ({ l.push .key with keyAllowed := !l.inFlow }, rest)

/-- A colon, which makes a pending key one. -/
def ofValue (l : Lexer) (g : Glyph) (rest : List Glyph) : Step :=
  match l.pending with
  | some key =>
      let l := (l.insert key.position .key).openBlock key.column key.position .mappingStart
      some ({ l.push .value with pending := none, keyAllowed := false }, rest)
  | none =>
      if !l.inFlow && !l.keyAllowed then none
      else
        let l := l.openBlock g.column l.tokens.size .mappingStart
        some ({ l.push .value with keyAllowed := !l.inFlow }, rest)

def ofName (l : Lexer) (token : List Char → Token) (g : Glyph) (rest : List Glyph) : Step := do
  let l ← l.expectKey g
  let (name, rest) ← anchorName rest
  some ({ l.push (token name) with keyAllowed := false }, rest)

/-- A tag; inside flow collections a comma may follow it directly. -/
def ofTag (l : Lexer) (g : Glyph) (rest : List Glyph) : Step := do
  let l ← l.expectKey g
  let (spelling, rest) ← tagSpelling (g :: rest)
  if atWordEnd rest || (l.inFlow && startsWith (· == ',') rest) then
    some ({ l.push (.tag spelling) with keyAllowed := false }, rest)
  else none

def ofBlockScalar (l : Lexer) (literal : Bool) (rest : List Glyph) : Step := do
  let l ← l.dropPending
  let (text, rest) ← blockScalar literal l.indent rest
  let style := if literal then Style.literal else Style.quoted
  some ({ l.push (.scalar style text) with keyAllowed := true }, rest)

def ofQuotedScalar (l : Lexer) (g : Glyph) (rest : List Glyph) : Step := do
  let l ← l.expectKey g
  let (text, rest) ← quotedScalar g.char rest
  some ({ l.push (.scalar .quoted text) with keyAllowed := false }, rest)

def ofPlainScalar (l : Lexer) (g : Glyph) (rest : List Glyph) : Step := do
  let l ← l.expectKey g
  let scalar ← plainScalar l.inFlow (l.indent + 1) (g :: rest)
  some ({ l.push (.scalar .plain scalar.text) with keyAllowed := scalar.lineEnded }, scalar.rest)

/-- The characters that no plain scalar begins with. -/
def isIndicator (c : Char) : Bool :=
  ['-', '?', ':', ',', '[', ']', '{', '}', '#', '&', '*', '!', '|', '>', '\'', '"', '%', '@',
    '`'].contains c

/-- Whether a plain scalar may begin here; a few indicators may begin one if a word goes on. -/
def mayBePlain (l : Lexer) (g : Glyph) (rest : List Glyph) : Bool :=
  if g.char == '-' then !startsWith isSpace rest
  else if g.char == '?' || g.char == ':' then !l.inFlow && !atWordEnd rest
  else !isGap g.char && !isIndicator g.char

/-- The token that begins here. -/
def token (l : Lexer) (g : Glyph) (rest : List Glyph) : Step :=
  let separate := l.inFlow || atWordEnd rest
  if g.column == 0 && g.char == '%' then l.ofDirective rest
  else if atTriple '-' (g :: rest) then l.ofDocumentMark .documentStart (g :: rest)
  else if atTriple '.' (g :: rest) then l.ofDocumentMark .documentEnd (g :: rest)
  else
    match g.char with
    | '[' => l.ofFlowStart .flowSequenceStart g rest
    | '{' => l.ofFlowStart .flowMappingStart g rest
    | ']' => l.ofFlowEnd .flowSequenceEnd rest
    | '}' => l.ofFlowEnd .flowMappingEnd rest
    | ',' => l.ofFlowEntry rest
    | '*' => l.ofName .alias g rest
    | '&' => l.ofName .anchor g rest
    | '!' => l.ofTag g rest
    | '\'' => l.ofQuotedScalar g rest
    | '"' => l.ofQuotedScalar g rest
    | c =>
        if c == '-' && atWordEnd rest then l.ofEntry g rest
        else if c == '?' && separate then l.ofKey g rest
        else if c == ':' && separate then l.ofValue g rest
        else if c == '|' && !l.inFlow then l.ofBlockScalar true rest
        else if c == '>' && !l.inFlow then l.ofBlockScalar false rest
        else if l.mayBePlain g rest then l.ofPlainScalar g rest
        else none

/-- All tokens from here on; `fuel` bounds their number. -/
def run : Nat → Lexer → List Glyph → Option (Array Token)
  | 0, _, _ => none
  | fuel + 1, l, source =>
      match l.skipGap (source.length + 1) source with
      | (l, []) => ((l.unindent (-1)).dropPending).map Lexer.tokens
      | (l, g :: rest) => do
          let l ← l.dropStale g
          let (l, rest) ← (l.unindent g.column).token g rest
          run fuel l rest

end Lexer

/-- The tokens of a text. -/
def tokens? (text : List Char) : Option (List Token) := do
  let source ← glyphs? text
  (← Lexer.start.run (source.length + 1) source).toList

end Yaml

end Reconcile
