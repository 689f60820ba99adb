import Reconcile.Yaml.Document

/-!
# Writing YAML

A value as a document in block style, two columns for each level.  Text stands plain where it
reads back as itself, else in quotes, and as a block where it has several lines.
-/

namespace Reconcile

namespace Yaml

/-! ## Text of scalars -/

/-- The layout of doubles: like that of JSON, but without a plus sign. -/
def doubleLayout : Binary64.Layout where
  tie := .even
  positional := some (-5, 16)
  wholeHasPoint := true
  plusExponent := false
  nan := ".nan"
  infinity := ".inf"
  negativeInfinity := "-.inf"

/-- Whether a character ends a line in written text; two of them have to be escaped. -/
def endsLine (c : Char) : Bool := isBreak c || c == '\r' || c == '\u0085'

/-- The characters that need no escape. -/
def isPrintable (c : Char) : Bool :=
  let code := c.toNat
  code == 0xa || (0x20 ≤ code && code ≤ 0x7e) || (0xa0 ≤ code && code ≤ 0xd7ff) ||
    (0xe000 ≤ code && code ≤ 0xfffd && code ≠ 0xfeff) || 0x10000 ≤ code

/-- Whether a character is followed by another of some kind. -/
def hasPair (first second : Char → Bool) (text : List Char) : Bool :=
  (text.zip (text.drop 1)).any fun (a, b) => first a && second b

/-- Whether a space touches a line end. -/
def hasSpacedBreak (text : List Char) : Bool :=
  hasPair endsLine (· == ' ') text || hasPair (· == ' ') endsLine text

/-- Whether text would be taken for a structure: it begins with an indicator or a document mark,
or holds a colon before a gap or a number sign after one. -/
def hasIndicator (text : List Char) : Bool :=
  let gap (c : Char) : Bool := isSpace c || endsLine c
  let beforeGap : Bool := (text.drop 1).head?.all gap
  match text with
  | [] => false
  | c :: rest =>
      ['#', ',', '[', ']', '{', '}', '&', '*', '!', '|', '>', '\'', '"', '%', '@', '`'].contains c ||
        (['?', ':', '-'].contains c && beforeGap) ||
        ['-', '-', '-'].isPrefixOf text || ['.', '.', '.'].isPrefixOf text ||
        hasPair (· == ':') gap rest || rest.getLast? == some ':' || hasPair gap (· == '#') text

def isPlainAllowed (text : List Char) : Bool :=
  let edge (c : Char) : Bool := c == ' ' || endsLine c
  !text.head?.any edge && !text.getLast?.any edge && text.all isPrintable && !text.any endsLine &&
    !hasIndicator text

def isSingleQuotedAllowed (text : List Char) : Bool :=
  text.all isPrintable && !hasSpacedBreak text

def isBlockAllowed (text : List Char) : Bool :=
  text.all isPrintable && text.getLast? ≠ some ' ' && !hasPair (· == ' ') endsLine text

inductive WrittenStyle where
  | plain
  | singleQuoted
  | doubleQuoted
  | literal
deriving DecidableEq

/-- The style of text, which no block can have as a key on one line. -/
def WrittenStyle.ofText (text : List Char) (inKey : Bool) : WrittenStyle :=
  if text.contains '\n' then
    if isBlockAllowed text && !inKey then literal else doubleQuoted
  else if Scalar.isText text && isPlainAllowed text then plain
  else if isSingleQuotedAllowed text then singleQuoted
  else doubleQuoted

/-- Upper-case hexadecimal digits. -/
def hexDigits (width n : Nat) : List Char :=
  let digits := (Nat.toDigits 16 n).map Char.toUpper
  List.replicate (width - digits.length) '0' ++ digits

/-- A character between double quotes. -/
def escape (c : Char) : List Char :=
  let code := c.toNat
  if isPrintable c && !isBreak c && c ≠ '"' && c ≠ '\\' then [c]
  else
    match letterEscapes.find? fun (letter, meaning) => meaning == c && letter ≠ '\t' with
    | some (letter, _) => ['\\', letter]
    | none =>
        if code ≤ 0xff then '\\' :: 'x' :: hexDigits 2 code
        else if code ≤ 0xffff then '\\' :: 'u' :: hexDigits 4 code
        else '\\' :: 'U' :: hexDigits 8 code

/-- A character of a tag; others than those of tags are written as octets. -/
def tagEscape (c : Char) : List Char :=
  if isTagChar true c then [c]
  else (c.toString.toUTF8.toList).flatMap fun octet => '%' :: hexDigits 2 octet.toNat

/-- How the head of a block says that it begins with a space or an empty line. -/
def blockIndentHint (text : List Char) : List Char :=
  if text.head?.any fun c => c == ' ' || endsLine c then ['2'] else []

/-- How the head of a block says how it ends: in no line break or in several. -/
def blockEndHint (text : List Char) : List Char :=
  match text.reverse with
  | [] => ['-']
  | [c] => if endsLine c then ['+'] else ['-']
  | c :: before :: _ => if !endsLine c then ['-'] else if endsLine before then ['+'] else []

/-! ## The page -/

/-- What has been written, the last character first. -/
structure Page where
  written : List Char
  column : Nat
  /-- the last thing written separates what follows -/
  separated : Bool
  /-- only indentation and indicators stand on the line -/
  fresh : Bool

namespace Page

def blank : Page := ⟨[], 0, true, true⟩

def put (p : Page) (c : Char) : Page :=
  { p with written := c :: p.written, column := if endsLine c then 0 else p.column + 1 }

def putAll (p : Page) (text : List Char) : Page := text.foldl put p

/-- Goes to a column, on a new line unless only indentation stands before it. -/
def indentTo (p : Page) (column : Nat) : Page :=
  let p := if !p.fresh || column < p.column || (p.column == column && !p.separated) then p.put '\n'
    else p
  { p.putAll (List.replicate (column - p.column) ' ') with separated := true, fresh := true }

def separate (p : Page) : Page := if p.separated then p else p.put ' '

/-- An indicator that opens an entry; more of them may follow on the line. -/
def opening (p : Page) (c : Char) : Page :=
  { p.separate.put c with separated := false }

/-- Text that does not begin a line. -/
def word (p : Page) (text : List Char) : Page :=
  { p.putAll text with separated := false, fresh := false }

/-- The lines of a scalar, each line after a break put at a column. -/
def lines (column : Nat) : List Char → Bool → Page → Page
  | [], _, p => p
  | c :: rest, afterBreak, p =>
      if endsLine c then lines column rest true { p.put c with fresh := true }
      else
        let p := if afterBreak then p.indentTo column else p
        lines column rest false { p.put c with fresh := false }

/-- Text in a style, its further lines at a column. -/
def text (p : Page) (style : WrittenStyle) (column : Nat) (text : List Char) : Page :=
  match style with
  | .plain => p.separate.word text
  | .singleQuoted =>
      let quoted := text.flatMap fun c => if c == '\'' then ['\'', '\''] else [c]
      let p := lines column quoted false (p.separate.word ['\''])
      (if text.getLast?.any endsLine then p.indentTo column else p).word ['\'']
  | .doubleQuoted => p.separate.word ('"' :: text.flatMap escape ++ ['"'])
  | .literal =>
      let p := p.separate.word ('|' :: blockIndentHint text ++ blockEndHint text ++ ['\n'])
      lines column text true { p with separated := true, fresh := true }

end Page

/-! ## Nodes -/

/-- The text of a scalar and its style. -/
def Scalar.written (s : Scalar) (inKey : Bool) : WrittenStyle × List Char :=
  match s with
  | null => (.plain, "null".toList)
  | bool true => (.plain, "true".toList)
  | bool false => (.plain, "false".toList)
  | integer n => (.plain, Text.integer n)
  | double x => (.plain, (doubleLayout.text x).toList)
  | string s => (WrittenStyle.ofText s.toList inKey, s.toList)

/-- Whether a value can be a key on one line: short, and with nothing inside. -/
def isSimpleKey : Yaml → Bool
  | scalar s =>
      let text := (s.written true).2
      !text.any endsLine && (String.ofList text).utf8ByteSize ≤ 128
  | sequence items => items.isEmpty
  | mapping members => members.isEmpty
  | tagged tag (scalar s) =>
      let text := (s.written true).2
      !text.any endsLine && (String.ofList (tag ++ text)).utf8ByteSize + 1 ≤ 128
  | tagged tag (sequence items) =>
      items.isEmpty && (String.ofList tag).utf8ByteSize + 1 ≤ 128
  | tagged tag (mapping members) =>
      members.isEmpty && (String.ofList tag).utf8ByteSize + 1 ≤ 128
  | tagged _ (tagged _ _) => false

/-- Where a node stands: the indentation of the collection around it, none for the whole
document, whether that is a mapping, and whether the node is a key on one line. -/
structure Place where
  indent : Option Nat
  inMapping : Bool
  inKey : Bool

def Place.deeper (place : Place) : Nat := (place.indent.map (· + 2)).getD 0

/-- The indentation of a sequence; as the value of a key it is not indented further. -/
def Place.sequenceIndent (place : Place) (p : Page) : Nat :=
  if place.inMapping && !p.fresh then place.indent.getD 0 else place.deeper

mutual

def writeNode (place : Place) : Yaml → Page → Page
  | scalar s, p =>
      let (style, text) := s.written place.inKey
      p.text style ((place.indent.getD 0) + 2) text
  | sequence [], p => p.separate.word ['[', ']']
  | mapping [], p => p.separate.word ['{', '}']
  | sequence items, p => writeItems (place.sequenceIndent p) items p
  | mapping members, p => writeMembers place.deeper members p
  | tagged tag value, p =>
      writeNode place value (p.separate.word ('!' :: tag.flatMap tagEscape))

def writeItems (indent : Nat) : List Yaml → Page → Page
  | [], p => p
  | item :: rest, p =>
      let p := (p.indentTo indent).opening '-'
      writeItems indent rest (writeNode ⟨some indent, false, false⟩ item p)

def writeMembers (indent : Nat) : List (Yaml × Yaml) → Page → Page
  | [], p => p
  | (key, value) :: rest, p =>
      let p := p.indentTo indent
      let p :=
        if isSimpleKey key then (writeNode ⟨some indent, true, true⟩ key p).word [':']
        else
          let p := writeNode ⟨some indent, true, false⟩ key (p.opening '?')
          (p.indentTo indent).opening ':'
      writeMembers indent rest (writeNode ⟨some indent, true, false⟩ value p)

end

/-- The text of a value as a whole document. -/
def text (value : Yaml) : List Char :=
  ((writeNode ⟨none, false, false⟩ value .blank).indentTo 0).written.reverse

example : text (.mapping [(.scalar (.string "a"), .scalar (.integer 1)),
    (.scalar (.string "b"), .sequence [.scalar (.string "x"), .scalar (.string "y")])]) =
    "a: 1\nb:\n- x\n- y\n".toList := by decide +kernel

end Yaml

end Reconcile
