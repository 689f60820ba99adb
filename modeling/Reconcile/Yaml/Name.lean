import Reconcile.Text.Digits
import Reconcile.Yaml.Glyph

/-!
# Names, tags and directives

The words of YAML that are not scalars: the names of anchors, the tags of nodes, and the
directives before a document.
-/

namespace Reconcile

namespace Yaml

def isNameChar (c : Char) : Bool := c.isAlphanum || c == '-' || c == '_'

/-- The name of an anchor or alias.  Only a gap or one of a few marks may follow it. -/
def anchorName (source : List Glyph) : Option (List Char × List Glyph) :=
  let name := source.takeWhile fun g => isNameChar g.char
  let rest := source.dropWhile fun g => isNameChar g.char
  let mayFollow (c : Char) : Bool := ['?', ':', ',', ']', '}', '%', '@', '`'].contains c
  if !name.isEmpty && (atWordEnd rest || startsWith mayFollow rest) then some (chars name, rest)
  else none

/-! ## Tags -/

/-- The characters of a tag's text; `bracketed` ones may also hold the marks of flow sequences. -/
def isTagChar (bracketed : Bool) (c : Char) : Bool :=
  isNameChar c || [';', '/', '?', ':', '@', '&', '=', '+', '$', '.', '!', '~', '*', '\'', '(',
    ')'].contains c || (bracketed && [',', '[', ']'].contains c)

/-- An octet after a percent sign. -/
def percentOctet? (source : List Glyph) : Option UInt8 :=
  match chars (source.take 2) with
  | [high, low] => (Text.natOfText? 16 [high, low]).map UInt8.ofNat
  | _ => none

/-- The octets of a tag's text, up to the first character that cannot belong to it. -/
def tagOctets (bracketed : Bool) : Nat → List Glyph → Option (List UInt8 × List Glyph)
  | 0, _ => none
  | _ + 1, [] => some ([], [])
  | fuel + 1, g :: rest =>
      if g.char == '%' then do
        let octet ← percentOctet? rest
        let (octets, rest) ← tagOctets bracketed fuel (rest.drop 2)
        some (octet :: octets, rest)
      else if isTagChar bracketed g.char then do
        let (octets, rest) ← tagOctets bracketed fuel rest
        some (g.char.toString.toUTF8.toList ++ octets, rest)
      else some ([], g :: rest)

def tagText (bracketed : Bool) (source : List Glyph) : Option (List Char × List Glyph) := do
  let (octets, rest) ← tagOctets bracketed (source.length + 1) source
  let text ← String.fromUTF8? ⟨octets.toArray⟩
  some (text.toList, rest)

/-- The handle at the start of a tag: an exclamation mark, name characters, and a second
exclamation mark if there is one. -/
def tagHandle (source : List Glyph) : Option (List Char × List Glyph) :=
  match source with
  | [] => none
  | g :: rest =>
      if g.char == '!' then
        let name := rest.takeWhile fun g => isNameChar g.char
        let rest := rest.dropWhile fun g => isNameChar g.char
        if startsWith (· == '!') rest then some ('!' :: chars name ++ ['!'], rest.drop 1)
        else some ('!' :: chars name, rest)
      else none

/-- A tag as spelled: what follows a handle, or the whole text if the handle is empty. -/
structure TagSpelling where
  handle : List Char
  suffix : List Char

/-- A tag from its exclamation mark on. -/
def tagSpelling (source : List Glyph) : Option (TagSpelling × List Glyph) := do
  match source.drop 1 with
  | [] => some (⟨[], ['!']⟩, [])
  | g :: rest =>
      if g.char == '<' then
        let (text, rest) ← tagText true rest
        if !text.isEmpty && startsWith (· == '>') rest then some (⟨[], text⟩, rest.drop 1) else none
      else
        let (handle, rest) ← tagHandle source
        let (text, rest) ← tagText false rest
        if 2 ≤ handle.length ∧ handle.getLast? = some '!' then
          if text.isEmpty then none else some (⟨handle, text⟩, rest)
        else
          match handle.drop 1 ++ text with
          | [] => some (⟨[], ['!']⟩, rest)
          | suffix => some (⟨['!'], suffix⟩, rest)

/-! ## Directives -/

inductive Directive where
  /-- the version of the language -/
  | version (major minor : Nat)
  /-- what a handle stands for -/
  | handle (name expansion : List Char)

/-- One to nine digits. -/
def versionNumber (source : List Glyph) : Option (Nat × List Glyph) :=
  let digits := chars (source.takeWhile fun g => Text.isDigit g.char)
  if digits.length ≤ 9 then
    (Text.natOfText? 10 digits).map fun n => (n, source.dropWhile fun g => Text.isDigit g.char)
  else none

def versionDirective (source : List Glyph) : Option (Directive × List Glyph) := do
  let (major, rest) ← versionNumber (dropSpaces source)
  if startsWith (· == '.') rest then
    let (minor, rest) ← versionNumber (rest.drop 1)
    some (.version major minor, rest)
  else none

def handleDirective (source : List Glyph) : Option (Directive × List Glyph) := do
  let (handle, rest) ← tagHandle (dropSpaces source)
  if handle = ['!'] ∨ handle.getLast? = some '!' then
    if startsWith isSpace rest then
      let (expansion, rest) ← tagText true (dropSpaces rest)
      if !expansion.isEmpty && atWordEnd rest then some (.handle handle expansion, rest) else none
    else none
  else none

/-- A directive after its percent sign, with the rest of its line. -/
def directive (source : List Glyph) : Option (Directive × List Glyph) := do
  let name := chars (source.takeWhile fun g => isNameChar g.char)
  let rest := source.dropWhile fun g => isNameChar g.char
  if atWordEnd rest then
    let (directive, rest) ←
      if name = "YAML".toList then versionDirective rest
      else if name = "TAG".toList then handleDirective rest
      else none
    some (directive, ← lineRest? rest)
  else none

end Yaml

end Reconcile
