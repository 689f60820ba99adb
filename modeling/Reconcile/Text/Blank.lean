import Reconcile.CoreInstances

/-!
# Blank characters

The white space of texts: the twenty-five code points with the Unicode property `White_Space`.
-/

namespace Reconcile

namespace Text

/-- The code points of the property `White_Space`. -/
def blankCodes : List Nat :=
  [0x9, 0xa, 0xb, 0xc, 0xd, 0x20, 0x85, 0xa0, 0x1680, 0x2000, 0x2001, 0x2002, 0x2003, 0x2004,
    0x2005, 0x2006, 0x2007, 0x2008, 0x2009, 0x200a, 0x2028, 0x2029, 0x202f, 0x205f, 0x3000]

def isBlank (c : Char) : Bool := blankCodes.contains c.toNat

def trimStart (text : List Char) : List Char := text.dropWhile isBlank

def trimEnd (text : List Char) : List Char := (text.reverse.dropWhile isBlank).reverse

def trim (text : List Char) : List Char := trimEnd (trimStart text)

example : blankCodes.length = 25 ∧ isBlank '\u200b' = false := by decide

end Text

end Reconcile
