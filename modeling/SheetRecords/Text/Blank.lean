/-!
# Blank characters

`isBlank` is the Unicode property `White_Space`: the 25 characters of `blankCodePoints`.  It is
wider than `Char.isWhitespace`, which knows the ASCII blanks alone.  `trimBlanks` removes the blank
characters at both ends of a text and no others.
-/

namespace SheetRecords.Text

/-- The code points with the property `White_Space`. -/
def blankCodePoints : List Nat :=
  [0x9, 0xA, 0xB, 0xC, 0xD, 0x20, 0x85, 0xA0, 0x1680, 0x2000, 0x2001, 0x2002, 0x2003, 0x2004,
    0x2005, 0x2006, 0x2007, 0x2008, 0x2009, 0x200A, 0x2028, 0x2029, 0x202F, 0x205F, 0x3000]

/-- Whether `c` has the property `White_Space`. -/
def isBlank (c : Char) : Bool :=
  blankCodePoints.contains c.toNat

/-- The characters without the blanks at either end. -/
def trimBlanks (cs : List Char) : List Char :=
  ((cs.dropWhile isBlank).reverse.dropWhile isBlank).reverse

/-- Whether the text holds blank characters only, or none at all. -/
def isAllBlank (s : String) : Bool :=
  s.toList.all isBlank

end SheetRecords.Text
