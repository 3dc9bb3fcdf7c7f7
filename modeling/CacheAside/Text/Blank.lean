import CacheAside.Text.CodeRanges

/-!
# Blank characters

A character is blank when it has the Unicode property White_Space: 25 code points, of which only
six are ASCII.  The separators U+001C to U+001F, the zero-width space and the byte order mark are
not blank.
-/

namespace CacheAside.Text

/-- The property White_Space. -/
def blankRanges : CodeRanges :=
  [(0x9, 0xD), (0x20, 0x20), (0x85, 0x85), (0xA0, 0xA0), (0x1680, 0x1680), (0x2000, 0x200A),
    (0x2028, 0x2029), (0x202F, 0x202F), (0x205F, 0x205F), (0x3000, 0x3000)]

/-- Whether `c` has the property White_Space. -/
def isBlank (c : Char) : Bool :=
  blankRanges.contains c

/-- The text from its first character that is not blank. -/
def trimStart (cs : List Char) : List Char :=
  cs.dropWhile isBlank

/-- The text without the blanks at its two ends. -/
def trim (cs : List Char) : List Char :=
  (trimStart (trimStart cs).reverse).reverse

/-- A text is blank when nothing is left of it between its blanks. -/
def allBlank (s : String) : Bool :=
  s.toList.all isBlank

end CacheAside.Text
