import PatternDiagram.Text.CodeRange

/-!
# Blanks

* `isBlank`: the 25 characters of the Unicode property White_Space;
* `trimBlanks`: a text without the blanks at its ends.
-/

namespace PatternDiagram

/-- The blanks: the controls from tab to carriage return, the space, the next line control, the
    no-break space, and the spaces and separators of general punctuation and ideographic text. -/
def blankRanges : List CodeRange :=
  [(0x09, 0x0D), (0x20, 0x20), (0x85, 0x85), (0xA0, 0xA0), (0x1680, 0x1680), (0x2000, 0x200A),
    (0x2028, 0x2029), (0x202F, 0x202F), (0x205F, 0x205F), (0x3000, 0x3000)]

/-- The character is a blank. -/
def isBlank (c : Char) : Bool := inRanges blankRanges c.toNat

/-- The text without the blanks at both of its ends. -/
def trimBlanks (cs : List Char) : List Char :=
  ((cs.dropWhile isBlank).reverse.dropWhile isBlank).reverse

end PatternDiagram
