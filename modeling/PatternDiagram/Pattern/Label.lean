import PatternDiagram.Pattern.Basic
import PatternDiagram.Text.Numeral

/-!
# The texts in a diagram

One text for every leaf of a pattern:

* `EscapeClass.label`, `EscapeClass.source`: a named set in words, and as it is typed;
* `CharacterClass.label`: a class in the form in which it could be typed again;
* `Literal.label`, `Anchor.label`, `Target.label`: the other leaves.
-/

namespace PatternDiagram

/-! ## 1. Named sets -/

/-- A named set in words. -/
def EscapeClass.label : EscapeClass → String
  | .digit => "digit"
  | .nonDigit => "non-digit"
  | .word => "word"
  | .nonWord => "non-word"
  | .whitespace => "white space"
  | .nonWhitespace => "non-white space"

/-- The letter of a named set's escape. -/
def EscapeClass.letter : EscapeClass → Char
  | .digit => 'd'
  | .nonDigit => 'D'
  | .word => 'w'
  | .nonWord => 'W'
  | .whitespace => 's'
  | .nonWhitespace => 'S'

/-- A named set as it is typed. -/
def EscapeClass.source (e : EscapeClass) : List Char := ['\\', e.letter]

/-! ## 2. Classes -/

/-- The character is a control character: C0, the delete character or C1. -/
def isControl (c : Char) : Bool := c.toNat < 0x20 || (0x7F ≤ c.toNat && c.toNat < 0xA0)

/-- A character in a class. Those that mean something there get a backslash, and control characters
    are written by name or by number. -/
def classChar (c : Char) : List Char :=
  if c = '\\' ∨ c = ']' ∨ c = '^' ∨ c = '-' then ['\\', c]
  else if c = '\n' then ['\\', 'n']
  else if c = '\r' then ['\\', 'r']
  else if c = '\t' then ['\\', 't']
  else if isControl c then '\\' :: 'u' :: Numeral.paddedUpper 4 16 c.toNat
  else [c]

/-- One item of a class as it is typed. -/
def ClassItem.source : ClassItem → List Char
  | .char c => classChar c
  | .range lo hi => classChar lo ++ '-' :: classChar hi
  | .escape e => e.source

/-- A class as it is typed. -/
def CharacterClass.source (c : CharacterClass) : List Char :=
  '[' :: ((if c.negated then ['^'] else []) ++ c.items.flatMap ClassItem.source ++ [']'])

/-- The text that shows a class. -/
def CharacterClass.label (c : CharacterClass) : String := String.ofList c.source

/-! ## 3. Single characters -/

/-- An escaped character in words or by its number, in the way it was written. -/
def escapedLabel (value : Char) : EscapeForm → String
  | .lineFeed => "line feed (0x0A)"
  | .carriageReturn => "carriage return (0x0D)"
  | .tab => "tab (0x09)"
  | .verticalTab => "vertical tab (0x0B)"
  | .formFeed => "form feed (0x0C)"
  | .backspace => "backspace (0x08)"
  | .null => "null (0x00)"
  | .control letter => "ctrl-" ++ String.ofList [letter.toUpper]
  | .hex => "0x" ++ String.ofList (Numeral.paddedUpper 2 16 value.toNat)
  | .unicode => "U+" ++ String.ofList (Numeral.paddedUpper 4 16 value.toNat)
  | .octal => "octal: " ++ String.ofList (Numeral.write 8 value.toNat)

/-- A text in quotation marks, as it stands. -/
def quotedRun (cs : List Char) : String := String.ofList ('"' :: (cs ++ ['"']))

/-- The text that shows a literal. -/
def Literal.label : Literal → String
  | .char c => quotedRun [c]
  | .any => "any character"
  | .set e => e.label
  | .escaped value form => escapedLabel value form

/-! ## 4. Places and references -/

/-- The text that shows an anchor. -/
def Anchor.label : Anchor → String
  | .start => "Start of line"
  | .finish => "End of line"
  | .wordBoundary => "word boundary"
  | .nonWordBoundary => "non-word boundary"

/-- A target in a diagram: a number after its sign, a name in quotation marks. -/
def Target.label : Target → String
  | .index n => "#" ++ Numeral.decimal n
  | .name s => "\"" ++ s ++ "\""

end PatternDiagram
