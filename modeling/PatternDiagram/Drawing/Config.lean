import PatternDiagram.Plane.Coordinate

/-!
# Measures of a drawing

* `Config`: the widths, heights and distances that a drawing is made with, and how long a new
  drawing waits for the one before it;
* `Config.standard`: the usual measures; `Config.withFont`: those of another font;
* `Config.textSize`: the size of a line of text. Text is counted, not set: every character is as
  wide as the next.
-/

namespace PatternDiagram

/-- Measures of a drawing. -/
structure Config (α : Type) where
  /-- The width of a character. -/
  charWidth : α
  fontSize : α
  lineHeight : α
  /-- The distance around the whole drawing. -/
  margin : α
  /-- How many milliseconds a drawing waits after it has called off the one before it. -/
  cancelDelay : Nat := 10
  /-- The distance between the items of a sequence. -/
  sequencePadding : α
  /-- The distance between the branches of an alternation. -/
  alternationPadding : α
  deriving DecidableEq, Repr

namespace Config

variable {α : Type} [Coordinate α]

/-- The measures that go with a font: a line is seven sixths of the font's size high. -/
def withFont (charWidth fontSize : α) : Config α where
  charWidth := charWidth
  fontSize := fontSize
  lineHeight := fontSize * Coordinate.ofNat 7 / Coordinate.ofNat 6
  margin := Coordinate.ofNat 10
  sequencePadding := Coordinate.ofNat 10
  alternationPadding := Coordinate.ofNat 5

/-- The usual measures. -/
def standard : Config α := withFont (Coordinate.ofNat 7) (Coordinate.ofNat 12)

/-- The width and the height of a line of text. -/
def textSize (c : Config α) (text : String) : α × α :=
  (Coordinate.ofNat text.length * c.charWidth, c.lineHeight)

end Config

end PatternDiagram
