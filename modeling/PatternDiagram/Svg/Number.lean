import PatternDiagram.Decimal.Fixed

/-!
# Numbers in a document

A whole number is written without a point, any other number with two places after it, less the
noughts at the end. Whether a number is whole is settled before it is rounded:

* `Svg.number`: the text of a coordinate;
* `Svg.magnitude`: the text of a quotient.
-/

namespace PatternDiagram.Svg

open Binary (Fraction)

/-- The text without the noughts at its end. -/
def dropNoughts (cs : List Char) : List Char := (cs.reverse.dropWhile (· == '0')).reverse

/-- A magnitude: whole, or with at most two places. -/
def magnitude (f : Fraction) : List Char :=
  if f.isWhole then Fixed.write 0 f else dropNoughts (Fixed.write 2 f)

/-- A coordinate in a document. -/
def number (x : Float) : List Char :=
  match Binary.ofFloat x with
  | .nan => ['N', 'a', 'N']
  | .infinite false => ['i', 'n', 'f']
  | .infinite true => ['-', 'i', 'n', 'f']
  | .finite negative m q =>
      (if negative then ['-'] else []) ++ magnitude (Binary.fraction m q)

end PatternDiagram.Svg
