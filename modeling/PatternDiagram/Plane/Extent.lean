import PatternDiagram.Plane.Box

/-!
# Extents

The smallest box around points and boxes that come in one after the other:

* `Span`: a closed interval of coordinates;
* `Extent`: what is known so far of each axis, `none` if nothing is;
* `Extent.addPoint`, `Extent.addBox`: one thing more;
* `Extent.toRaw`: the box around all of it.

A coordinate that is not a number bounds nothing.
-/

namespace PatternDiagram

variable {α : Type} [Coordinate α]

/-- A closed interval. -/
structure Span (α : Type) where
  low : α
  high : α
  deriving DecidableEq, Repr

/-- The interval, widened as far as one more coordinate. -/
def Span.widen : Option (Span α) → α → Option (Span α)
  | none, x => if Coordinate.IsNumber x then some ⟨x, x⟩ else none
  | some s, x => some ⟨Coordinate.least s.low x, Coordinate.greatest s.high x⟩

/-- What is known so far of each axis. -/
structure Extent (α : Type) where
  horizontal : Option (Span α) := none
  vertical : Option (Span α) := none
  deriving DecidableEq, Repr

namespace Extent

/-- Nothing is known yet. -/
def empty : Extent α := {}

/-- One more point. -/
def addPoint (e : Extent α) (x y : α) : Extent α where
  horizontal := Span.widen e.horizontal x
  vertical := Span.widen e.vertical y

/-- One more box, given by its upper left corner and its size. -/
def addBox (e : Extent α) (x y width height : α) : Extent α :=
  (e.addPoint x y).addPoint (x + width) (y + height)

/-- Nothing has been added that bounds the extent on the left and on the right. -/
def isEmpty (e : Extent α) : Bool := e.horizontal.isNone

/-- The lower bound on one axis. -/
def low (s : Option (Span α)) : α :=
  match s with
  | some s => s.low
  | none => Coordinate.voidLow

/-- The upper bound on one axis. -/
def high (s : Option (Span α)) : α :=
  match s with
  | some s => s.high
  | none => Coordinate.voidHigh

/-- The box around everything that was added. An empty extent is the box of no size at the
    origin. -/
def toRaw (e : Extent α) : RawBox α :=
  if e.isEmpty then RawBox.zero
  else
    { x := low e.horizontal
      y := low e.vertical
      width := high e.horizontal - low e.horizontal
      height := high e.vertical - low e.vertical }

omit [Coordinate α] in
@[simp] theorem isEmpty_empty : (empty : Extent α).isEmpty = true := rfl

@[simp] theorem toRaw_empty : (empty : Extent α).toRaw = RawBox.zero := rfl

end Extent

end PatternDiagram
