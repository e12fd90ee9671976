import PatternDiagram.Plane.Coordinate

/-!
# Boxes

* `RawBox`: a box as it is measured, the points where lines attach perhaps not yet known;
* `Box`: a box with its axis, the points `ax` and `ax2` at the height `ay`;
* `RawBox.normalize`: fills in the axis;
* `Box.translate`: moves a box.
-/

namespace PatternDiagram

variable {α : Type} [Coordinate α]

/-- A box as it is measured. -/
structure RawBox (α : Type) where
  x : α
  y : α
  width : α
  height : α
  ax : Option α := none
  ax2 : Option α := none
  ay : Option α := none
  deriving DecidableEq, Repr

/-- A box with its axis: a line comes in at `(ax, ay)` and leaves at `(ax2, ay)`. -/
structure Box (α : Type) where
  x : α
  y : α
  width : α
  height : α
  ax : α
  ax2 : α
  ay : α
  deriving DecidableEq, Repr

/-- The box of no size at the origin. -/
def RawBox.zero : RawBox α :=
  { x := Coordinate.ofNat 0, y := Coordinate.ofNat 0
    width := Coordinate.ofNat 0, height := Coordinate.ofNat 0 }

/-- The three coordinates of an axis: where a line comes in, where it leaves, and how high. -/
structure Axis (α : Type) where
  ax : α
  ax2 : α
  ay : α
  deriving DecidableEq, Repr

/-- The box with an axis of its own. -/
def RawBox.withAxis (b : RawBox α) (axis : Axis α) : RawBox α :=
  { b with ax := some axis.ax, ax2 := some axis.ax2, ay := some axis.ay }

/-- The box with its axis. Where none is set, lines attach to the middle of the left and of the
    right edge. -/
def RawBox.normalize (b : RawBox α) : Box α where
  x := b.x
  y := b.y
  width := b.width
  height := b.height
  ax := b.ax.getD b.x
  ax2 := b.ax2.getD (b.x + b.width)
  ay := b.ay.getD (b.y + b.height / Coordinate.ofNat 2)

namespace Box

/-- The right edge. -/
def x2 (b : Box α) : α := b.x + b.width

/-- The lower edge. -/
def y2 (b : Box α) : α := b.y + b.height

/-- The horizontal centre. -/
def cx (b : Box α) : α := b.x + b.width / Coordinate.ofNat 2

/-- The vertical centre. -/
def cy (b : Box α) : α := b.y + b.height / Coordinate.ofNat 2

/-- The box, moved. -/
def translate (dx dy : α) (b : Box α) : Box α :=
  { b with x := b.x + dx, y := b.y + dy, ax := b.ax + dx, ax2 := b.ax2 + dx, ay := b.ay + dy }

/-- The seven numbers of a box are finite. -/
def isFinite (b : Box α) : Bool :=
  [b.x, b.y, b.width, b.height, b.ax, b.ax2, b.ay].all Coordinate.isFinite

@[simp] theorem width_translate (dx dy : α) (b : Box α) : (b.translate dx dy).width = b.width := rfl

@[simp] theorem height_translate (dx dy : α) (b : Box α) :
    (b.translate dx dy).height = b.height := rfl

end Box

end PatternDiagram
