import PatternDiagram.Plane.Shape

/-!
# Layout

Placing things next to each other and on top of each other:

* `Placed`: a drawing with its box, both in the coordinates of whatever holds it;
* `Boxed`: anything that has a box and can be moved, so that bare boxes and drawings are laid out by
  the same rules;
* `spaceHorizontally`: a row with its axes on one line, the lowest of them;
* `spaceVertically`: a column around one centre, the one that lies furthest to the right;
* `enclosing`: the box around several things.
-/

namespace PatternDiagram

variable {α : Type} [Coordinate α]

/-- A drawing with its box. -/
structure Placed (α : Type) where
  shape : Shape α
  box : Box α

/-- Things that have a box and can be moved. -/
class Boxed (ι : Type) (α : outParam Type) where
  box : ι → Box α
  translate : α → α → ι → ι

instance : Boxed (Box α) α where
  box b := b
  translate := Box.translate

/-- The drawing, moved together with its box. -/
def Placed.translate (dx dy : α) (p : Placed α) : Placed α :=
  ⟨p.shape.translate dx dy, p.box.translate dx dy⟩

instance : Boxed (Placed α) α where
  box := Placed.box
  translate := Placed.translate

/-- A finished drawing with its measured box, and with an axis of its own if one is given. -/
def Placed.ofShape (shape : Shape α) (axis : Option (Axis α)) : Placed α :=
  let raw := match axis with
    | none => shape.measure
    | some a => shape.measure.withAxis a
  ⟨shape, raw.normalize⟩

/-- The greatest of nought and the values. -/
def greatestOf (values : List α) : α :=
  values.foldl Coordinate.greatest (Coordinate.ofNat 0)

/-- Where each of several things begins that are put down one after the other, `padding` apart. -/
def offsets (padding : α) : α → List α → List α
  | _, [] => []
  | start, size :: sizes => start :: offsets padding (start + (size + padding)) sizes

variable {ι : Type} [Boxed ι α]

/-- A row: `padding` between the boxes, and all axes at the height of the lowest one. -/
def spaceHorizontally (padding : α) (items : List ι) : List ι :=
  let boxes := items.map Boxed.box
  let baseline := greatestOf (boxes.map Box.ay)
  let starts := offsets padding (Coordinate.ofNat 0) (boxes.map Box.width)
  List.zipWith (fun start item =>
    Boxed.translate (start - (Boxed.box item).x) (baseline - (Boxed.box item).ay) item) starts items

/-- A column: `padding` between the boxes, and all centres above each other. -/
def spaceVertically (padding : α) (items : List ι) : List ι :=
  let boxes := items.map Boxed.box
  let center := greatestOf (boxes.map Box.cx)
  let starts := offsets padding (Coordinate.ofNat 0) (boxes.map Box.height)
  List.zipWith (fun start item =>
    Boxed.translate (center - (Boxed.box item).cx) (start - (Boxed.box item).y) item) starts items

/-- The box around several things. -/
def enclosing (items : List ι) : Box α :=
  (items.foldl (fun (e : Extent α) item =>
    let b := Boxed.box item
    e.addBox b.x b.y b.width b.height) Extent.empty).toRaw.normalize

end PatternDiagram
