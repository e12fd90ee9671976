import PatternDiagram.Plane.Extent

/-!
# Shapes

What a diagram is drawn with:

* `PathCommand`, `Shape`: lines and curves; rectangles, circles, texts, paths, and groups of these
  with an offset;
* `Shape.translate`: moves a shape;
* `Shape.extend`, `Shape.measure`: the extent of a shape. The control points of curves count, so
  that the extent may be a little larger than what is seen;
* `Shape.all`: a shape and all that is in it, in the order in which it is drawn.
-/

namespace PatternDiagram

variable {α : Type} [Coordinate α]

/-- A command of a path, its coordinates counted from the path's own origin. A curve is quadratic
    and has one control point. -/
inductive PathCommand (α : Type) where
  | move (x y : α)
  | line (x y : α)
  | curve (cx cy x y : α)
  deriving DecidableEq, Repr

/-- Something to draw. The style is the name under which a style sheet knows it. A text lies in the
    box whose upper left corner is `(x, y)`. -/
inductive Shape (α : Type) where
  | group (style : Option String) (dx dy : α) (children : List (Shape α))
  | rect (style : String) (x y width height rx : α)
  | circle (style : String) (cx cy r : α)
  | text (style : String) (x y width height : α) (content : String)
  | path (style : String) (commands : List (PathCommand α))
  deriving Repr

namespace PathCommand

/-- The command, moved. -/
def translate (dx dy : α) : PathCommand α → PathCommand α
  | .move x y => .move (x + dx) (y + dy)
  | .line x y => .line (x + dx) (y + dy)
  | .curve cx cy x y => .curve (cx + dx) (cy + dy) (x + dx) (y + dy)

/-- Adds the points of a command, counted from `(ox, oy)`. -/
def extend (ox oy : α) (e : Extent α) : PathCommand α → Extent α
  | .move x y => e.addPoint (ox + x) (oy + y)
  | .line x y => e.addPoint (ox + x) (oy + y)
  | .curve cx cy x y => (e.addPoint (ox + cx) (oy + cy)).addPoint (ox + x) (oy + y)

end PathCommand

namespace Shape

/-- A group that is not moved. -/
def plain (style : String) (children : List (Shape α)) : Shape α :=
  .group (some style) (Coordinate.ofNat 0) (Coordinate.ofNat 0) children

/-- A straight horizontal connector. -/
def rail (x1 x2 y : α) : Shape α := .path "connector" [.move x1 y, .line x2 y]

/-- The name of the shape in a style sheet. -/
def style? : Shape α → Option String
  | .group style _ _ _ => style
  | .rect style .. => some style
  | .circle style .. => some style
  | .text style .. => some style
  | .path style _ => some style

/-- The shape, moved. A group moves by its offset. -/
def translate (dx dy : α) : Shape α → Shape α
  | .group style gx gy children => .group style (gx + dx) (gy + dy) children
  | .rect style x y width height rx => .rect style (x + dx) (y + dy) width height rx
  | .circle style cx cy r => .circle style (cx + dx) (cy + dy) r
  | .text style x y width height content => .text style (x + dx) (y + dy) width height content
  | .path style commands => .path style (commands.map (PathCommand.translate dx dy))

mutual

/-- Adds a shape whose coordinates count from `(ox, oy)`. -/
def extendFrom (ox oy : α) (e : Extent α) : Shape α → Extent α
  | .group _ dx dy children => extendAll (ox + dx) (oy + dy) e children
  | .rect _ x y width height _ => e.addBox (ox + x) (oy + y) width height
  | .text _ x y width height _ => e.addBox (ox + x) (oy + y) width height
  | .circle _ cx cy r =>
      e.addBox (ox + cx - r) (oy + cy - r) (Coordinate.ofNat 2 * r) (Coordinate.ofNat 2 * r)
  | .path _ commands => commands.foldl (PathCommand.extend ox oy) e

/-- Adds several shapes, one after the other. -/
def extendAll (ox oy : α) (e : Extent α) : List (Shape α) → Extent α
  | [] => e
  | s :: ss => extendAll ox oy (extendFrom ox oy e s) ss

end

/-- The extent with one more shape. -/
def extend (e : Extent α) (s : Shape α) : Extent α :=
  s.extendFrom (Coordinate.ofNat 0) (Coordinate.ofNat 0) e

/-- The box around a shape. -/
def measure (s : Shape α) : RawBox α := (s.extend Extent.empty).toRaw

omit [Coordinate α] in
mutual

/-- A shape and all that is in it, each group before its children. -/
def all : Shape α → List (Shape α)
  | .group style dx dy children => .group style dx dy children :: allOf children
  | .rect style x y width height rx => [.rect style x y width height rx]
  | .circle style cx cy r => [.circle style cx cy r]
  | .text style x y width height content => [.text style x y width height content]
  | .path style commands => [.path style commands]

/-- Several shapes and all that is in them. -/
def allOf : List (Shape α) → List (Shape α)
  | [] => []
  | s :: ss => s.all ++ allOf ss

end

omit [Coordinate α] in
theorem allOf_eq_flatMap (ss : List (Shape α)) : allOf ss = ss.flatMap all := by
  induction ss with
  | nil => rfl
  | cons s ss ih => rw [allOf, ih, List.flatMap_cons]

/-- The names of a shape and of all that is in it, as far as they have one. -/
def styles (s : Shape α) : List (Option String) := s.all.map style?

omit [Coordinate α] in
/-- The name of a shape is among the names of all that is in it. -/
theorem style?_mem_styles (s : Shape α) : s.style? ∈ s.styles := by
  cases s <;> exact List.mem_cons_self

omit [Coordinate α] in
theorem mem_styles_cons {style : Option String} {s : Shape α} {ss : List (Shape α)} :
    style ∈ (allOf (s :: ss)).map style? ↔ style ∈ s.styles ∨ style ∈ (allOf ss).map style? := by
  rw [allOf, List.map_append, List.mem_append]
  rfl

end Shape

end PatternDiagram
