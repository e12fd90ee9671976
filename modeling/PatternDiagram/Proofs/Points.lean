import PatternDiagram.Plane.Layout

/-!
# The points of a drawing

A shape is measured by its points. Those of a group count from the group's offset, which counts from
the offset of the group around it.

* `corners`, `PathCommand.named`, `Shape.points`: the points that are measured;
* `Shape.measure_eq`, `enclosing_eq`: **shapes and layouts are measured by their points**;
* `Shape.leaves`: the rectangles, circles, texts and paths of a shape, each moved to where it
  stands.
-/

namespace PatternDiagram

variable {α : Type} [Coordinate α]

open Coordinate (ofNat)

/-! ## 1. Points -/

/-- Two opposite corners of a box. -/
def corners (x y width height : α) : List (α × α) := [(x, y), (x + width, y + height)]

/-- Several points more. -/
def Extent.addPoints (e : Extent α) (points : List (α × α)) : Extent α :=
  points.foldl (fun e p => e.addPoint p.1 p.2) e

namespace PathCommand

omit [Coordinate α] in
/-- The points that a command names. -/
def named : PathCommand α → List (α × α)
  | .move x y => [(x, y)]
  | .line x y => [(x, y)]
  | .curve cx cy x y => [(cx, cy), (x, y)]

/-- The measured points of a command, counted from `(ox, oy)`. -/
def points (ox oy : α) (command : PathCommand α) : List (α × α) :=
  command.named.map fun q => (ox + q.1, oy + q.2)

theorem extend_eq (ox oy : α) (e : Extent α) (command : PathCommand α) :
    command.extend ox oy e = e.addPoints (command.points ox oy) := by
  cases command <;> rfl

end PathCommand

namespace Shape

mutual

/-- The measured points of a shape, counted from `(ox, oy)`. -/
def pointsFrom (ox oy : α) : Shape α → List (α × α)
  | .group _ dx dy children => pointsOf (ox + dx) (oy + dy) children
  | .rect _ x y width height _ => corners (ox + x) (oy + y) width height
  | .text _ x y width height _ => corners (ox + x) (oy + y) width height
  | .circle _ cx cy r => corners (ox + cx - r) (oy + cy - r) (ofNat 2 * r) (ofNat 2 * r)
  | .path _ commands => commands.flatMap (PathCommand.points ox oy)

/-- The measured points of several shapes. -/
def pointsOf (ox oy : α) : List (Shape α) → List (α × α)
  | [] => []
  | s :: ss => s.pointsFrom ox oy ++ pointsOf ox oy ss

end

/-- The measured points of a shape. -/
def points (s : Shape α) : List (α × α) := s.pointsFrom (ofNat 0) (ofNat 0)

theorem pointsOf_eq_flatMap (ox oy : α) (ss : List (Shape α)) :
    pointsOf ox oy ss = ss.flatMap (pointsFrom ox oy) := by
  induction ss with
  | nil => rfl
  | cons s ss ih => rw [pointsOf, ih, List.flatMap_cons]

theorem mem_pointsOf {ox oy : α} {p : α × α} {s : Shape α} {ss : List (Shape α)} (hs : s ∈ ss)
    (hp : p ∈ s.pointsFrom ox oy) : p ∈ pointsOf ox oy ss := by
  rw [pointsOf_eq_flatMap]
  exact List.mem_flatMap.mpr ⟨s, hs, hp⟩

/-! ## 2. Measuring -/

mutual

/-- **A shape is measured** by its points. -/
theorem extendFrom_eq (ox oy : α) (e : Extent α) :
    ∀ s : Shape α, s.extendFrom ox oy e = e.addPoints (s.pointsFrom ox oy)
  | .group _ dx dy children => by
      rw [extendFrom, pointsFrom, extendAll_eq]
  | .rect .. => rfl
  | .text .. => rfl
  | .circle .. => rfl
  | .path _ commands => by
      rw [extendFrom, pointsFrom, Extent.addPoints, List.foldl_flatMap]
      exact congrArg (fun f => commands.foldl f e)
        (funext fun e => funext fun command => command.extend_eq ox oy e)

theorem extendAll_eq (ox oy : α) (e : Extent α) :
    ∀ ss : List (Shape α), extendAll ox oy e ss = e.addPoints (pointsOf ox oy ss)
  | [] => rfl
  | s :: ss => by
      rw [extendAll, pointsOf, extendFrom_eq, extendAll_eq, Extent.addPoints, Extent.addPoints,
        Extent.addPoints, List.foldl_append]

end

theorem measure_eq (s : Shape α) : s.measure = (Extent.empty.addPoints s.points).toRaw :=
  congrArg Extent.toRaw (extendFrom_eq ..)

end Shape

/-- Each axis is widened by the coordinates of its own. -/
theorem Extent.addPoints_eq (e : Extent α) (points : List (α × α)) :
    e.addPoints points = ⟨(points.map Prod.fst).foldl Span.widen e.horizontal,
      (points.map Prod.snd).foldl Span.widen e.vertical⟩ := by
  induction points generalizing e with
  | nil => rfl
  | cons p points ih => exact ih (e.addPoint p.1 p.2)

/-- The points that a box is measured by. -/
def Box.corners (b : Box α) : List (α × α) := PatternDiagram.corners b.x b.y b.width b.height

/-- **Several things are measured** by the corners of their boxes. -/
theorem enclosing_eq {ι : Type} [Boxed ι α] (items : List ι) :
    enclosing items =
      (Extent.empty.addPoints (items.flatMap fun i => (Boxed.box i).corners)).toRaw.normalize := by
  rw [enclosing, Extent.addPoints, List.foldl_flatMap]
  rfl

/-! ## 3. Leaves -/

namespace Shape

mutual

/-- **The rectangles, circles, texts and paths** of a shape, each moved to where the groups around
    it put it. -/
def leaves : Shape α → List (Shape α)
  | .group _ dx dy children => (leavesOf children).map (translate dx dy)
  | .rect style x y width height rx => [.rect style x y width height rx]
  | .circle style cx cy r => [.circle style cx cy r]
  | .text style x y width height content => [.text style x y width height content]
  | .path style commands => [.path style commands]

/-- The rectangles, circles, texts and paths of several shapes. -/
def leavesOf : List (Shape α) → List (Shape α)
  | [] => []
  | s :: ss => s.leaves ++ leavesOf ss

end

theorem leavesOf_eq_flatMap (ss : List (Shape α)) : leavesOf ss = ss.flatMap leaves := by
  induction ss with
  | nil => rfl
  | cons s ss ih => rw [leavesOf, ih, List.flatMap_cons]

end Shape

end PatternDiagram
