import PatternDiagram.Drawing.Config
import PatternDiagram.Pattern.Repeat
import PatternDiagram.Plane.Layout

/-!
# The parts of a drawing

How the picture of a node is put together from the pictures of what is in it:

* `labelBox`, `captionBox`: a text in a box; a picture in a box, with a caption;
* `row`: pictures side by side, linked by rails;
* `column`: pictures on top of each other between a fan-out and a fan-in;
* `repeated`: a picture with a way around it, a way back, and words below;
* `framed`: the whole between its two markers.

Everything is drawn at the origin and moved into place by what it is put into.
-/

namespace PatternDiagram.Drawing

variable {α : Type} [Coordinate α]

open Coordinate (ofNat)

/-! ## 1. Measures -/

/-- The distance of a text from its box. -/
def labelPadding : α := ofNat 5

/-- The distance of a picture from its box. -/
def boxPadding : α := ofNat 10

/-- The radius of the curves of a rail. -/
def curve : α := ofNat 10

/-- The radius of a marker. -/
def markerRadius : α := ofNat 5

/-- Half the height of an arrow head. -/
def arrowSize : α := ofNat 4

/-- The radius of a box's corners. -/
def corner : α := ofNat 3

/-! ## 2. Boxes -/

/-- A line of text in a box. -/
def labelBox (c : Config α) (style text : String) : Placed α :=
  let (width, height) := c.textSize text
  .ofShape (.plain style [
    .rect "label" (ofNat 0) (ofNat 0) (width + ofNat 2 * labelPadding)
      (height + ofNat 2 * labelPadding) corner,
    .text "label-text" labelPadding labelPadding width height text]) none

/-- The caption of a box whose upper left corner is `(x, y)`. -/
def captionText (c : Config α) (x y : α) (caption : String) : Shape α :=
  let (width, height) := c.textSize caption
  .text "caption" x (y - height - ofNat 2) width height caption

/-- A picture in a box, perhaps with a caption above it. Rails lead from the edges of the box to the
    picture. -/
def captionBox (c : Config α) (style : String) (caption : Option String) (content : Placed α) :
    Placed α :=
  let cb := content.box
  let x := cb.x - boxPadding
  let y := cb.y - boxPadding
  let width := cb.width + ofNat 2 * boxPadding
  let height := cb.height + ofNat 2 * boxPadding
  .ofShape (.plain style (caption.toList.map (captionText c x y) ++ [
      .rect "box" x y width height corner,
      .rail x cb.ax cb.ay,
      .rail cb.ax2 (x + width) cb.ay,
      content.shape]))
    (some ⟨x, x + width, cb.ay⟩)

/-! ## 3. Rows -/

/-- The rails between neighbours that have been put in a row. -/
def rails : List (Placed α) → List (Shape α)
  | a :: b :: rest => .rail a.box.ax2 b.box.ax a.box.ay :: rails (b :: rest)
  | _ => []

/-- Pictures in a row, linked by rails. A line comes in at the first one and leaves at the last. -/
def row (c : Config α) (items : List (Placed α)) : Placed α :=
  let placed := spaceHorizontally c.sequencePadding items
  match placed.head?, placed.getLast? with
  | some first, some last =>
      .ofShape (.plain "sequence" (rails placed ++ placed.map Placed.shape))
        (some ⟨first.box.ax, last.box.ax2, first.box.ay⟩)
  | _, _ => .ofShape (.plain "sequence" []) none

/-! ## 4. Columns -/

/-- From the fork at `(0, center)` to the begin of a branch. -/
def fanOut (center ax ay : α) : List (PathCommand α) :=
  let distance := Coordinate.abs (ay - center)
  let dir := Coordinate.direction (ay - center)
  let bend : List (PathCommand α) :=
    if ofNat 2 * curve ≤ distance then
      [.curve curve center curve (center + dir * curve),
        .line curve (ay - dir * curve),
        .curve curve ay (ofNat 2 * curve) ay]
    else if ofNat 0 < distance then
      [.curve curve center curve ((center + ay) / ofNat 2),
        .curve curve ay (ofNat 2 * curve) ay]
    else []
  .move (ofNat 0) center :: (bend ++ [.line ax ay])

/-- From the end of a branch to the fork at `(right, center)`. -/
def fanIn (center right ax2 ay : α) : List (PathCommand α) :=
  let distance := Coordinate.abs (ay - center)
  let dir := Coordinate.direction (center - ay)
  let lead : List (PathCommand α) :=
    if ofNat 0 < distance then [.line (right - ofNat 2 * curve) ay] else []
  let bend : List (PathCommand α) :=
    if ofNat 2 * curve ≤ distance then
      [.curve (right - curve) ay (right - curve) (ay + dir * curve),
        .line (right - curve) (center - dir * curve),
        .curve (right - curve) center right center]
    else if ofNat 0 < distance then
      [.curve (right - curve) ay (right - curve) ((center + ay) / ofNat 2),
        .curve (right - curve) center right center]
    else [.line right center]
  .move ax2 ay :: (lead ++ bend)

/-- Pictures on top of each other, room for the curves on their left. -/
def stack (c : Config α) (branches : List (Placed α)) : List (Placed α) :=
  let spaced := spaceVertically c.alternationPadding branches
  spaced.map (Placed.translate (ofNat 2 * curve - (enclosing spaced).x) (ofNat 0))

/-- Pictures on top of each other between a fan-out and a fan-in. -/
def column (c : Config α) (branches : List (Placed α)) : Placed α :=
  let placed := stack c branches
  let content := enclosing placed
  let center := content.cy
  let right := content.x2 + ofNat 2 * curve
  let out := placed.map fun p => Shape.path "connector" (fanOut center p.box.ax p.box.ay)
  let back := placed.map fun p => Shape.path "connector" (fanIn center right p.box.ax2 p.box.ay)
  .ofShape (.plain "alternation"
      (.plain "fan-out" out :: .plain "fan-in" back :: placed.map Placed.shape))
    (some ⟨ofNat 0, right, center⟩)

/-! ## 5. Repetitions -/

/-- An arrow head around `(x, y)`. The direction is one for an arrow to the right, and minus one for
    an arrow to the left. -/
def arrow (x y dir : α) : Shape α :=
  .path "arrow" [
    .move (x - dir * arrowSize) (y - arrowSize),
    .line (x + dir * arrowSize / ofNat 2) y,
    .line (x - dir * arrowSize) (y + arrowSize)]

/-- How far the picture of a repetition begins before its body. -/
def lead (shape : RepeatShape) : α :=
  if shape.skips then ofNat 2 * curve else if shape.loops then curve else ofNat 0

/-- The way around a body: up, over it, and down again. -/
def skipPath (right top ay : α) : List (PathCommand α) :=
  [.move (ofNat 0) ay,
    .curve curve ay curve (ay - curve),
    .line curve (top + curve),
    .curve curve top (ofNat 2 * curve) top,
    .line (right - ofNat 2 * curve) top,
    .curve (right - curve) top (right - curve) (top + curve),
    .line (right - curve) (ay - curve),
    .curve (right - curve) ay right ay]

/-- The way back from the end of a body to its front: down, under it, and up again. -/
def loopPath (cb : Box α) (bottom : α) : List (PathCommand α) :=
  let ay := cb.ay
  let x1 := cb.x
  let x2 := cb.x2
  [.move cb.ax2 ay,
    .line x2 ay,
    .curve (x2 + curve) ay (x2 + curve) (ay + curve),
    .line (x2 + curve) (bottom - curve),
    .curve (x2 + curve) bottom x2 bottom,
    .line x1 bottom,
    .curve (x1 - curve) bottom (x1 - curve) (bottom - curve),
    .line (x1 - curve) (ay + curve),
    .curve (x1 - curve) ay x1 ay,
    .line cb.ax ay]

/-- The words under a repetition, flush with its right edge. -/
def repeatText (c : Config α) (shape : RepeatShape) (cb : Box α) (label : String) : Shape α :=
  let (width, height) := c.textSize label
  let right := if shape.loops then cb.x2 + curve else cb.x2
  let top := if shape.loops then cb.y2 + curve + ofNat 2 else cb.y2 + ofNat 2
  .text "repeat-label" (right - width) top width height label

/-- A picture with the ways and the words of a repetition. -/
def repeated (c : Config α) (q : Quantifier) (body : Placed α) : Placed α :=
  let shape := q.shape
  let content := body.translate (lead shape - body.box.x) (ofNat 0)
  let cb := content.box
  let ay := cb.ay
  let right := cb.x2 + lead shape
  let top := cb.y - curve
  let bottom := cb.y2 + curve
  let leads : List (Shape α) :=
    if shape.skips || shape.loops then [.rail (ofNat 0) cb.ax ay, .rail cb.ax2 right ay] else []
  let skip : List (Shape α) :=
    if shape.skips then
      [.path "connector skip" (skipPath right top ay), arrow cb.cx top (ofNat 1)]
    else []
  let back : List (Shape α) :=
    if shape.loops then
      [.path "connector loop" (loopPath cb bottom), arrow cb.cx bottom (-ofNat 1)]
    else []
  let words := q.label.toList.map (repeatText c shape cb)
  .ofShape (.plain "repeat" (leads ++ skip ++ back ++ words ++ [content.shape]))
    (some ⟨ofNat 0, right, ay⟩)

/-! ## 6. The whole -/

/-- A marker at the begin or at the end. -/
def marker (style : String) : Placed α :=
  .ofShape (.plain "marker" [.circle style markerRadius markerRadius markerRadius]) none

/-- The flags in words, above the picture whose box is given. -/
def flagsText (c : Config α) (placed : Box α) (names : List String) : Shape α :=
  let caption := "Flags: " ++ ", ".intercalate names
  let (width, height) := c.textSize caption
  .text "flags" placed.x (placed.y - height - labelPadding) width height caption

/-- A picture between its markers, the flags above it if there are any. -/
def framed (c : Config α) (flags : List String) (content : Placed α) : Placed α :=
  let items := spaceHorizontally c.sequencePadding [marker "begin", content, marker "end"]
  let words := if flags.isEmpty then [] else [flagsText c (enclosing items) flags]
  .ofShape (.plain "diagram" (rails items ++ items.map Placed.shape ++ words)) none

end PatternDiagram.Drawing
