import PatternDiagram.Drawing.Walk
import PatternDiagram.Reading.Source
import PatternDiagram.Decimal.Shortest
import PatternDiagram.Svg.Document

/-!
# Rendering an expression

A rendering has two halves. In between, the one who asked for it may show that it is under way, or
call it off:

* `RenderError`, `RenderOutput`: what a rendering comes to;
* `Surface`: something that takes a finished drawing. It may call the rendering off while it does;
* `Render.begin`, `Render.finish`: the two halves. The surface is left alone until the drawing is
  complete and its bounds are known to be finite;
* `renderSvg`: a source as a document.
-/

namespace PatternDiagram

/-! ## 1. Results -/

/-- Why there is no drawing. -/
inductive RenderError (α : Type) where
  | cancelled
  | malformed (e : SyntaxError)
  /-- The drawing has this box, which is not finite. -/
  | unbounded (box : Box α)
  deriving DecidableEq, Repr

/-- The size of a drawing, margins included, and what there is to say about it. -/
structure RenderOutput (α : Type) where
  width : α
  height : α
  warnings : List String
  deriving DecidableEq, Repr

/-- Coordinates in messages have the fewest digits that read back; from `10 ^ 16` on and below
    `10 ^ (-4)` they have an exponent. -/
def diagnosticStyle : NumberStyle where
  leastPoint := -3
  greatestPoint := 16
  plus := []
  tie := .up
  nan := "NaN"
  infinite := "inf"
  negativeInfinite := "-inf"

/-- The seven numbers of a box with their names. -/
def Box.describe (b : Box Float) : String :=
  let fields : List (String × Float) :=
    [("x", b.x), ("y", b.y), ("width", b.width), ("height", b.height), ("ax", b.ax),
      ("ax2", b.ax2), ("ay", b.ay)]
  "BBox \x7b " ++ ", ".intercalate (fields.map fun (name, x) =>
    name ++ ": " ++ diagnosticStyle.write x) ++ " \x7d"

/-- The wording of a failure. -/
def RenderError.message : RenderError Float → String
  | .cancelled => "render cancelled"
  | .malformed e => e.message
  | .unbounded box => "malformed geometry: drawing has non-finite bounds " ++ box.describe

/-! ## 2. Surfaces -/

variable {α σ : Type}

/-- Something that takes a finished drawing. While it does so, it may call the rendering off whose
    ticket it is shown. -/
structure Surface (σ α : Type) where
  /-- Replaces what is drawn. -/
  mount : Shape α → σ → Ticket → σ × Ticket
  resize : α → α → σ → Ticket → σ × Ticket

/-- A canvas takes whatever it is given and calls nothing off. -/
def Canvas.surface : Surface (Canvas α) α where
  mount drawing c t := (c.mount drawing, t)
  resize width height c t := (c.resize width height, t)

/-! ## 3. The two halves -/

namespace Render

/-- What a rendering leaves behind: its result, the surface, and the ticket with the warnings. -/
structure Result (σ α : Type) where
  outcome : Except (RenderError α) (RenderOutput α)
  surface : σ
  walk : Walk

/-- The first half: the nodes are counted. -/
def begin (e : Expression) (t : Ticket) : Ticket := t.setTotal e.root.count

variable [Coordinate α]

/-- A finished drawing, moved so that its margin begins at the origin, and its size with margins. -/
def place (c : Config α) (shape : Shape α) (box : Box α) : Shape α × α × α :=
  (shape.translate (c.margin - box.x) (c.margin - box.y),
    box.width + Coordinate.ofNat 2 * c.margin, box.height + Coordinate.ofNat 2 * c.margin)

/-- The second half: the expression is drawn and put on the surface. -/
def finish (surface : Surface σ α) (c : Config α) (e : Expression) (s : σ) (w : Walk) :
    Result σ α :=
  if w.ticket.cancelled then ⟨.error .cancelled, s, w⟩
  else
    match (Drawing.expression c e : Walking (Placed α)).run w with
    | .error .cancelled w => ⟨.error .cancelled, s, w⟩
    | .ok placed w =>
        if w.ticket.cancelled then ⟨.error .cancelled, s, w⟩
        else
          let box := placed.shape.measure.normalize
          if !box.isFinite then ⟨.error (.unbounded box), s, w⟩
          else
            let (shape, width, height) := place c placed.shape box
            let (s, ticket) := surface.mount shape s w.ticket
            let (s, ticket) := surface.resize width height s ticket
            let w := { w with ticket }
            if ticket.cancelled then ⟨.error .cancelled, s, w⟩
            else ⟨.ok ⟨width, height, w.warnings.map Warning.message⟩, s, w⟩

/-- Both halves, with nothing in between. -/
def run (surface : Surface σ α) (c : Config α) (e : Expression) (s : σ) (w : Walk) : Result σ α :=
  finish surface c e s { w with ticket := begin e w.ticket }

end Render

/-! ## 4. Documents -/

/-- A source as a document of its own. -/
def renderSvg (c : Config Float) (source : String) :
    Except (RenderError Float) (String × RenderOutput Float) :=
  match parse source with
  | .error e => .error (.malformed e)
  | .ok e =>
      let result := Render.run Canvas.surface c e Canvas.blank {}
      match result.outcome with
      | .error e => .error e
      | .ok output => .ok (result.surface.toSvg, output)

end PatternDiagram
