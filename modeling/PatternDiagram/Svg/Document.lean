import PatternDiagram.Plane.Shape
import PatternDiagram.Svg.Number

/-!
# Documents

* `Canvas`: what is drawn and how large it is; a new canvas is blank;
* `Svg.escape`: a text in which no character can be taken for markup;
* `Svg.pathData`: the commands of a path in one line;
* `Svg.element`: a shape as markup; `Svg.elementsBefore`: the same in one pass;
* `Canvas.toSvg`: the canvas as a document of its own.
-/

namespace PatternDiagram

/-- What is drawn, and the size of the document. -/
structure Canvas (α : Type) where
  drawing : Option (Shape α) := none
  width : α
  height : α
  deriving Repr

namespace Canvas

variable {α : Type}

/-- Nothing is drawn on a canvas of no size. -/
def blank [Coordinate α] : Canvas α := { width := Coordinate.ofNat 0, height := Coordinate.ofNat 0 }

def isBlank (c : Canvas α) : Bool := c.drawing.isNone

/-- Replaces what is drawn. -/
def mount (drawing : Shape α) (c : Canvas α) : Canvas α := { c with drawing := some drawing }

def resize (width height : α) (c : Canvas α) : Canvas α := { c with width, height }

end Canvas

namespace Svg

/-! ## 1. Text -/

/-- A character of a text. The four that could end the text or an attribute get a name. -/
def escapeChar (c : Char) : List Char :=
  if c = '&' then "&amp;".toList
  else if c = '<' then "&lt;".toList
  else if c = '>' then "&gt;".toList
  else if c = '"' then "&quot;".toList
  else [c]

/-- A text between tags. -/
def escape (s : String) : List Char := s.toList.flatMap escapeChar

/-! ## 2. Paths -/

/-- The two coordinates of a point. -/
def point (x y : Float) : List Char := number x ++ ',' :: number y

/-- A command of a path. -/
def pathCommand : PathCommand Float → List Char
  | .move x y => 'M' :: point x y
  | .line x y => 'L' :: point x y
  | .curve cx cy x y => 'Q' :: (point cx cy ++ ' ' :: point x y)

/-- The commands of a path, a space between each and the next. -/
def pathData (commands : List (PathCommand Float)) : List Char :=
  [' '].intercalate (commands.map pathCommand)

/-! ## 3. Elements -/

/-- An attribute of a tag, after a space. The value is written as it stands. -/
def attr (name : String) (value : List Char) : List Char :=
  ' ' :: (name.toList ++ '=' :: '"' :: (value ++ ['"']))

/-- A tag that has nothing in it. -/
def emptyTag (name : String) (attributes : List (List Char)) : List Char :=
  '<' :: (name.toList ++ attributes.flatten ++ ['/', '>'])

/-- The begin of a tag with content. -/
def openTag (name : String) (attributes : List (List Char)) : List Char :=
  '<' :: (name.toList ++ attributes.flatten ++ ['>'])

/-- The end of a tag with content. -/
def closeTag (name : String) : List Char := '<' :: '/' :: (name.toList ++ ['>'])

/-- A tag around some content. -/
def tag (name : String) (attributes : List (List Char)) (content : List Char) : List Char :=
  openTag name attributes ++ content ++ closeTag name

/-- The class attribute of a shape. -/
def classAttribute (style : String) : List Char := attr "class" style.toList

/-- The height of the line that the letters of a text stand on. -/
def baseline (y height : Float) : Float := y + height * 0.8

/-- The attributes of a group. An offset of nought is left out. -/
def groupAttributes (style : Option String) (dx dy : Float) : List (List Char) :=
  style.toList.map classAttribute ++
    (if dx != 0 || dy != 0 then
      [attr "transform" ("translate(".toList ++ number dx ++ ' ' :: (number dy ++ [')']))]
    else [])

mutual

/-- A shape as markup. -/
def element : Shape Float → List Char
  | .group style dx dy children =>
      tag "g" (groupAttributes style dx dy) (elements children)
  | .rect style x y width height rx =>
      emptyTag "rect" [classAttribute style, attr "x" (number x), attr "y" (number y),
        attr "width" (number width), attr "height" (number height),
        attr "rx" (number rx)]
  | .circle style cx cy r =>
      emptyTag "circle" [classAttribute style, attr "cx" (number cx),
        attr "cy" (number cy), attr "r" (number r)]
  | .text style x y _ height content =>
      tag "text" [classAttribute style, attr "x" (number x),
        attr "y" (number (baseline y height))] (escape content)
  | .path style commands =>
      emptyTag "path" [classAttribute style, attr "d" (pathData commands)]

/-- Several shapes as markup, one after the other. -/
def elements : List (Shape Float) → List Char
  | [] => []
  | s :: ss => element s ++ elements ss

end

@[simp] theorem elements_nil : elements [] = [] := rfl

@[simp] theorem elements_cons (s : Shape Float) (ss : List (Shape Float)) :
    elements (s :: ss) = element s ++ elements ss := rfl

mutual

/-- A shape as markup, with what follows it. No part is copied when the next one is put in front. -/
def elementBefore : Shape Float → List Char → List Char
  | .group style dx dy children, rest =>
      openTag "g" (groupAttributes style dx dy) ++ elementsBefore children (closeTag "g" ++ rest)
  | .rect style x y width height rx, rest => element (.rect style x y width height rx) ++ rest
  | .circle style cx cy r, rest => element (.circle style cx cy r) ++ rest
  | .text style x y width height content, rest =>
      element (.text style x y width height content) ++ rest
  | .path style commands, rest => element (.path style commands) ++ rest

/-- Several shapes as markup, with what follows them. -/
def elementsBefore : List (Shape Float) → List Char → List Char
  | [], rest => rest
  | s :: ss, rest => elementBefore s (elementsBefore ss rest)

end

mutual

theorem elementBefore_eq (s : Shape Float) (rest : List Char) :
    elementBefore s rest = element s ++ rest := by
  cases s with
  | group style dx dy children =>
    simp [elementBefore, element, tag, elementsBefore_eq children]
  | _ => rfl

/-- **What follows the markup does not change it.** -/
theorem elementsBefore_eq (ss : List (Shape Float)) (rest : List Char) :
    elementsBefore ss rest = elements ss ++ rest := by
  cases ss with
  | nil => rfl
  | cons s ss =>
    rw [elementsBefore, elementBefore_eq s, elementsBefore_eq ss, elements, List.append_assoc]

end

/-! ## 4. The style sheet -/

/-- The rules of the style sheet: to what they apply, and what they say. -/
def styleRules : List (String × String) :=
  [("text", "font-family:Arial,Helvetica,sans-serif;font-size:12px"),
    ("rect.label", "fill:#bada55;stroke:#000;stroke-width:2"),
    (".literal>.label", "fill:#dae9e5"),
    (".escape>.label,.any-character>.label,.anchor>.label", "fill:#bada55"),
    (".charset>.label", "fill:#cbcbba"),
    (".backref>.label", "fill:#e6c9a8"),
    (".unresolved>.label", "fill:#f2b8b8;stroke-dasharray:4,2"),
    (".box", "fill:none;stroke:#908c83;stroke-width:2"),
    (".lookaround>.box", "stroke-dasharray:6,2"),
    (".negative>.box", "stroke:#b00"),
    (".connector", "fill:none;stroke:#000;stroke-width:2"),
    (".arrow", "fill:none;stroke:#000;stroke-width:2"),
    (".begin,.end", "fill:#6b6659;stroke:#000;stroke-width:2"),
    (".caption,.repeat-label,.flags", "font-size:10px")]

/-- The style sheet. -/
def styleSheet : List Char :=
  styleRules.flatMap fun (selector, declarations) =>
    selector.toList ++ '{' :: (declarations.toList ++ ['}'])

end Svg

/-! ## 5. Documents -/

/-- The attributes of a document. -/
def Canvas.attributes (c : Canvas Float) : List (List Char) :=
  [Svg.attr "xmlns" "http://www.w3.org/2000/svg".toList,
    Svg.attr "version" "1.1".toList,
    Svg.attr "width" (Svg.number c.width),
    Svg.attr "height" (Svg.number c.height)]

/-- The canvas as a document, one line long. -/
def Canvas.document (c : Canvas Float) : List Char :=
  Svg.openTag "svg" c.attributes ++ Svg.tag "style" [] Svg.styleSheet ++
    Svg.elementsBefore c.drawing.toList (Svg.closeTag "svg" ++ ['\n'])

/-- **A document is a tag around the style sheet and the drawing.** -/
theorem Canvas.document_eq (c : Canvas Float) :
    c.document = Svg.tag "svg" c.attributes
      (Svg.tag "style" [] Svg.styleSheet ++ Svg.elements c.drawing.toList) ++ ['\n'] := by
  simp [document, Svg.tag, Svg.elementsBefore_eq]

/-- The text of the document. -/
def Canvas.toSvg (c : Canvas Float) : String := String.ofList c.document

end PatternDiagram
