import PatternDiagram.Json.Basic
import PatternDiagram.Pattern.Basic

/-!
# Expressions as JSON

Every part of an expression has one form. Things that come in kinds name theirs in a field `kind`:

* `Node.toJson`: a tree;
* `Flags.toJson`, `GroupTable.toJson`, `Expression.toJson`: the rest of an expression.
-/

namespace PatternDiagram

namespace Json

/-- A value that may be missing. -/
def optional {β : Type} (encode : β → Json) : Option β → Json
  | none => .null
  | some b => encode b

/-- A character as a text of its own. -/
def ofChar (c : Char) : Json := .text (String.ofList [c])

/-- A value of a kind. -/
def kind (name : String) (fields : List (String × Json)) : Json :=
  .object (("kind", .text name) :: fields)

end Json

open Json (kind ofChar optional)

/-! ## 1. Leaves -/

/-- The name of a set of characters. -/
def EscapeClass.tag : EscapeClass → String
  | .digit => "digit"
  | .nonDigit => "non_digit"
  | .word => "word"
  | .nonWord => "non_word"
  | .whitespace => "whitespace"
  | .nonWhitespace => "non_whitespace"

def ClassItem.toJson : ClassItem → Json
  | .char c => kind "char" [("value", ofChar c)]
  | .range lo hi => kind "range" [("value", .list [ofChar lo, ofChar hi])]
  | .escape e => kind "escape" [("value", .text e.tag)]

/-- The name of an escape's form. A control escape holds its letter as well. -/
def EscapeForm.toJson : EscapeForm → Json
  | .lineFeed => .text "line_feed"
  | .carriageReturn => .text "carriage_return"
  | .tab => .text "tab"
  | .verticalTab => .text "vertical_tab"
  | .formFeed => .text "form_feed"
  | .backspace => .text "backspace"
  | .null => .text "null"
  | .control letter => .object [("control", ofChar letter)]
  | .hex => .text "hex"
  | .unicode => .text "unicode"
  | .octal => .text "octal"

def Literal.toJson : Literal → Json
  | .char c => kind "char" [("value", ofChar c)]
  | .any => kind "any" []
  | .set e => kind "class" [("value", .text e.tag)]
  | .escaped value form =>
      kind "escaped" [("value", .object [("value", ofChar value), ("form", form.toJson)])]

/-- The name of an anchor. -/
def Anchor.tag : Anchor → String
  | .start => "start"
  | .finish => "end"
  | .wordBoundary => "word_boundary"
  | .nonWordBoundary => "non_word_boundary"

def Target.toJson : Target → Json
  | .index n => kind "index" [("value", .integer n)]
  | .name s => kind "name" [("value", .text s)]

/-- The name of a direction. -/
def Direction.tag : Direction → String
  | .ahead => "ahead"
  | .behind => "behind"

/-- The name of a polarity. -/
def Polarity.tag : Polarity → String
  | .positive => "positive"
  | .negative => "negative"

/-! ## 2. Trees -/

namespace Node

mutual

/-- A tree. -/
def toJson : Node → Json
  | .sequence items => kind "sequence" [("items", .list (toJsonAll items))]
  | .alternation branches => kind "alternation" [("branches", .list (toJsonAll branches))]
  | .group capturing name index body =>
      kind "group" [("capturing", .bool capturing), ("name", optional .text name),
        ("index", optional .integer index), ("body", body.toJson)]
  | .characterClass c =>
      kind "character_class" [("negated", .bool c.negated),
        ("items", .list (c.items.map ClassItem.toJson))]
  | .literal l => kind "literal" [("literal", l.toJson)]
  | .repetition q body =>
      kind "repetition" [("body", body.toJson), ("min", .integer q.min),
        ("max", optional .integer q.max), ("greedy", .bool q.greedy)]
  | .anchor a => kind "anchor" [("anchor", .text a.tag)]
  | .backreference t => kind "backreference" [("target", t.toJson)]
  | .lookaround direction polarity body =>
      kind "lookaround" [("direction", .text direction.tag), ("polarity", .text polarity.tag),
        ("body", body.toJson)]

/-- Several trees. -/
def toJsonAll : List Node → List Json
  | [] => []
  | n :: ns => n.toJson :: toJsonAll ns

end

end Node

/-! ## 3. Whole expressions -/

def Flags.toJson (f : Flags) : Json :=
  .object [("has_indices", .bool f.hasIndices), ("global", .bool f.global),
    ("ignore_case", .bool f.ignoreCase), ("multiline", .bool f.multiline),
    ("dot_all", .bool f.dotAll), ("unicode", .bool f.unicode),
    ("unicode_sets", .bool f.unicodeSets), ("sticky", .bool f.sticky)]

def GroupTable.toJson (g : GroupTable) : Json :=
  .object [("count", .integer g.count),
    ("names", .list (g.names.map fun (name, index) => .list [.text name, .integer index]))]

def Expression.toJson (e : Expression) : Json :=
  .object [("root", e.root.toJson), ("flags", e.flags.toJson), ("groups", e.groups.toJson)]

end PatternDiagram
