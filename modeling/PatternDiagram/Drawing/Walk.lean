import PatternDiagram.Drawing.Parts
import PatternDiagram.Pattern.References
import PatternDiagram.Render.Ticket

/-!
# Drawing a tree

A tree is drawn from its leaves to its root. On the way the ticket is advanced node by node, and
references that lead nowhere are noted:

* `Walker`: the three things that a drawing does on its way. How a tree is drawn does not depend on
  who does them;
* `Walk`: the ticket and the warnings so far. They are there also if the drawing is refused;
  `Walking`: the walker who keeps them;
* `Drawing.node`: a node and all below it. Sequences and alternations are refused if the ticket has
  been called off. Neighbouring characters of a sequence are drawn as one text;
* `Drawing.expression`: a tree between its markers.
-/

namespace PatternDiagram

/-- What a drawing does on its way. -/
class Walker (m : Type → Type) extends Monad m where
  /-- Goes on only if the drawing has not been called off. -/
  checkCancelled : m Unit
  /-- Some more nodes are drawn. -/
  advance (n : Nat) : m Unit
  /-- One more warning. -/
  warn (warning : Warning) : m Unit

/-- What changes while a tree is drawn. -/
structure Walk where
  ticket : Ticket := {}
  warnings : List Warning := []
  deriving DecidableEq, Repr

/-- The drawing was refused because its ticket has been called off. -/
inductive Cancelled where
  | cancelled
  deriving DecidableEq, Repr

/-- A step of a drawing. -/
abbrev Walking := EStateM Cancelled Walk

namespace Walk

/-- Goes on only if the ticket has not been called off. -/
def checkCancelled : Walking Unit := do
  if (← get).ticket.cancelled then throw .cancelled

/-- Some more nodes are drawn. -/
def advance (n : Nat) : Walking Unit :=
  modify fun w => { w with ticket := w.ticket.advance n }

/-- One more warning. -/
def warn (warning : Warning) : Walking Unit :=
  modify fun w => { w with warnings := w.warnings ++ [warning] }

end Walk

instance : Walker Walking where
  checkCancelled := Walk.checkCancelled
  advance := Walk.advance
  warn := Walk.warn

namespace Drawing

open Walker

variable {α : Type} [Coordinate α] {m : Type → Type} [Walker m]

/-- What is given to a drawing besides the tree. -/
structure Setting (α : Type) where
  config : Config α
  groups : GroupTable

/-- The style of a literal. -/
def literalStyle : Literal → String
  | .char _ => "literal"
  | .any => "any-character"
  | .set _ => "escape"
  | .escaped _ _ => "escape"

/-- The caption of a group, if it has a number. -/
def groupCaption (index : Option Nat) (name : Option String) : Option String :=
  match index, name with
  | some n, some s => some ("group #" ++ Numeral.decimal n ++ ": " ++ s)
  | some n, none => some ("group #" ++ Numeral.decimal n)
  | none, _ => none

/-- The caption of a lookaround. -/
def lookaroundCaption (d : Direction) (p : Polarity) : String :=
  (match p with
    | .positive => "positive "
    | .negative => "negative ") ++
  (match d with
    | .ahead => "lookahead"
    | .behind => "lookbehind")

/-- The style of a lookaround. -/
def lookaroundStyle : Polarity → String
  | .positive => "lookaround positive"
  | .negative => "lookaround negative"

/-- The text of a back reference. -/
def referenceText (t : Target) : String := "back reference " ++ t.label

/-- A leaf: a text in a box. -/
def leaf (s : Setting α) (style text : String) : m (Placed α) := do
  advance 1
  return labelBox s.config style text

/-- A back reference. One that leads nowhere is noted. -/
def reference (s : Setting α) (t : Target) : m (Placed α) := do
  if s.groups.resolves t then
    leaf s "backref" (referenceText t)
  else
    warn (.unresolvedReference t)
    leaf s "backref unresolved" (referenceText t)

/-- The characters that have come together in a sequence, as one text if there are any. -/
def charRun (s : Setting α) (cs : List Char) : m (List (Placed α)) := do
  if cs.isEmpty then return []
  advance cs.length
  return [labelBox s.config "literal" (quotedRun cs)]

mutual

/-- A node and all below it. -/
def node (s : Setting α) : Node → m (Placed α)
  | .sequence items => do
      checkCancelled
      let placed ← nodesInRow s [] items
      advance 1
      return row s.config placed
  | .alternation branches => do
      checkCancelled
      let placed ← nodes s branches
      advance 1
      return column s.config placed
  | .group _ name index body => do
      let content ← node s body
      advance 1
      return captionBox s.config "subexp" (groupCaption index name) content
  | .lookaround direction polarity body => do
      let content ← node s body
      advance 1
      return captionBox s.config (lookaroundStyle polarity)
        (some (lookaroundCaption direction polarity)) content
  | .repetition q body => do
      let content ← node s body
      advance 1
      return repeated s.config q content
  | .characterClass c => leaf s (if c.negated then "charset negated" else "charset") c.label
  | .literal l => leaf s (literalStyle l) l.label
  | .anchor a => leaf s "anchor" a.label
  | .backreference t => reference s t

/-- Several nodes, one after the other. -/
def nodes (s : Setting α) : List Node → m (List (Placed α))
  | [] => return []
  | n :: ns => do
      let first ← node s n
      let others ← nodes s ns
      return first :: others

/-- The items of a sequence behind the characters `run`, which have not been drawn yet. -/
def nodesInRow (s : Setting α) (run : List Char) : List Node → m (List (Placed α))
  | [] => charRun s run
  | .literal (.char c) :: ns => nodesInRow s (run ++ [c]) ns
  | n :: ns => do
      let before ← charRun s run
      let first ← node s n
      let others ← nodesInRow s [] ns
      return before ++ first :: others

end

/-- A tree between its markers. -/
def expression (c : Config α) (e : Expression) : m (Placed α) := do
  checkCancelled
  let content ← node ⟨c, e.groups⟩ e.root
  return framed c e.flags.names content

end Drawing

end PatternDiagram
