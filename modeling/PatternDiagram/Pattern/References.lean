import PatternDiagram.Pattern.Label

/-!
# Back references and the groups they name

* `GroupTable.indexOf?`, `GroupTable.resolves`: what a target names in a table of groups;
* `Node.references`: the back references of a tree in the order in which they are written;
* `GroupTable.unresolvedBeyond`, `Expression.unresolved`: those that name no group, each text once;
* `Warning`: what a drawing says about one of them.
-/

namespace PatternDiagram

/-- The number of the first group of that name. -/
def GroupTable.indexOf? (g : GroupTable) (name : String) : Option Nat :=
  (g.names.find? fun entry => entry.1 == name).map (·.2)

/-- The table has a group that the target names. -/
def GroupTable.resolves (g : GroupTable) : Target → Bool
  | .index n => decide (1 ≤ n ∧ n ≤ g.count)
  | .name s => (g.indexOf? s).isSome

namespace Node

mutual

/-- The targets of the back references of a tree, in order. -/
def references : Node → List Target
  | .backreference t => [t]
  | .sequence items => referencesAll items
  | .alternation branches => referencesAll branches
  | .group _ _ _ body => body.references
  | .repetition _ body => body.references
  | .lookaround _ _ body => body.references
  | .characterClass _ | .literal _ | .anchor _ => []

/-- The targets in several trees, one tree after the other. -/
def referencesAll : List Node → List Target
  | [] => []
  | n :: ns => n.references ++ referencesAll ns

end

end Node

/-- Of the targets those that name no group of the table and whose text has not been seen. Targets
    of the same text are taken for the same. -/
def GroupTable.unresolvedBeyond (g : GroupTable) (seen : List String) : List Target → List Target
  | [] => []
  | t :: ts =>
      if g.resolves t || seen.contains t.label then g.unresolvedBeyond seen ts
      else t :: g.unresolvedBeyond (t.label :: seen) ts

/-- The back references that name no group of the table, each once, in the order in which they are
    first written. -/
def Expression.unresolved (e : Expression) : List Target :=
  e.groups.unresolvedBeyond [] e.root.references

/-- What is said about a drawing that was made all the same. -/
inductive Warning where
  | unresolvedReference (t : Target)
  deriving DecidableEq, Repr

/-- The wording of a warning. -/
def Warning.message : Warning → String
  | .unresolvedReference (.index n) =>
      "unresolved backreference to group " ++ Numeral.decimal n
  | .unresolvedReference (.name s) =>
      "unresolved backreference to group \"" ++ s ++ "\""

end PatternDiagram
