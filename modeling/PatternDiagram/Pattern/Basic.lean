/-!
# Patterns as trees

What a regular expression says, apart from how it was typed. This file fixes the tree that every
other part works on:

* `Literal`, `ClassItem`, `Anchor`, `Target`: what stands at the leaves;
* `Node`: the tree, whose inner nodes are sequences, alternations, groups, repetitions and
  lookarounds;
* `Flags`, `GroupTable`, `Expression`: a tree with what was said about it as a whole;
* `Node.count`, `Node.preorder`: the number of nodes of a tree, and the nodes themselves.

Hand-made trees are allowed to be stranger than those that reading produces (an alternation of one
branch, a repetition whose bounds are out of order), so nothing here rules them out.
-/

namespace PatternDiagram

/-! ## 1. Leaves -/

/-- The six sets of characters that have an escape of their own. -/
inductive EscapeClass where
  | digit
  | nonDigit
  | word
  | nonWord
  | whitespace
  | nonWhitespace
  deriving DecidableEq, Repr

/-- One member of a character class. -/
inductive ClassItem where
  | char (c : Char)
  | range (lo hi : Char)
  | escape (e : EscapeClass)
  deriving DecidableEq, Repr

/-- A character class: the characters its items cover, or all the others if it is negated. -/
structure CharacterClass where
  negated : Bool
  items : List ClassItem
  deriving DecidableEq, Repr

/-- How an escaped character was written. A control escape keeps the letter as it was typed. -/
inductive EscapeForm where
  | lineFeed
  | carriageReturn
  | tab
  | verticalTab
  | formFeed
  | backspace
  | null
  | control (letter : Char)
  | hex
  | unicode
  | octal
  deriving DecidableEq, Repr

/-- A pattern that stands for one character of the text. -/
inductive Literal where
  /-- The character itself. -/
  | char (c : Char)
  /-- Any character at all. -/
  | any
  /-- Any character of a named set. -/
  | set (e : EscapeClass)
  /-- The character `value`, written with the escape `form`. -/
  | escaped (value : Char) (form : EscapeForm)
  deriving DecidableEq, Repr

/-- A place between two characters. -/
inductive Anchor where
  | start
  | finish
  | wordBoundary
  | nonWordBoundary
  deriving DecidableEq, Repr

/-- The group that a back reference names. -/
inductive Target where
  | index (n : Nat)
  | name (s : String)
  deriving DecidableEq, Repr

inductive Direction where
  | ahead
  | behind
  deriving DecidableEq, Repr

inductive Polarity where
  | positive
  | negative
  deriving DecidableEq, Repr

/-- How often something may be repeated: `max = none` sets no upper bound. -/
structure Quantifier where
  min : Nat
  max : Option Nat
  greedy : Bool
  deriving DecidableEq, Repr

/-! ## 2. Trees -/

/-- The tree of a pattern. A group that captures has its number in `index`, counted from 1 in the
    order of the opening parentheses. -/
inductive Node where
  | sequence (items : List Node)
  | alternation (branches : List Node)
  | group (capturing : Bool) (name : Option String) (index : Option Nat) (body : Node)
  | characterClass (c : CharacterClass)
  | literal (l : Literal)
  | repetition (q : Quantifier) (body : Node)
  | anchor (a : Anchor)
  | backreference (t : Target)
  | lookaround (direction : Direction) (polarity : Polarity) (body : Node)
  deriving Repr

namespace Node

/-- The pattern that matches the empty text and nothing else. -/
def empty : Node := .sequence []

mutual

/-- The number of nodes of a tree, its root included. -/
def count : Node → Nat
  | .sequence items => 1 + countAll items
  | .alternation branches => 1 + countAll branches
  | .group _ _ _ body => 1 + body.count
  | .repetition _ body => 1 + body.count
  | .lookaround _ _ body => 1 + body.count
  | .characterClass _ | .literal _ | .anchor _ | .backreference _ => 1

/-- The number of nodes of several trees together. -/
def countAll : List Node → Nat
  | [] => 0
  | n :: ns => n.count + countAll ns

end

@[simp] theorem countAll_nil : countAll [] = 0 := rfl

@[simp] theorem countAll_cons (n : Node) (ns : List Node) :
    countAll (n :: ns) = n.count + countAll ns := rfl

theorem countAll_append (ms ns : List Node) :
    countAll (ms ++ ns) = countAll ms + countAll ns := by
  induction ms with
  | nil => simp
  | cons m ms ih => simp [ih, Nat.add_assoc]

mutual

/-- A tree and all its subtrees, each before those below it. -/
def preorder : Node → List Node
  | .sequence items => .sequence items :: preorderAll items
  | .alternation branches => .alternation branches :: preorderAll branches
  | .group capturing name index body => .group capturing name index body :: body.preorder
  | .repetition q body => .repetition q body :: body.preorder
  | .lookaround direction polarity body => .lookaround direction polarity body :: body.preorder
  | .characterClass c => [.characterClass c]
  | .literal l => [.literal l]
  | .anchor a => [.anchor a]
  | .backreference t => [.backreference t]

/-- Several trees with all their subtrees, one tree after the other. -/
def preorderAll : List Node → List Node
  | [] => []
  | n :: ns => n.preorder ++ preorderAll ns

end

mutual

/-- **There are as many nodes as are counted.** -/
theorem length_preorder (n : Node) : n.preorder.length = n.count := by
  cases n with
  | sequence items => simp [preorder, count, length_preorderAll items, Nat.add_comm]
  | alternation branches => simp [preorder, count, length_preorderAll branches, Nat.add_comm]
  | group capturing name index body =>
    simp [preorder, count, length_preorder body, Nat.add_comm]
  | repetition q body => simp [preorder, count, length_preorder body, Nat.add_comm]
  | lookaround direction polarity body =>
    simp [preorder, count, length_preorder body, Nat.add_comm]
  | characterClass c => simp [preorder, count]
  | literal l => simp [preorder, count]
  | anchor a => simp [preorder, count]
  | backreference t => simp [preorder, count]

theorem length_preorderAll (ns : List Node) : (preorderAll ns).length = countAll ns := by
  cases ns with
  | nil => rfl
  | cons n ns => simp [preorderAll, length_preorder n, length_preorderAll ns]

end

/-- The trees one after the other. A sequence of exactly one item is that item. -/
def ofItems : List Node → Node
  | [n] => n
  | ns => .sequence ns

/-- A choice between the trees. An alternation of exactly one branch is that branch. -/
def ofBranches : List Node → Node
  | [n] => n
  | ns => .alternation ns

@[simp] theorem ofItems_singleton (n : Node) : ofItems [n] = n := rfl

@[simp] theorem ofBranches_singleton (n : Node) : ofBranches [n] = n := rfl

end Node

/-! ## 3. Whole expressions -/

/-- The letters that may follow a delimited pattern, each set or not. -/
structure Flags where
  hasIndices : Bool := false
  global : Bool := false
  ignoreCase : Bool := false
  multiline : Bool := false
  dotAll : Bool := false
  unicode : Bool := false
  unicodeSets : Bool := false
  sticky : Bool := false
  deriving DecidableEq, Repr

namespace Flags

/-- No flag is set. -/
def isEmpty (f : Flags) : Bool := f = {}

/-- The names of the flags that are set, in the order in which their letters are printed. -/
def names (f : Flags) : List String :=
  [(f.hasIndices, "indices"), (f.global, "global"), (f.ignoreCase, "ignore case"),
    (f.multiline, "multiline"), (f.dotAll, "dot all"), (f.unicode, "unicode"),
    (f.unicodeSets, "unicode sets"), (f.sticky, "sticky")].filterMap
      fun (set, name) => if set then some name else none

end Flags

/-- The capturing groups of an expression: how many there are, and which have names. -/
structure GroupTable where
  count : Nat := 0
  names : List (String × Nat) := []
  deriving DecidableEq, Repr

/-- A tree together with its flags and its groups. -/
structure Expression where
  root : Node
  flags : Flags := {}
  groups : GroupTable := {}
  deriving Repr

end PatternDiagram
