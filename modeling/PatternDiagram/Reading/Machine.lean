import PatternDiagram.Reading.Token
import PatternDiagram.Reading.ClassBody

/-!
# Reading a tree

A pattern is read token by token. What has been read of the groups that are still open lies on a
stack:

* `Naming`: the numbers and names given out so far, and the names that a new group must not have;
* `Alternation`: the alternation that is being read: its finished branches and the items of the
  branch that has been begun;
* `OpenGroup`: a group whose end has not been reached, with the alternation around it;
* `Machine`, `Machine.step`: one token;
* `Machine.run`: all tokens. Each one leaves less of the pattern (`Machine.step_length`), so reading
  comes to an end.
-/

namespace PatternDiagram

/-! ## 1. Names -/

/-- Numbers and names of groups. Two groups may share a name only if they lie in different branches
    of an alternation, so `scope` holds the names of those that came before on the way to here. -/
structure Naming where
  /-- The number of the next capturing group. -/
  next : Nat := 1
  /-- The named groups with their numbers, in order. -/
  table : List (String × Nat) := []
  /-- The names that a new group must not have. -/
  scope : List String := []
  deriving DecidableEq, Repr

namespace Naming

/-- The names from position `mark` of the scope on. -/
def since (n : Naming) (mark : Nat) : List String := n.scope.drop mark

/-- Forgets the names from position `mark` of the scope on. -/
def forget (n : Naming) (mark : Nat) : Naming := { n with scope := n.scope.take mark }

/-- Brings names into scope, each of them once. -/
def bring (n : Naming) (names : List String) : Naming :=
  { n with scope := names.foldl (fun scope s => if s ∈ scope then scope else scope ++ [s]) n.scope }

/-- The number of a group that captures and its place in the table, if it has a name. A name that is
    in scope is refused, but its number is gone all the same. -/
def allot (n : Naming) (name : Option String) : Except Naming (Nat × Naming) :=
  let after := { n with next := n.next + 1 }
  match name with
  | none => .ok (n.next, after)
  | some s =>
      if s ∈ n.scope then .error after
      else .ok (n.next, { after with
        table := n.table ++ [(s, n.next)], scope := n.scope ++ [s] })

end Naming

/-! ## 2. Open alternations and groups -/

/-- An alternation that is being read. Items and branches stand last first. -/
structure Alternation where
  /-- The items of the branch that has been begun. -/
  items : List Node := []
  /-- The finished branches. -/
  branches : List Node := []
  /-- How many names were in scope where the alternation begins. -/
  mark : Nat
  /-- The names of groups in the finished branches. -/
  declared : List String := []
  deriving Repr

namespace Alternation

/-- One more item. -/
def push (a : Alternation) (n : Node) : Alternation := { a with items := n :: a.items }

/-- The branch that has been begun, as it is. -/
def branch (a : Alternation) : Node := Node.ofItems a.items.reverse

/-- The end of a branch. The names in it are out of sight of the next one. -/
def bar (a : Alternation) (n : Naming) : Alternation × Naming :=
  ({ a with
      items := []
      branches := a.branch :: a.branches
      declared := a.declared ++ n.since a.mark },
    n.forget a.mark)

/-- The alternation as it is. -/
def node (a : Alternation) : Node := Node.ofBranches (a.branch :: a.branches).reverse

/-- The end of the alternation. What follows it meets the names of all branches. -/
def close (a : Alternation) (n : Naming) : Node × Naming :=
  (a.node, (n.forget a.mark).bring (a.declared ++ n.since a.mark))

end Alternation

/-- A group whose end has not been reached. -/
structure OpenGroup where
  head : GroupHead
  /-- The number of a group that captures. -/
  index : Option Nat
  /-- What is left of the pattern from the opening parenthesis on. -/
  site : List Char
  /-- The alternation that the group is an item of. -/
  outer : Alternation
  deriving Repr

/-- A group with its body. -/
def GroupHead.node (head : GroupHead) (index : Option Nat) (body : Node) : Node :=
  match head with
  | .capture name => .group true name index body
  | .plain => .group false none none body
  | .look direction polarity => .lookaround direction polarity body

/-- Something that a quantifier may follow. Nothing is repeated at a place between characters, or
    behind one, or twice. -/
def Node.isRepeatable : Node → Bool
  | .anchor _ => false
  | .lookaround .behind _ _ => false
  | .repetition _ _ => false
  | _ => true

/-! ## 3. One token -/

/-- A pattern in the middle of reading. -/
structure Machine where
  naming : Naming
  current : Alternation
  stack : List OpenGroup := []
  rest : List Char
  deriving Repr

/-- What one token leads to. -/
inductive Step where
  | next (m : Machine)
  | done (root : Node) (naming : Naming)
  | failed (f : Failure) (naming : Naming)
  deriving Repr

namespace Machine

/-- Before the first token. -/
def start (naming : Naming) (pattern : List Char) : Machine where
  naming := naming
  current := { mark := naming.scope.length }
  rest := pattern

/-- The machine with one more item, `rest` left to read. -/
def push (m : Machine) (n : Node) (rest : List Char) : Machine :=
  { m with current := m.current.push n, rest := rest }

/-- The end of the pattern. -/
def atEnd (m : Machine) : Step :=
  let (root, naming) := m.current.close m.naming
  match m.stack with
  | [] => .done root naming
  | g :: _ => .failed ⟨.unterminatedGroup, g.site, []⟩ naming

/-- The begin of a group, at `m.rest`. -/
def openGroup (m : Machine) (head : GroupHead) (rest : List Char) : Step :=
  let enter (index : Option Nat) (naming : Naming) : Step :=
    .next {
      naming := naming
      current := { mark := naming.scope.length }
      stack := ⟨head, index, m.rest, m.current⟩ :: m.stack
      rest := rest }
  match head with
  | .capture name =>
      match m.naming.allot name with
      | .ok (index, naming) => enter (some index) naming
      | .error naming => .failed ⟨.duplicateGroupName (name.getD ""), m.rest, rest⟩ naming
  | _ => enter none m.naming

/-- The end of a group, at `m.rest`. -/
def closeGroup (m : Machine) (rest : List Char) : Step :=
  let (body, naming) := m.current.close m.naming
  match m.stack with
  | [] => .failed ⟨.unmatchedClose, m.rest, rest⟩ naming
  | g :: stack =>
      .next {
        naming := naming
        current := g.outer.push (g.head.node g.index body)
        stack := stack
        rest := rest }

/-- A quantifier, at `m.rest`. It takes the place of the last item. -/
def quantify (m : Machine) (q : Quantifier) (rest : List Char) : Step :=
  match m.current.items with
  | [] => .failed ⟨.nothingToRepeat, m.rest, rest⟩ m.naming
  | n :: items =>
      if n.isRepeatable then
        .next { m with
          current := { m.current with items := .repetition q n :: items }
          rest := rest }
      else .failed ⟨.nothingToRepeat, m.rest, m.rest⟩ m.naming

/-- The next branch. -/
def bar (m : Machine) (rest : List Char) : Step :=
  let (current, naming) := m.current.bar m.naming
  .next { m with current, naming, rest }

/-- A character class, opened at `m.rest`; `rest` begins with its first member. -/
def characterClass (m : Machine) (negated : Bool) (rest : List Char) : Step :=
  match ClassBody.read m.rest rest with
  | .error f => .failed f m.naming
  | .ok (items, rest) => .next (m.push (.characterClass ⟨negated, items⟩) rest)

/-- What a token leads to where an item has to begin or to be repeated. Nothing that ends the items
    comes here (see `take`). -/
def item (m : Machine) (t : Token) (rest : List Char) : Step :=
  match t with
  | .literal l => .next (m.push (.literal l) rest)
  | .anchor a => .next (m.push (.anchor a) rest)
  | .backreference target => .next (m.push (.backreference target) rest)
  | .classOpen negated => m.characterClass negated rest
  | .groupOpen head => m.openGroup head rest
  | .quantifier q => m.quantify q rest
  | .groupClose => .failed ⟨.unmatchedClose, m.rest, rest⟩ m.naming
  | .bar => .failed ⟨.unexpectedBar, m.rest, rest⟩ m.naming

/-- What a token leads to that leaves `rest`. A closing parenthesis and a bar end the items that
    come before, any other token belongs to an item. -/
def take (m : Machine) (t : Token) (rest : List Char) : Step :=
  match t with
  | .groupClose => m.closeGroup rest
  | .bar => m.bar rest
  | t => m.item t rest

/-- One token. If there is none at the front, reading stops before it. -/
def step (m : Machine) : Step :=
  match Token.next m.rest with
  | .error f => .failed { f with stop := m.rest } m.naming
  | .ok none => m.atEnd
  | .ok (some (t, rest)) => m.take t rest

/-! ## 4. All tokens -/

theorem take_rest {m m' : Machine} {t : Token} {rest : List Char} (h : m.take t rest = .next m') :
    m'.rest <:+ rest := by
  cases t with
  | literal l => simp only [take, item, push, Step.next.injEq] at h; simp [← h]
  | anchor a => simp only [take, item, push, Step.next.injEq] at h; simp [← h]
  | backreference target => simp only [take, item, push, Step.next.injEq] at h; simp [← h]
  | classOpen negated =>
    simp only [take, item, characterClass] at h
    split at h
    · simp at h
    · rename_i items left hread
      simp only [push, Step.next.injEq] at h
      rw [← h]
      exact ClassBody.read_suffix hread
  | groupOpen head =>
    simp only [take, item, openGroup] at h
    split at h
    · split at h
      · simp only [Step.next.injEq] at h; simp [← h]
      · simp at h
    · simp only [Step.next.injEq] at h; simp [← h]
  | groupClose =>
    simp only [take, closeGroup] at h
    split at h
    · simp at h
    · simp only [Step.next.injEq] at h; simp [← h]
  | quantifier q =>
    simp only [take, item, quantify] at h
    split at h
    · simp at h
    · split at h
      · simp only [Step.next.injEq] at h; simp [← h]
      · simp at h
  | bar => simp only [take, bar, Step.next.injEq] at h; simp [← h]

/-- **A token that leads on leaves less of the pattern.** -/
theorem step_length {m m' : Machine} (h : m.step = .next m') : m'.rest.length < m.rest.length := by
  unfold step at h
  split at h
  · simp at h
  · simp only [atEnd] at h
    split at h <;> simp at h
  · rename_i t rest hnext
    exact Nat.lt_of_le_of_lt (take_rest h).length_le (Token.next_length hnext)

/-- What reading comes to: a tree or a failure, and the numbers and names given out. -/
structure Outcome where
  result : Except Failure Node
  naming : Naming

/-- Reads to the end of the pattern or to the first fault. -/
def run (m : Machine) : Outcome :=
  match _ : m.step with
  | .next m' => m'.run
  | .done root naming => ⟨.ok root, naming⟩
  | .failed f naming => ⟨.error f, naming⟩
termination_by m.rest.length
decreasing_by exact step_length ‹m.step = .next m'›

end Machine

end PatternDiagram
