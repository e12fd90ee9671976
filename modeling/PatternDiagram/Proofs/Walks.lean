import PatternDiagram.Proofs.Scripts

/-!
# Drawings that nobody calls off

* `Walking.Yields`: what a step of a drawing comes to, however far the walk has got, as long as
  nobody calls it off;
* `Script.count`, `Script.notes`: how many nodes a script counts, and what it notes;
  `Script.yields`: this is what its performance counts and notes;
* `Drawing.count_node`, `Drawing.notes_node`: **each node of a tree is counted once, and each of its
  references that leads nowhere is noted in order**;
* `Drawing.Draws`: the drawing of an expression; `Drawing.exists_draws`, `Drawing.Draws.unique`:
  each expression has one.
-/

namespace PatternDiagram

/-- The walk, so many nodes and warnings later. -/
def Walk.grow (w : Walk) (n : Nat) (warnings : List Warning) : Walk :=
  ⟨w.ticket.advance n, w.warnings ++ warnings⟩

@[simp] theorem Walk.cancelled_grow (w : Walk) (n : Nat) (warnings : List Warning) :
    (w.grow n warnings).ticket.cancelled = w.ticket.cancelled := rfl

theorem Walk.grow_grow (w : Walk) (m n : Nat) (front back : List Warning) :
    (w.grow m front).grow n back = w.grow (m + n) (front ++ back) := by
  simp only [grow, Ticket.advance_advance, List.append_assoc]

/-! ## 1. Steps -/

namespace Walking

variable {β : Type}

/-- **The step comes to `b`** if nobody calls it off: it counts `n` nodes and adds the warnings. -/
def Yields (m : Walking β) (b : β) (n : Nat) (warnings : List Warning) : Prop :=
  ∀ w : Walk, w.ticket.cancelled = false → m.run w = .ok b (w.grow n warnings)

/-- A step comes to one thing only. -/
theorem Yields.unique {m : Walking β} {b c : β} {n k : Nat} {front back : List Warning}
    (h : Yields m b n front) (h' : Yields m c k back) : b = c ∧ front = back := by
  have hboth := (h {} rfl).symm.trans (h' {} rfl)
  obtain ⟨hb, hw⟩ := EStateM.Result.ok.inj hboth
  have hwarnings := congrArg Walk.warnings hw
  exact ⟨hb, by simpa [Walk.grow] using hwarnings⟩

end Walking

/-! ## 2. What a script counts and notes -/

namespace Act

/-- How many nodes an act counts. -/
def count : Act → Nat
  | .advance n => n
  | _ => 0

/-- What an act notes. -/
def notes : Act → List Warning
  | .warn warning => [warning]
  | _ => []

/-- How many nodes several acts count. -/
def countAll : List Act → Nat
  | [] => 0
  | a :: acts => a.count + countAll acts

@[simp] theorem countAll_nil : countAll [] = 0 := rfl

@[simp] theorem countAll_cons (a : Act) (acts : List Act) :
    countAll (a :: acts) = a.count + countAll acts := rfl

@[simp] theorem countAll_append (front back : List Act) :
    countAll (front ++ back) = countAll front + countAll back := by
  induction front with
  | nil => rw [List.nil_append, countAll_nil, Nat.zero_add]
  | cons a front ih => rw [List.cons_append, countAll_cons, countAll_cons, ih, Nat.add_assoc]

end Act

/-- An act counts and notes what is its own. -/
theorem Walk.does_eq_grow (w : Walk) (a : Act) : w.does a = w.grow a.count a.notes := by
  cases a with
  | check => simp [does, grow, Act.count, Act.notes]
  | advance n => simp [does, grow, Act.count, Act.notes]
  | warn warning => simp [does, grow, Act.count, Act.notes]

/-- **Acts add up**: so many nodes more are counted, and these warnings are added in order. -/
theorem Walk.after_eq_grow (w : Walk) (acts : List Act) :
    w.after acts = w.grow (Act.countAll acts) (acts.flatMap Act.notes) := by
  induction acts generalizing w with
  | nil => simp [grow]
  | cons a acts ih =>
    rw [after_cons, ih, does_eq_grow, grow_grow, Act.countAll_cons, List.flatMap_cons]

namespace Script

variable {β γ : Type}

/-- How many nodes a script counts. -/
def count (p : Script β) : Nat := Act.countAll p.acts

/-- What a script notes. -/
def notes (p : Script β) : List Warning := p.acts.flatMap Act.notes

@[simp] theorem count_pure (b : β) : (pure b : Script β).count = 0 := rfl

@[simp] theorem count_bind (p : Script β) (f : β → Script γ) :
    (p >>= f).count = p.count + (f p.result).count := by
  simp [count]

@[simp] theorem count_checkCancelled : (Walker.checkCancelled : Script Unit).count = 0 := rfl

@[simp] theorem count_advance (n : Nat) : (Walker.advance n : Script Unit).count = n := rfl

@[simp] theorem count_warn (warning : Warning) :
    (Walker.warn warning : Script Unit).count = 0 := rfl

@[simp] theorem notes_pure (b : β) : (pure b : Script β).notes = [] := rfl

@[simp] theorem notes_bind (p : Script β) (f : β → Script γ) :
    (p >>= f).notes = p.notes ++ (f p.result).notes := by
  simp [notes]

@[simp] theorem notes_checkCancelled : (Walker.checkCancelled : Script Unit).notes = [] := rfl

@[simp] theorem notes_advance (n : Nat) : (Walker.advance n : Script Unit).notes = [] := rfl

@[simp] theorem notes_warn (warning : Warning) :
    (Walker.warn warning : Script Unit).notes = [warning] := rfl

/-- **What a script says** is what its performance comes to, counts and notes. -/
theorem yields (p : Script β) : Walking.Yields p.perform p.result p.count p.notes := by
  intro w hw
  rw [p.run_perform hw, w.after_eq_grow]
  rfl

end Script

/-! ## 3. Trees -/

/-- The warnings about those of the targets that lead nowhere. -/
def GroupTable.warnings (g : GroupTable) (ts : List Target) : List Warning :=
  (ts.filter fun t => !g.resolves t).map .unresolvedReference

@[simp] theorem GroupTable.warnings_nil (g : GroupTable) : g.warnings [] = [] := rfl

@[simp] theorem GroupTable.warnings_append (g : GroupTable) (ts us : List Target) :
    g.warnings (ts ++ us) = g.warnings ts ++ g.warnings us := by
  simp [warnings]

namespace Drawing

open Walking

variable {α : Type} [Coordinate α]

theorem count_leaf (s : Setting α) (style text : String) :
    (leaf s style text : Script (Placed α)).count = 1 := by
  simp [leaf]

theorem notes_leaf (s : Setting α) (style text : String) :
    (leaf s style text : Script (Placed α)).notes = [] := by
  simp [leaf]

theorem count_reference (s : Setting α) (t : Target) :
    (reference s t : Script (Placed α)).count = 1 := by
  unfold reference
  split
  · exact count_leaf s _ _
  · rw [Script.count_bind, Script.count_warn, count_leaf]

/-- A reference is noted just if it leads nowhere. -/
theorem notes_reference (s : Setting α) (t : Target) :
    (reference s t : Script (Placed α)).notes = s.groups.warnings [t] := by
  unfold reference
  by_cases h : s.groups.resolves t = true
  · rw [if_pos h, notes_leaf]
    simp [GroupTable.warnings, h]
  · rw [if_neg h, Script.notes_bind, Script.notes_warn, notes_leaf]
    simp [GroupTable.warnings, h]

/-- Characters that have come together are counted where they are drawn. -/
theorem count_charRun (s : Setting α) (cs : List Char) :
    (charRun s cs : Script (List (Placed α))).count = cs.length := by
  cases cs with
  | nil => simp [charRun]
  | cons c cs => simp [charRun]

theorem notes_charRun (s : Setting α) (cs : List Char) :
    (charRun s cs : Script (List (Placed α))).notes = [] := by
  cases cs with
  | nil => simp [charRun]
  | cons c cs => simp [charRun]

mutual

/-- **Each node of a tree is counted once.** -/
theorem count_node (s : Setting α) : ∀ x : Node,
    (node s x : Script (Placed α)).count = x.count
  | .sequence items => by simp [node, Node.count, count_nodesInRow s [] items, Nat.add_comm]
  | .alternation branches => by simp [node, Node.count, count_nodes s branches, Nat.add_comm]
  | .group _ _ _ body => by simp [node, Node.count, count_node s body, Nat.add_comm]
  | .lookaround _ _ body => by simp [node, Node.count, count_node s body, Nat.add_comm]
  | .repetition _ body => by simp [node, Node.count, count_node s body, Nat.add_comm]
  | .characterClass _ => by simp [node, Node.count, count_leaf]
  | .literal _ => by simp [node, Node.count, count_leaf]
  | .anchor _ => by simp [node, Node.count, count_leaf]
  | .backreference t => by simp [node, Node.count, count_reference]

theorem count_nodes (s : Setting α) : ∀ xs : List Node,
    (nodes s xs : Script (List (Placed α))).count = Node.countAll xs
  | [] => by simp [nodes]
  | x :: xs => by simp [nodes, count_node s x, count_nodes s xs]

theorem count_nodesInRow (s : Setting α) (run : List Char) : ∀ xs : List Node,
    (nodesInRow s run xs : Script (List (Placed α))).count = run.length + Node.countAll xs
  | [] => by simp [nodesInRow, count_charRun]
  | x :: xs => by
      rcases x.char_or_not with ⟨c, rfl⟩ | hother
      · rw [nodesInRow, count_nodesInRow s (run ++ [c]) xs]
        simp [Node.count, Nat.add_assoc]
      · rw [nodesInRow_cons s run hother]
        simp [count_charRun, count_node s x, count_nodesInRow s [] xs]

end

mutual

/-- **Each reference of a tree that leads nowhere is noted**, in order. -/
theorem notes_node (s : Setting α) : ∀ x : Node,
    (node s x : Script (Placed α)).notes = s.groups.warnings x.references
  | .sequence items => by simp [node, Node.references, notes_nodesInRow s [] items]
  | .alternation branches => by simp [node, Node.references, notes_nodes s branches]
  | .group _ _ _ body => by simp [node, Node.references, notes_node s body]
  | .lookaround _ _ body => by simp [node, Node.references, notes_node s body]
  | .repetition _ body => by simp [node, Node.references, notes_node s body]
  | .characterClass _ => by simp [node, Node.references, notes_leaf]
  | .literal _ => by simp [node, Node.references, notes_leaf]
  | .anchor _ => by simp [node, Node.references, notes_leaf]
  | .backreference t => by simp [node, Node.references, notes_reference]

theorem notes_nodes (s : Setting α) : ∀ xs : List Node,
    (nodes s xs : Script (List (Placed α))).notes = s.groups.warnings (Node.referencesAll xs)
  | [] => by simp [nodes, Node.referencesAll]
  | x :: xs => by simp [nodes, Node.referencesAll, notes_node s x, notes_nodes s xs]

theorem notes_nodesInRow (s : Setting α) (run : List Char) : ∀ xs : List Node,
    (nodesInRow s run xs : Script (List (Placed α))).notes =
      s.groups.warnings (Node.referencesAll xs)
  | [] => by simp [nodesInRow, Node.referencesAll, notes_charRun]
  | x :: xs => by
      rcases x.char_or_not with ⟨c, rfl⟩ | hother
      · rw [nodesInRow, notes_nodesInRow s (run ++ [c]) xs]
        simp [Node.references, Node.referencesAll]
      · rw [nodesInRow_cons s run hother]
        simp [Node.referencesAll, notes_charRun, notes_node s x, notes_nodesInRow s [] xs]

end

/-! ## 4. Drawings -/

/-- **A tree that nobody calls off is drawn**: its nodes are counted, and its references that lead
    nowhere are noted. -/
theorem node_yields (s : Setting α) (x : Node) :
    Yields (node s x) (node s x : Script (Placed α)).result x.count
      (s.groups.warnings x.references) := by
  have h := (node s x : Script (Placed α)).yields
  rw [perform_node, count_node, notes_node] at h
  exact h

/-- **The drawing of an expression** that nobody calls off, and the warnings that come with it. -/
def Draws (c : Config α) (e : Expression) (placed : Placed α) (warnings : List Warning) : Prop :=
  Yields (expression c e) placed e.root.count warnings

/-- An expression has one drawing. -/
theorem Draws.unique {c : Config α} {e : Expression} {placed placed' : Placed α}
    {warnings warnings' : List Warning} (h : Draws c e placed warnings)
    (h' : Draws c e placed' warnings') : placed = placed' ∧ warnings = warnings' :=
  Yields.unique h h'

theorem count_expression (c : Config α) (e : Expression) :
    (expression c e : Script (Placed α)).count = e.root.count := by
  simp [expression, count_node]

theorem notes_expression (c : Config α) (e : Expression) :
    (expression c e : Script (Placed α)).notes = e.groups.warnings e.root.references := by
  simp [expression, notes_node]

/-- The drawing of an expression is the one that its script comes to. -/
theorem draws_result (c : Config α) (e : Expression) :
    Draws c e (expression c e : Script (Placed α)).result
      (e.groups.warnings e.root.references) := by
  have h := (expression c e : Script (Placed α)).yields
  rw [perform_expression, count_expression, notes_expression] at h
  exact h

theorem exists_draws (c : Config α) (e : Expression) :
    ∃ placed, Draws c e placed (e.groups.warnings e.root.references) :=
  ⟨_, draws_result c e⟩

end Drawing

end PatternDiagram
