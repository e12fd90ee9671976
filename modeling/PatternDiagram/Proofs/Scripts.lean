import PatternDiagram.Drawing.Walk

/-!
# Drawings as scripts

How a tree is drawn does not depend on who walks over it. Here a walker does it who does nothing but
write down what is to be done:

* `Act`, `Script`: one thing that a drawing does on its way; what it comes to, with all of these in
  order;
* `Script.perform`: another walker does what is written down;
* `Drawing.perform_node`, `Drawing.perform_expression`: **whoever draws a tree does what its script
  says, in that order, and comes to what the script comes to**;
* `Walk.after`: a walk some acts later; `Script.run_perform_of_check`: the acts of a script are all
  done if nobody calls it off, or if it never asks whether somebody has.
-/

namespace PatternDiagram

/-! ## 1. Scripts -/

/-- One thing that a drawing does on its way. -/
inductive Act where
  | check
  | advance (n : Nat)
  | warn (warning : Warning)
  deriving DecidableEq, Repr

/-- What a drawing comes to, and what it does on its way. -/
structure Script (β : Type) where
  result : β
  acts : List Act

namespace Script

variable {β γ : Type}

instance : Monad Script where
  pure b := ⟨b, []⟩
  bind p f := ⟨(f p.result).result, p.acts ++ (f p.result).acts⟩

/-- Everything is written down, and nothing is done. -/
instance : Walker Script where
  checkCancelled := ⟨(), [.check]⟩
  advance n := ⟨(), [.advance n]⟩
  warn warning := ⟨(), [.warn warning]⟩

@[simp] theorem result_pure (b : β) : (pure b : Script β).result = b := rfl

@[simp] theorem acts_pure (b : β) : (pure b : Script β).acts = [] := rfl

@[simp] theorem result_bind (p : Script β) (f : β → Script γ) :
    (p >>= f).result = (f p.result).result := rfl

@[simp] theorem acts_bind (p : Script β) (f : β → Script γ) :
    (p >>= f).acts = p.acts ++ (f p.result).acts := rfl

@[simp] theorem acts_checkCancelled : (Walker.checkCancelled : Script Unit).acts = [.check] := rfl

@[simp] theorem acts_advance (n : Nat) : (Walker.advance n : Script Unit).acts = [.advance n] := rfl

@[simp] theorem acts_warn (warning : Warning) :
    (Walker.warn warning : Script Unit).acts = [.warn warning] := rfl

end Script

/-! ## 2. Performances -/

section

variable {m : Type → Type} [Walker m]

/-- Does one thing. -/
def Act.perform : Act → m Unit
  | .check => Walker.checkCancelled
  | .advance n => Walker.advance n
  | .warn warning => Walker.warn warning

/-- Does several things, one after the other. -/
def Act.performAll : List Act → m Unit
  | [] => pure ()
  | a :: as => do
      a.perform
      performAll as

/-- Does what is written down, and comes to the same. -/
def Script.perform {β : Type} (p : Script β) : m β := do
  Act.performAll p.acts
  return p.result

/-- An item of a sequence is a plain character, or it is not. -/
theorem Node.char_or_not (x : Node) :
    (∃ c, x = .literal (.char c)) ∨ ∀ c, x ≠ .literal (.char c) := by
  by_cases h : ∃ c, x = .literal (.char c)
  · exact .inl h
  · exact .inr fun c hc => h ⟨c, hc⟩

/-- **An item that is no plain character** is drawn behind the characters that have come together
    before it, and the next characters come together anew. -/
theorem Drawing.nodesInRow_cons {α : Type} [Coordinate α] (s : Setting α) (run : List Char)
    {x : Node} (h : ∀ c, x ≠ .literal (.char c)) (xs : List Node) :
    (nodesInRow s run (x :: xs) : m (List (Placed α))) = (do
      let before ← charRun s run
      let first ← node s x
      let others ← nodesInRow s [] xs
      return before ++ first :: others) := by
  rw [nodesInRow]
  exact h

variable [LawfulMonad m] {β γ : Type}

theorem Act.performAll_append (front back : List Act) :
    (performAll (front ++ back) : m Unit) = (do performAll front; performAll back) := by
  induction front with
  | nil => simp only [List.nil_append, performAll, pure_bind]
  | cons a front ih => simp only [List.cons_append, performAll, ih, bind_assoc]

namespace Script

@[simp] theorem perform_pure (b : β) : (pure b : Script β).perform = (pure b : m β) := by
  simp only [perform, acts_pure, Act.performAll, result_pure, pure_bind]

/-- **Two scripts one after the other** are performed one after the other. -/
@[simp] theorem perform_bind (p : Script β) (f : β → Script γ) :
    (p >>= f).perform = (p.perform >>= fun b => (f b).perform : m γ) := by
  simp only [perform, acts_bind, result_bind, Act.performAll_append, bind_assoc, pure_bind]

@[simp] theorem perform_checkCancelled :
    (Walker.checkCancelled : Script Unit).perform = (Walker.checkCancelled : m Unit) := by
  simp [perform, Act.performAll, Act.perform]

@[simp] theorem perform_advance (n : Nat) :
    (Walker.advance n : Script Unit).perform = (Walker.advance n : m Unit) := by
  simp [perform, Act.performAll, Act.perform]

@[simp] theorem perform_warn (warning : Warning) :
    (Walker.warn warning : Script Unit).perform = (Walker.warn warning : m Unit) := by
  simp [perform, Act.performAll, Act.perform]

end Script

namespace Drawing

variable {α : Type} [Coordinate α]

theorem perform_leaf (s : Setting α) (style text : String) :
    (leaf s style text : Script (Placed α)).perform = (leaf s style text : m (Placed α)) := by
  simp only [leaf, Script.perform_bind, Script.perform_advance, Script.perform_pure]

theorem perform_reference (s : Setting α) (t : Target) :
    (reference s t : Script (Placed α)).perform = (reference s t : m (Placed α)) := by
  unfold reference
  by_cases h : s.groups.resolves t = true
  · rw [if_pos h, if_pos h]
    exact perform_leaf s _ _
  · rw [if_neg h, if_neg h, Script.perform_bind, Script.perform_warn]
    simp only [perform_leaf]

theorem perform_charRun (s : Setting α) (cs : List Char) :
    (charRun s cs : Script (List (Placed α))).perform = (charRun s cs : m (List (Placed α))) := by
  cases cs with
  | nil => simp [charRun]
  | cons c cs => simp [charRun]

mutual

/-- **Whoever draws a tree** does what its script says. -/
theorem perform_node (s : Setting α) : ∀ x : Node,
    (node s x : Script (Placed α)).perform = (node s x : m (Placed α))
  | .sequence items => by
      simp only [node, Script.perform_bind, Script.perform_checkCancelled, Script.perform_advance,
        Script.perform_pure, perform_nodesInRow s [] items]
  | .alternation branches => by
      simp only [node, Script.perform_bind, Script.perform_checkCancelled, Script.perform_advance,
        Script.perform_pure, perform_nodes s branches]
  | .group _ _ _ body => by
      simp only [node, Script.perform_bind, Script.perform_advance, Script.perform_pure,
        perform_node s body]
  | .lookaround _ _ body => by
      simp only [node, Script.perform_bind, Script.perform_advance, Script.perform_pure,
        perform_node s body]
  | .repetition _ body => by
      simp only [node, Script.perform_bind, Script.perform_advance, Script.perform_pure,
        perform_node s body]
  | .characterClass _ => by simp only [node, perform_leaf]
  | .literal _ => by simp only [node, perform_leaf]
  | .anchor _ => by simp only [node, perform_leaf]
  | .backreference t => by simp only [node, perform_reference]

theorem perform_nodes (s : Setting α) : ∀ xs : List Node,
    (nodes s xs : Script (List (Placed α))).perform = (nodes s xs : m (List (Placed α)))
  | [] => by simp only [nodes, Script.perform_pure]
  | x :: xs => by
      simp only [nodes, Script.perform_bind, Script.perform_pure, perform_node s x,
        perform_nodes s xs]

theorem perform_nodesInRow (s : Setting α) (run : List Char) : ∀ xs : List Node,
    (nodesInRow s run xs : Script (List (Placed α))).perform =
      (nodesInRow s run xs : m (List (Placed α)))
  | [] => by simp only [nodesInRow, perform_charRun]
  | x :: xs => by
      rcases x.char_or_not with ⟨c, rfl⟩ | hother
      · simp only [nodesInRow, perform_nodesInRow s (run ++ [c]) xs]
      · rw [nodesInRow_cons s run hother, nodesInRow_cons s run hother]
        simp only [Script.perform_bind, Script.perform_pure, perform_charRun, perform_node s x,
          perform_nodesInRow s [] xs]

end

/-- **Whoever draws an expression** does what its script says. -/
theorem perform_expression (c : Config α) (e : Expression) :
    (expression c e : Script (Placed α)).perform = (expression c e : m (Placed α)) := by
  simp only [expression, Script.perform_bind, Script.perform_checkCancelled, Script.perform_pure,
    perform_node]

end Drawing

end

/-! ## 3. Walks -/

namespace Walk

/-- The walk after one act, if it has not been called off. -/
def does (w : Walk) : Act → Walk
  | .check => w
  | .advance n => { w with ticket := w.ticket.advance n }
  | .warn warning => { w with warnings := w.warnings ++ [warning] }

/-- The walk some acts later. -/
def after (w : Walk) (acts : List Act) : Walk := acts.foldl does w

@[simp] theorem after_nil (w : Walk) : w.after [] = w := rfl

@[simp] theorem after_cons (w : Walk) (a : Act) (acts : List Act) :
    w.after (a :: acts) = (w.does a).after acts := rfl

@[simp] theorem cancelled_does (w : Walk) (a : Act) :
    (w.does a).ticket.cancelled = w.ticket.cancelled := by
  cases a <;> rfl

/-- A walk does what is to be done, unless it is a check and somebody has called it off. -/
theorem run_act (a : Act) {w : Walk} (hw : a = .check → w.ticket.cancelled = false) :
    (a.perform : Walking Unit).run w = .ok () (w.does a) := by
  cases a with
  | check =>
    show (if w.ticket.cancelled then throw .cancelled else pure () : Walking Unit) w = _
    rw [hw rfl]
    rfl
  | advance n => rfl
  | warn warning => rfl

/-- Several acts are all done if nobody has called the walk off, or if there is no check among
    them. -/
theorem run_acts (acts : List Act) {w : Walk} (hw : .check ∈ acts → w.ticket.cancelled = false) :
    (Act.performAll acts : Walking Unit).run w = .ok () (w.after acts) := by
  induction acts generalizing w with
  | nil => rfl
  | cons a acts ih =>
    have hfirst : (a.perform : Walking Unit) w = .ok () (w.does a) :=
      run_act a fun ha => hw (ha ▸ List.mem_cons_self)
    have hrest : (Act.performAll acts : Walking Unit) (w.does a) = .ok () (w.after (a :: acts)) :=
      ih fun hmem => (w.cancelled_does a).trans (hw (List.mem_cons_of_mem a hmem))
    show EStateM.bind a.perform (fun _ => Act.performAll acts) w = _
    simp only [EStateM.bind, hfirst, hrest]

end Walk

/-- **A script in which nothing is refused** is performed from the first act to the last. -/
theorem Script.run_perform_of_check {β : Type} (p : Script β) {w : Walk}
    (hw : .check ∈ p.acts → w.ticket.cancelled = false) :
    (p.perform : Walking β).run w = .ok p.result (w.after p.acts) := by
  have hacts : (Act.performAll p.acts : Walking Unit) w = .ok () (w.after p.acts) :=
    Walk.run_acts p.acts hw
  show EStateM.bind (Act.performAll p.acts) (fun _ => pure p.result) w = _
  simp only [EStateM.bind, hacts]
  rfl

/-- So is a script that nobody calls off. -/
theorem Script.run_perform {β : Type} (p : Script β) {w : Walk} (hw : w.ticket.cancelled = false) :
    (p.perform : Walking β).run w = .ok p.result (w.after p.acts) :=
  p.run_perform_of_check fun _ => hw

end PatternDiagram
