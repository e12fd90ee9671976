import PatternDiagram.Proofs.Acceptance
import PatternDiagram.Proofs.Tokens
import PatternDiagram.Reading.Source

/-!
# The shape of trees that are read

Hand-made trees may be stranger than what comes from a source. This file says what reading
guarantees:

* `Node.Proper`, `Node.WellFormed`: a node that fits to what is below it, and a tree of such nodes;
* `Node.Every`: what holds of every node of a tree, with one lemma for each kind of root;
* `Grammar.Choice.wellFormed` and the others: what the grammar derives from proper words is well
  formed;
* `parse_wellFormed`: **an accepted source has a well-formed tree**.
-/

namespace PatternDiagram

open Grammar

/-! ## 1. Trees -/

namespace Node

/-- The tree can be a branch of an alternation. -/
def isBranch : Node → Bool
  | .alternation _ => false
  | _ => true

/-- The tree can be an item of a sequence. -/
def isItem : Node → Bool
  | .sequence _ | .alternation _ => false
  | _ => true

/-- The root of the tree fits to what is right below it. -/
def Proper : Node → Prop
  | .sequence items => items.length ≠ 1 ∧ ∀ x ∈ items, x.isItem = true
  | .alternation branches => 2 ≤ branches.length ∧ ∀ x ∈ branches, x.isBranch = true
  | .group capturing name index _ =>
      (index.isSome = true ↔ capturing = true) ∧ (name.isSome = true → capturing = true)
  | .repetition q body => q.Proper ∧ body.isUnit = true
  | .characterClass c => c.Proper
  | .literal l => l.Proper
  | .backreference t => t.Proper
  | .anchor _ | .lookaround _ _ _ => True

/-- What is said holds of every node of the tree. -/
def Every (P : Node → Prop) (x : Node) : Prop := ∀ y ∈ x.preorder, P y

/-- **Every node of the tree is proper.** -/
def WellFormed (x : Node) : Prop := x.Every Proper

instance : ∀ x : Node, Decidable x.Proper
  | .sequence items => inferInstanceAs (Decidable (_ ∧ ∀ x ∈ items, _))
  | .alternation branches => inferInstanceAs (Decidable (_ ∧ ∀ x ∈ branches, _))
  | .group _ _ _ _ => inferInstanceAs (Decidable ((_ ↔ _) ∧ (_ → _)))
  | .repetition q body => inferInstanceAs (Decidable (q.Proper ∧ body.isUnit = true))
  | .characterClass c => inferInstanceAs (Decidable c.Proper)
  | .literal l => inferInstanceAs (Decidable l.Proper)
  | .backreference t => inferInstanceAs (Decidable t.Proper)
  | .anchor _ | .lookaround _ _ _ => isTrue trivial

instance {P : Node → Prop} [DecidablePred P] (x : Node) : Decidable (x.Every P) :=
  inferInstanceAs (Decidable (∀ y ∈ x.preorder, P y))

instance (x : Node) : Decidable x.WellFormed := inferInstanceAs (Decidable (x.Every Proper))

section Every

variable {P : Node → Prop}

theorem every_sequence (xs : List Node) :
    (sequence xs).Every P ↔ P (sequence xs) ∧ ∀ x ∈ xs, x.Every P := by
  simp only [Every, preorder, preorderAll_eq_flatMap, List.forall_mem_cons,
    List.mem_flatMap, forall_exists_index, and_imp]
  grind

theorem every_alternation (xs : List Node) :
    (alternation xs).Every P ↔ P (alternation xs) ∧ ∀ x ∈ xs, x.Every P := by
  simp only [Every, preorder, preorderAll_eq_flatMap, List.forall_mem_cons,
    List.mem_flatMap, forall_exists_index, and_imp]
  grind

theorem every_group (capturing : Bool) (name : Option String) (index : Option Nat) (x : Node) :
    (group capturing name index x).Every P ↔ P (group capturing name index x) ∧ x.Every P := by
  simp [Every, preorder]

theorem every_repetition (q : Quantifier) (x : Node) :
    (repetition q x).Every P ↔ P (repetition q x) ∧ x.Every P := by
  simp [Every, preorder]

theorem every_lookaround (direction : Direction) (polarity : Polarity) (x : Node) :
    (lookaround direction polarity x).Every P ↔
      P (lookaround direction polarity x) ∧ x.Every P := by
  simp [Every, preorder]

theorem every_literal (l : Literal) : (literal l).Every P ↔ P (literal l) := by
  simp [Every, preorder]

theorem every_anchor (a : Anchor) : (anchor a).Every P ↔ P (anchor a) := by
  simp [Every, preorder]

theorem every_backreference (t : Target) : (backreference t).Every P ↔ P (backreference t) := by
  simp [Every, preorder]

theorem every_characterClass (c : CharacterClass) :
    (characterClass c).Every P ↔ P (characterClass c) := by
  simp [Every, preorder]

theorem every_ofItems (xs : List Node) :
    (ofItems xs).Every P ↔ (xs.length ≠ 1 → P (sequence xs)) ∧ ∀ x ∈ xs, x.Every P := by
  unfold ofItems
  split
  · simp
  · rename_i hne
    have hlength : xs.length ≠ 1 := fun hone => by
      obtain ⟨x, rfl⟩ := List.length_eq_one_iff.mp hone
      exact hne x rfl
    rw [every_sequence, iff_true_intro hlength, true_implies]

theorem every_ofBranches (xs : List Node) :
    (ofBranches xs).Every P ↔ (xs.length ≠ 1 → P (alternation xs)) ∧ ∀ x ∈ xs, x.Every P := by
  unfold ofBranches
  split
  · simp
  · rename_i hne
    have hlength : xs.length ≠ 1 := fun hone => by
      obtain ⟨x, rfl⟩ := List.length_eq_one_iff.mp hone
      exact hne x rfl
    rw [every_alternation, iff_true_intro hlength, true_implies]

theorem every_node (head : GroupHead) (index : Option Nat) (x : Node) :
    (head.node index x).Every P ↔ P (head.node index x) ∧ x.Every P := by
  cases head with
  | capture name => exact every_group true name index x
  | plain => exact every_group false none none x
  | look direction polarity => exact every_lookaround direction polarity x

end Every

theorem isItem_of_isUnit {x : Node} (h : x.isUnit = true) : x.isItem = true := by
  cases x <;> simp_all [isUnit, isItem]

theorem isBranch_of_isItem {x : Node} (h : x.isItem = true) : x.isBranch = true := by
  cases x <;> simp_all [isItem, isBranch]

end Node

/-! ## 2. Trees of proper words -/

namespace Node

theorem wellFormed_ofItems {xs : List Node} (h : ∀ x ∈ xs, x.WellFormed)
    (hitems : ∀ x ∈ xs, x.isItem = true) : (ofItems xs).WellFormed :=
  (every_ofItems xs).mpr ⟨fun hlength => ⟨hlength, hitems⟩, h⟩

theorem wellFormed_ofBranches {xs : List Node} (hne : xs ≠ []) (h : ∀ x ∈ xs, x.WellFormed)
    (hbranches : ∀ x ∈ xs, x.isBranch = true) : (ofBranches xs).WellFormed := by
  have hpos : 0 < xs.length := List.length_pos_iff.mpr hne
  exact (every_ofBranches xs).mpr ⟨fun hlength => ⟨by omega, hbranches⟩, h⟩

theorem isBranch_ofItems {xs : List Node} (hitems : ∀ x ∈ xs, x.isItem = true) :
    (ofItems xs).isBranch = true := by
  unfold ofItems
  split
  · exact isBranch_of_isItem (hitems _ (by simp))
  · rfl

theorem wellFormed_node (head : GroupHead) (n : Nat) {x : Node} (h : x.WellFormed) :
    (head.node (head.number? n) x).WellFormed := by
  refine (every_node head _ x).mpr ⟨?_, h⟩
  cases head <;> simp [GroupHead.node, GroupHead.number?, Proper]

theorem isItem_node (head : GroupHead) (index : Option Nat) (x : Node) :
    (head.node index x).isItem = true := by cases head <;> rfl

end Node

namespace Grammar

theorem Piece.isItem {n n' : Nat} {ws : List Word} {x : Node} (h : Piece n ws x n') :
    x.isItem = true := by
  cases h with
  | once h =>
    cases h with
    | group head => exact Node.isItem_node head _ _
    | _ => rfl
  | repeated => rfl

mutual

theorem Row.isItem {n n' : Nat} {ws : List Word} {xs : List Node} :
    Row n ws xs n' → ∀ x ∈ xs, x.isItem = true
  | .nil _ => by simp
  | .cons h hs => List.forall_mem_cons.mpr ⟨h.isItem, hs.isItem⟩
termination_by structural h => h

theorem Choice.isBranch {n n' : Nat} {ws : List Word} {xs : List Node} :
    Choice n ws xs n' → xs ≠ [] ∧ ∀ x ∈ xs, x.isBranch = true
  | .one h => ⟨by simp, by simpa using Node.isBranch_ofItems h.isItem⟩
  | .more h hs =>
      ⟨by simp, List.forall_mem_cons.mpr ⟨Node.isBranch_ofItems h.isItem, hs.isBranch.2⟩⟩
termination_by structural h => h

end

mutual

theorem Atom.wellFormed {n n' : Nat} {ws : List Word} {x : Node} :
    Atom n ws x n' → (∀ w ∈ ws, w.Proper) → x.WellFormed
  | .literal _ l, hw => (Node.every_literal l).mpr (hw (.token (.literal l)) (by simp))
  | .anchor _ a, _ => (Node.every_anchor a).mpr trivial
  | .backreference _ t, hw =>
      (Node.every_backreference t).mpr (hw (.token (.backreference t)) (by simp))
  | .characterClass _ c, hw =>
      (Node.every_characterClass c).mpr (hw (.characterClass c) (by simp))
  | .group head body, hw => by
      refine Node.wellFormed_node head _ ?_
      exact Node.wellFormed_ofBranches body.isBranch.1
        (body.wellFormed fun w hmem => hw w (by simp [hmem])) body.isBranch.2
termination_by structural h => h

theorem Piece.wellFormed {n n' : Nat} {ws : List Word} {x : Node} :
    Piece n ws x n' → (∀ w ∈ ws, w.Proper) → x.WellFormed
  | .once h, hw => h.wellFormed hw
  | .repeated q h hx, hw => by
      have hbody := h.wellFormed fun w hmem => hw w (List.mem_append_left _ hmem)
      have hq : q.Proper := hw (.token (.quantifier q)) (by simp)
      exact (Node.every_repetition q _).mpr ⟨⟨hq, h.isUnit hx⟩, hbody⟩
termination_by structural h => h

theorem Row.wellFormed {n n' : Nat} {ws : List Word} {xs : List Node} :
    Row n ws xs n' → (∀ w ∈ ws, w.Proper) → ∀ x ∈ xs, x.WellFormed
  | .nil _, _ => by simp
  | .cons h hs, hw => by
      have hfirst := h.wellFormed fun w hmem => hw w (List.mem_append_left _ hmem)
      have hothers := hs.wellFormed fun w hmem => hw w (List.mem_append_right _ hmem)
      exact List.forall_mem_cons.mpr ⟨hfirst, hothers⟩
termination_by structural h => h

theorem Choice.wellFormed {n n' : Nat} {ws : List Word} {xs : List Node} :
    Choice n ws xs n' → (∀ w ∈ ws, w.Proper) → ∀ x ∈ xs, x.WellFormed
  | .one h, hw => by
      simpa using Node.wellFormed_ofItems (h.wellFormed hw) h.isItem
  | .more h hs, hw => by
      have hfirst := Node.wellFormed_ofItems
        (h.wellFormed fun w hmem => hw w (List.mem_append_left _ hmem)) h.isItem
      have hothers := hs.wellFormed fun w hmem => hw w (by simp [hmem])
      exact List.forall_mem_cons.mpr ⟨hfirst, hothers⟩
termination_by structural h => h

end

end Grammar

/-! ## 3. Expressions -/

/-- What a reader accepts has a well-formed tree. -/
theorem Reader.wellFormed_root {pattern : List Char} {base : Nat} {x : Node}
    (h : (Reader.ofPattern pattern base).parse.1 = .ok x) : x.WellFormed := by
  obtain ⟨ws, hws, ⟨xs, _, hxs, hroot⟩, -⟩ := (Reader.parse_iff _ _).mp h
  rw [hroot]
  exact Node.wellFormed_ofBranches hxs.isBranch.1 (hxs.wellFormed hws.proper) hxs.isBranch.2

/-- **The shape of trees.** In the tree of an accepted source an alternation has at least two
    branches, none of them an alternation; a sequence does not have exactly one item, and none of
    its items is a sequence or an alternation; what is repeated is one unit and no place, and bounds
    and ranges are in order; a group has a number if and only if it captures, and a name only then;
    references count groups from one; and an escape stands for the character that it denotes. -/
theorem parse_wellFormed {source : String} {e : Expression} (h : parse source = .ok e) :
    e.root.WellFormed := by
  obtain ⟨s, after, -, hparse, -⟩ := reader_of_parse h
  exact Reader.wellFormed_root (by rw [hparse])

/-- A lazy repetition with two bounds, an escape, and a reference. -/
theorem parse_wellFormed_of_bounds :
    ∃ e, parse "(a\x7b2,3\x7d?|\\x41)\\1" = .ok e ∧ e.root.WellFormed := by
  have h : parse "(a\x7b2,3\x7d?|\\x41)\\1" = .ok
      ⟨.sequence [.group true none (some 1) (.alternation
        [.repetition ⟨2, some 3, false⟩ (.literal (.char 'a')), .literal (.escaped 'A' .hex)]),
        .backreference (.index 1)], {}, ⟨1, []⟩⟩ := by with_unfolding_all rfl
  exact ⟨_, h, parse_wellFormed h⟩

end PatternDiagram
