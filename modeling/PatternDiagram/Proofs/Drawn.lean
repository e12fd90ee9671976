import Mathlib.Data.List.SplitBy
import PatternDiagram.Proofs.Walks
import PatternDiagram.Proofs.WellFormed

/-!
# The drawing of a tree, part by part

What a drawing comes to does not depend on the walk, so it can be spoken of without one:

* `Node.induction`: what holds of a tree if it holds of the trees right below it holds of all trees;
* `Node.runs`: the items of a sequence, the neighbouring characters among them together;
* `Drawing.drawn`: the drawing of a tree. `Drawing.drawn_sequence` and the others: **it is put
  together from the drawings of the trees right below it**, one equation for each kind of root;
  `Drawing.isGroup_drawn`: each is a group;
* `Drawing.run_node_drawn`: it is what a walk comes to that nobody calls off.
-/

namespace PatternDiagram

/-! ## 1. Trees -/

namespace Node

/-- The tree has no trees below it. -/
def isLeaf : Node → Bool
  | .characterClass _ | .literal _ | .anchor _ | .backreference _ => true
  | _ => false

/-- **Induction from the leaves to the root**, one case for each kind of node that has trees below
    it. -/
@[elab_as_elim]
theorem induction {motive : Node → Prop}
    (sequence : ∀ items, (∀ x ∈ items, motive x) → motive (.sequence items))
    (alternation : ∀ branches, (∀ x ∈ branches, motive x) → motive (.alternation branches))
    (group : ∀ capturing name index body, motive body → motive (.group capturing name index body))
    (lookaround : ∀ direction polarity body, motive body →
      motive (.lookaround direction polarity body))
    (repetition : ∀ q body, motive body → motive (.repetition q body))
    (leaf : ∀ x, isLeaf x = true → motive x) : ∀ x : Node, motive x
  | .characterClass _ | .literal _ | .anchor _ | .backreference _ => leaf _ rfl
  | .sequence items => sequence items fun x _ =>
      induction sequence alternation group lookaround repetition leaf x
  | .alternation branches => alternation branches fun x _ =>
      induction sequence alternation group lookaround repetition leaf x
  | .group capturing name index body => group capturing name index body
      (induction sequence alternation group lookaround repetition leaf body)
  | .lookaround direction polarity body => lookaround direction polarity body
      (induction sequence alternation group lookaround repetition leaf body)
  | .repetition q body => repetition q body
      (induction sequence alternation group lookaround repetition leaf body)

/-- What holds of every node of a tree holds of every node of the trees in it. -/
theorem Every.below {P : Node → Prop} {x : Node} (h : x.Every P) :
    ∀ y ∈ x.preorder, y.Every P := by
  induction x using induction with
  | sequence items ih =>
    rw [preorder, preorderAll_eq_flatMap]
    refine List.forall_mem_cons.mpr ⟨h, fun y hy => ?_⟩
    obtain ⟨x, hx, hy⟩ := List.mem_flatMap.mp hy
    exact ih x hx (((every_sequence items).mp h).2 x hx) y hy
  | alternation branches ih =>
    rw [preorder, preorderAll_eq_flatMap]
    refine List.forall_mem_cons.mpr ⟨h, fun y hy => ?_⟩
    obtain ⟨x, hx, hy⟩ := List.mem_flatMap.mp hy
    exact ih x hx (((every_alternation branches).mp h).2 x hx) y hy
  | group capturing name index body ih =>
    exact List.forall_mem_cons.mpr ⟨h, ih ((every_group ..).mp h).2⟩
  | lookaround direction polarity body ih =>
    exact List.forall_mem_cons.mpr ⟨h, ih ((every_lookaround ..).mp h).2⟩
  | repetition q body ih =>
    exact List.forall_mem_cons.mpr ⟨h, ih ((every_repetition ..).mp h).2⟩
  | leaf x hx =>
    cases x with
    | characterClass c | literal l | anchor a | backreference t => simpa [preorder] using h
    | _ => cases hx

/-- Every tree in the tree of an accepted source is well formed. -/
theorem wellFormed_of_mem_preorder {source : String} {e : Expression} (h : parse source = .ok e)
    {x : Node} (hx : x ∈ e.root.preorder) : x.WellFormed := by
  obtain ⟨s, after, -, hparse, -⟩ := reader_of_parse h
  have hroot : e.root.WellFormed := Reader.wellFormed_root (by rw [hparse])
  exact hroot.below x hx

/-! ## 2. Runs -/

/-- The character, if the tree is a plain one. -/
def char? : Node → Option Char
  | .literal (.char c) => some c
  | _ => none

/-- Both are plain characters, so that they come together if they are neighbours. -/
def meets (x y : Node) : Bool := x.char?.isSome && y.char?.isSome

/-- **The items of a sequence, as they are drawn**: the characters that come together, and each
    other item by itself. No run of characters could be any longer. -/
def runs (items : List Node) : List (List Node) := items.splitBy meets

theorem char?_eq_none {x : Node} (h : ∀ c, x ≠ .literal (.char c)) : x.char? = none := by
  unfold char?
  split
  · exact absurd rfl (h _)
  · rfl

theorem filterMap_char?_chars (cs : List Char) :
    (cs.map fun c => literal (.char c)).filterMap char? = cs := by
  rw [List.filterMap_map]
  exact List.filterMap_some

theorem runs_chars {cs : List Char} (h : cs ≠ []) :
    runs (cs.map fun c => literal (.char c)) = [cs.map fun c => literal (.char c)] := by
  refine List.splitBy_of_isChain (by simpa using h) ?_
  rw [List.isChain_map]
  exact (List.pairwise_of_forall fun _ _ => rfl).isChain

/-- **An item that is no plain character** ends the run of characters before it, and the next run
    begins anew. -/
theorem runs_append_cons (cs : List Char) {x : Node} (h : ∀ c, x ≠ .literal (.char c))
    (xs : List Node) :
    runs (cs.map (fun c => literal (.char c)) ++ x :: xs) =
      runs (cs.map fun c => literal (.char c)) ++ [x] :: runs xs := by
  have hx : x.char?.isSome = false := by rw [char?_eq_none h, Option.isSome_none]
  have hbefore : (cs.map (fun c => literal (.char c)) ++ x :: xs).splitBy meets =
      (cs.map fun c => literal (.char c)).splitBy meets ++ (x :: xs).splitBy meets :=
    List.splitBy_append_cons xs fun y _ => by rw [meets, hx, Bool.and_false]
  have hbehind : (x :: xs).splitBy meets = [x] :: xs.splitBy meets := by
    have hapart : ∀ y ∈ [x].getLast?, ∀ z ∈ xs.head?, meets y z = false := by
      intro y hy z _
      obtain rfl : x = y := Option.some.inj hy
      rw [meets, hx, Bool.false_and]
    exact List.splitBy_append hapart
  rw [runs, hbefore, hbehind]
  rfl

/-- Every item is in a run. -/
theorem flatten_runs (items : List Node) : (runs items).flatten = items :=
  List.flatten_splitBy meets items

theorem mem_of_mem_runs {items run : List Node} {x : Node} (hrun : run ∈ runs items)
    (hx : x ∈ run) : x ∈ items := by
  rw [← flatten_runs items]
  exact List.mem_flatten.mpr ⟨run, hrun, hx⟩

end Node

/-! ## 3. Drawings -/

namespace Shape

variable {α : Type} [Coordinate α]

omit [Coordinate α] in
/-- The shape is a group. -/
def IsGroup (s : Shape α) : Prop := ∃ style dx dy children, s = .group style dx dy children

theorem IsGroup.plain (style : String) (children : List (Shape α)) :
    (Shape.plain style children).IsGroup := ⟨_, _, _, _, rfl⟩

theorem IsGroup.translate {s : Shape α} (h : s.IsGroup) (dx dy : α) :
    (s.translate dx dy).IsGroup := by
  obtain ⟨style, gx, gy, children, rfl⟩ := h
  exact ⟨style, gx + dx, gy + dy, children, rfl⟩

end Shape

namespace Drawing

open Node

variable {α : Type} [Coordinate α]

/-- **The drawing of a tree.** -/
def drawn (s : Setting α) (x : Node) : Placed α := (node s x : Script (Placed α)).result

/-- The drawing of items that come together: one item, or the text of several characters. -/
def drawnRun (s : Setting α) : List Node → Placed α
  | [x] => drawn s x
  | xs => labelBox s.config "literal" (quotedRun (xs.filterMap char?))

theorem result_nodes (s : Setting α) (xs : List Node) :
    (nodes s xs : Script (List (Placed α))).result = xs.map (drawn s) := by
  induction xs with
  | nil => rfl
  | cons x xs ih => rw [nodes, Script.result_bind, Script.result_bind, ih]; rfl

/-- A single character is drawn the same way alone and as a run of its own. -/
theorem drawnRun_chars (s : Setting α) (cs : List Char) :
    drawnRun s (cs.map fun c => literal (.char c)) =
      labelBox s.config "literal" (quotedRun cs) := by
  match cs with
  | [] => rfl
  | [c] => rfl
  | c :: d :: cs =>
    have hchars := filterMap_char?_chars (c :: d :: cs)
    rw [List.map_cons, List.map_cons] at hchars ⊢
    rw [drawnRun, hchars]
    simp

theorem result_charRun (s : Setting α) (cs : List Char) :
    (charRun s cs : Script (List (Placed α))).result =
      (runs (cs.map fun c => literal (.char c))).map (drawnRun s) := by
  cases cs with
  | nil => rfl
  | cons c cs =>
    rw [runs_chars (List.cons_ne_nil c cs), List.map_singleton, drawnRun_chars]
    rfl

/-- The characters that have not been drawn yet come together with those that follow. -/
theorem result_nodesInRow (s : Setting α) (cs : List Char) (xs : List Node) :
    (nodesInRow s cs xs : Script (List (Placed α))).result =
      (runs (cs.map (fun c => literal (.char c)) ++ xs)).map (drawnRun s) := by
  induction xs generalizing cs with
  | nil => rw [nodesInRow, result_charRun, List.append_nil]
  | cons x xs ih =>
    rcases x.char_or_not with ⟨c, rfl⟩ | hother
    · rw [nodesInRow, ih]
      simp
    · have hothers := ih []
      rw [List.map_nil, List.nil_append] at hothers
      rw [nodesInRow_cons s cs hother, runs_append_cons cs hother, List.map_append, List.map_cons]
      simp only [Script.result_bind, Script.result_pure, result_charRun, hothers]
      rfl

/-- **A sequence** is a row of its runs. -/
theorem drawn_sequence (s : Setting α) (items : List Node) :
    drawn s (.sequence items) = row s.config ((runs items).map (drawnRun s)) := by
  have hitems := result_nodesInRow s [] items
  rw [List.map_nil, List.nil_append] at hitems
  rw [← hitems, drawn, node]
  rfl

/-- **An alternation** is a column of its branches. -/
theorem drawn_alternation (s : Setting α) (branches : List Node) :
    drawn s (.alternation branches) = column s.config (branches.map (drawn s)) := by
  rw [← result_nodes, drawn, node]
  rfl

theorem drawn_group (s : Setting α) (capturing : Bool) (name : Option String) (index : Option Nat)
    (body : Node) :
    drawn s (.group capturing name index body) =
      captionBox s.config "subexp" (groupCaption index name) (drawn s body) := by
  rw [drawn, node]
  rfl

theorem drawn_lookaround (s : Setting α) (direction : Direction) (polarity : Polarity)
    (body : Node) :
    drawn s (.lookaround direction polarity body) =
      captionBox s.config (lookaroundStyle polarity) (some (lookaroundCaption direction polarity))
        (drawn s body) := by
  rw [drawn, node]
  rfl

theorem drawn_repetition (s : Setting α) (q : Quantifier) (body : Node) :
    drawn s (.repetition q body) = repeated s.config q (drawn s body) := by
  rw [drawn, node]
  rfl

/-- A leaf is a text in a box. -/
theorem exists_drawn_leaf (s : Setting α) {x : Node} (hx : x.isLeaf = true) :
    ∃ style text, drawn s x = labelBox s.config style text := by
  cases x with
  | characterClass c => exact ⟨_, _, by rw [drawn, node]; rfl⟩
  | literal l => exact ⟨_, _, by rw [drawn, node]; rfl⟩
  | anchor a => exact ⟨_, _, by rw [drawn, node]; rfl⟩
  | backreference t =>
    rw [drawn, node, reference]
    split
    · exact ⟨_, _, rfl⟩
    · exact ⟨_, _, rfl⟩
  | _ => cases hx

/-- **Each tree is drawn as a group.** -/
theorem isGroup_drawn (s : Setting α) (x : Node) : (drawn s x).shape.IsGroup := by
  induction x using Node.induction with
  | sequence items =>
    rw [drawn_sequence, row]
    split <;> exact .plain _ _
  | alternation branches => rw [drawn_alternation]; exact .plain _ _
  | group capturing name index body => rw [drawn_group]; exact .plain _ _
  | lookaround direction polarity body => rw [drawn_lookaround]; exact .plain _ _
  | repetition q body => rw [drawn_repetition]; exact .plain _ _
  | leaf x hx =>
    obtain ⟨style, text, heq⟩ := exists_drawn_leaf s hx
    rw [heq]
    exact .plain _ _

/-- A run of items is one of the items, or a text in a box. -/
theorem drawnRun_cases (s : Setting α) (run : List Node) :
    (∃ x ∈ run, drawnRun s run = drawn s x) ∨
      ∃ style text, drawnRun s run = labelBox s.config style text := by
  match run with
  | [] => exact .inr ⟨_, _, rfl⟩
  | [x] => exact .inl ⟨x, List.mem_singleton_self x, rfl⟩
  | x :: y :: xs => exact .inr ⟨_, _, rfl⟩

/-- What holds of every text in a box and of the drawings of the items holds of the drawings of
    their runs. -/
theorem forall_drawnRuns (s : Setting α) {P : Placed α → Prop}
    (hlabel : ∀ style text, P (labelBox s.config style text)) {items : List Node}
    (h : ∀ x ∈ items, P (drawn s x)) : ∀ p ∈ (runs items).map (drawnRun s), P p := by
  intro p hp
  obtain ⟨run, hrun, rfl⟩ := List.mem_map.mp hp
  rcases drawnRun_cases s run with ⟨x, hx, heq⟩ | ⟨style, text, heq⟩
  · rw [heq]
    exact h x (mem_of_mem_runs hrun hx)
  · rw [heq]
    exact hlabel style text

theorem map_drawnRun_ne_nil (s : Setting α) {items : List Node} (h : items ≠ []) :
    (runs items).map (drawnRun s) ≠ [] := by
  rw [ne_eq, List.map_eq_nil_iff]
  exact List.splitBy_ne_nil.mpr h

/-- **A walk through a tree** that nobody calls off comes to its drawing. -/
theorem run_node_drawn (s : Setting α) (x : Node) {w : Walk} (hw : w.ticket.cancelled = false) :
    ∃ w', (node s x : Walking (Placed α)).run w = .ok (drawn s x) w' :=
  ⟨_, node_yields s x w hw⟩

end Drawing

end PatternDiagram
