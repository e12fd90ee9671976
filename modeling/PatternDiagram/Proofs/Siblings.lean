import PatternDiagram.Proofs.Axes

/-!
# Siblings

What stands side by side in a drawing, and what stands on top of each other:

* `Box.Apart`: no point lies within both boxes;
* `Drawing.InRow`, `Drawing.InColumn`: pictures that have been put in a row, and on top of each
  other, within a group;
* `Drawing.inRow_row`, `Drawing.inColumn_column`: this is what rows and columns do with sound
  pictures;
* `Drawing.node_spaces_siblings`: **so it is with the items of each sequence and the branches of
  each alternation** of a tree that is read.
-/

namespace PatternDiagram

open Coordinate (ofNat)

/-! ## 1. Apart -/

namespace Box

/-- The point lies within the box, and not on its edge. -/
def Inside (b : Box Rat) (p : Rat × Rat) : Prop :=
  (b.x < p.1 ∧ p.1 < b.x2) ∧ b.y < p.2 ∧ p.2 < b.y2

/-- **The boxes do not overlap**: no point lies within both. -/
def Apart (b d : Box Rat) : Prop := ∀ p, ¬ (b.Inside p ∧ d.Inside p)

theorem apart_of_x2_le {b d : Box Rat} (h : b.x2 ≤ d.x) : b.Apart d := fun p hp => by
  have hbefore := hp.1.1.2
  have hbehind := hp.2.1.1
  linarith

theorem apart_of_y2_le {b d : Box Rat} (h : b.y2 ≤ d.y) : b.Apart d := fun p hp => by
  have habove := hp.1.2.2
  have hbelow := hp.2.2.1
  linarith

end Box

/-! ## 2. Groups -/

namespace Shape

/-- What is right in a group, and not what is within that. -/
def children {α : Type} : Shape α → List (Shape α)
  | .group _ _ _ children => children
  | _ => []

/-- The shape is a connector, and not a group with connectors in it. -/
def isConnector : Shape Rat → Bool
  | .path style _ => style == "connector"
  | _ => false

theorem isConnector_translate (dx dy : Rat) (s : Shape Rat) :
    (s.translate dx dy).isConnector = s.isConnector := by
  cases s <;> rfl

end Shape

namespace Drawing

open Node Placed Spacing

/-! ## 3. Rows and columns -/

/-- **The pictures in a row**, where they have been put: their axes are as high as the lowest of
    them has been, the padding lies between neighbours, each of them is linked to the next by one
    rail, and there is no other connector. Their boxes are the measured ones, and no two of them
    overlap. -/
structure InRow (c : Config Rat) (items : List (Placed Rat)) (drawing : Shape Rat)
    (placed : List (Placed Rat)) : Prop where
  moved : List.Forall₂ Boxed.Moved items placed
  level : ∀ p ∈ placed, IsGreatest {ay | ay ∈ items.map fun i => i.box.ay} p.box.ay
  spaced : placed.IsChain fun p q => q.box.x = p.box.x2 + c.sequencePadding
  linked : drawing.children.filter Shape.isConnector =
    List.zipWith (fun p q => .rail p.box.ax2 q.box.ax p.box.ay) placed placed.tail
  shown : (drawing.children.filter fun s => !s.isConnector) = placed.map Placed.shape
  measured : ∀ p ∈ placed, p.shape.measure = p.box.raw
  apart : placed.Pairwise fun p q => p.box.Apart q.box

/-- **The pictures on top of each other**, where they have been put behind the fan-out and the
    fan-in: the padding lies between neighbours, and all have one centre. Where there is something
    to be seen, their boxes are the measured ones. No two of them overlap. -/
structure InColumn (c : Config Rat) (branches : List (Placed Rat)) (drawing : Shape Rat)
    (placed : List (Placed Rat)) : Prop where
  moved : List.Forall₂ Boxed.Moved branches placed
  spaced : placed.IsChain fun p q => q.box.y = p.box.y2 + c.alternationPadding
  centred : ∃ center, ∀ p ∈ placed, p.box.cx = center
  shown : drawing.children.drop 2 = placed.map Placed.shape
  measured : ∀ p ∈ placed, p.shape.points ≠ [] → p.shape.measure = p.box.raw
  apart : placed.Pairwise fun p q => p.box.Apart q.box

/-- One rail for each pair of neighbours. -/
theorem rails_eq_zipWith : ∀ ps : List (Placed Rat),
    rails ps = List.zipWith (fun p q => .rail p.box.ax2 q.box.ax p.box.ay) ps ps.tail
  | [] => rfl
  | [_] => rfl
  | p :: q :: ps =>
      congrArg (Shape.rail p.box.ax2 q.box.ax p.box.ay :: ·) (rails_eq_zipWith (q :: ps))

theorem isConnector_rails : ∀ ps : List (Placed Rat), ∀ s ∈ rails ps, s.isConnector = true
  | [] | [_] => fun _ hs => absurd hs List.not_mem_nil
  | _ :: q :: ps => List.forall_mem_cons.mpr ⟨rfl, isConnector_rails (q :: ps)⟩

/-- The children of a row are the rails, and then what is in it. -/
theorem children_row (c : Config Rat) (items : List (Placed Rat)) :
    (row c items).shape.children = rails (spaceHorizontally c.sequencePadding items) ++
      (spaceHorizontally c.sequencePadding items).map Placed.shape := by
  by_cases hne : items = []
  · subst hne
    rfl
  · obtain ⟨first, last, -, -, heq⟩ := exists_row c hne
    rw [heq]
    rfl

/-- **What rows do** with sound pictures that are no connectors. -/
theorem inRow_row {c : Config Rat} (hc : c.NonNegative) {items : List (Placed Rat)}
    (h : ∀ p ∈ items, p.Sound ∧ p.Visible) (hgroup : ∀ p ∈ items, p.shape.isConnector = false) :
    InRow c items (row c items).shape (spaceHorizontally c.sequencePadding items) := by
  have hrow := row_spaceHorizontally c.sequencePadding items
  have hchildren := children_row c items
  generalize spaceHorizontally c.sequencePadding items = placed at hrow hchildren
  have hrails := isConnector_rails placed
  have hplaced : ∀ s ∈ placed.map Placed.shape, s.isConnector = false := by
    intro s hs
    obtain ⟨p, hp, rfl⟩ := List.mem_map.mp hs
    obtain ⟨i, hi, dx, dy, rfl⟩ := exists_left_of_forall₂ hrow.moved p hp
    exact (Shape.isConnector_translate dx dy i.shape).trans (hgroup i hi)
  refine ⟨hrow.moved, fun p hp => ?_, hrow.spaced, ?_, ?_, fun p hp => ?_, ?_⟩
  · obtain ⟨i, hi, -⟩ := exists_left_of_forall₂ hrow.moved p hp
    rw [show p.box.ay = _ from hrow.level p hp]
    exact isGreatest_greatestOf_iff.mpr
      ⟨i.box.ay, List.mem_map_of_mem hi, (h i hi).1.ay_nonneg⟩
  · rw [hchildren, List.filter_append, List.filter_eq_self.mpr hrails,
      List.filter_eq_nil_iff.mpr fun s hs => by simp [hplaced s hs], List.append_nil,
      rails_eq_zipWith]
  · rw [hchildren, List.filter_append, List.filter_eq_nil_iff.mpr fun s hs => by simp [hrails s hs],
      List.filter_eq_self.mpr fun s hs => by simp [hplaced s hs], List.nil_append]
  · obtain ⟨i, hi, hmoved⟩ := exists_left_of_forall₂ hrow.moved p hp
    exact ((h i hi).1.of_moved (h i hi).2 hmoved).1
  · have hpairs := hrow.pairwise hc.sequencePadding fun i hi => (h i hi).1.upright.width_nonneg
    exact hpairs.imp Box.apart_of_x2_le

/-- **What columns do** with sound pictures. -/
theorem inColumn_column {c : Config Rat} (hc : c.NonNegative) {branches : List (Placed Rat)}
    (h : ∀ p ∈ branches, p.Sound) :
    InColumn c branches (column c branches).shape (stack c branches) := by
  have hcolumn := column_stack c branches
  have hpairs := hcolumn.pairwise hc.alternationPadding fun p hp => (h p hp).upright.height_nonneg
  refine ⟨hcolumn.moved, hcolumn.spaced, hcolumn.centred, rfl, fun p hp hseen => ?_,
    hpairs.imp Box.apart_of_y2_le⟩
  obtain ⟨i, hi, dx, dy, rfl⟩ := exists_left_of_forall₂ hcolumn.moved p hp
  -- What is to be seen after the move was to be seen before it.
  refine (h i hi).measured.translate (fun hnil => hseen ?_) dx dy
  show (i.shape.translate dx dy).points = []
  rw [Shape.points_translate, hnil, List.map_nil]

/-! ## 4. Trees -/

/-- Each tree is drawn as a group, and no connector by itself. -/
theorem isConnector_drawn (s : Setting Rat) (x : Node) : (drawn s x).shape.isConnector = false := by
  obtain ⟨style, dx, dy, children, heq⟩ := isGroup_drawn s x
  rw [heq]
  rfl

/-- **Siblings keep their distance.** In the drawing of each sequence of a tree that is read, the
    items, each run of characters counted once, stand in a row; in the drawing of each alternation
    the branches stand on top of each other. -/
theorem node_spaces_siblings {source : String} {e : Expression} (hparse : parse source = .ok e)
    {c : Config Rat} (hc : c.NonNegative) {w : Walk} (hw : w.ticket.cancelled = false) :
    let s : Setting Rat := ⟨c, e.groups⟩
    (∀ items, .sequence items ∈ e.root.preorder → ∃ drawing w' placed,
      (node s (.sequence items) : Walking (Placed Rat)).run w = .ok drawing w' ∧
      InRow c ((runs items).map (drawnRun s)) drawing.shape placed) ∧
    ∀ branches, .alternation branches ∈ e.root.preorder → ∃ drawing w' placed,
      (node s (.alternation branches) : Walking (Placed Rat)).run w = .ok drawing w' ∧
      InColumn c (branches.map (drawn s)) drawing.shape placed := by
  intro s
  refine ⟨fun items hitems => ?_, fun branches hbranches => ?_⟩
  · have hwell := wellFormed_of_mem_preorder hparse hitems
    obtain ⟨w', hrun⟩ := run_node_drawn s (.sequence items) hw
    refine ⟨_, w', spaceHorizontally c.sequencePadding ((runs items).map (drawnRun s)), hrun, ?_⟩
    rw [drawn_sequence]
    obtain ⟨⟨-, hall⟩, hbelow⟩ := (every_sequence items).mp hwell
    have hsound := sound_drawnRuns (s := s) hc hall fun x hx => drawn_sound hc (hbelow x hx)
    have hgroup : ∀ p ∈ (runs items).map (drawnRun s), p.shape.isConnector = false :=
      forall_drawnRuns s (fun _ _ => rfl) fun x _ => isConnector_drawn s x
    exact inRow_row hc hsound hgroup
  · have hwell := wellFormed_of_mem_preorder hparse hbranches
    obtain ⟨w', hrun⟩ := run_node_drawn s (.alternation branches) hw
    refine ⟨_, w', stack c (branches.map (drawn s)), hrun, ?_⟩
    rw [drawn_alternation]
    refine inColumn_column hc fun p hp => ?_
    obtain ⟨x, hx, rfl⟩ := List.mem_map.mp hp
    exact (drawn_sound (s := s) hc (((every_alternation branches).mp hwell).2 x hx)).1

/-- A run of two characters beside a group, above a single character. -/
theorem node_spaces_siblings_of_branches :
    let items : List Node := [.literal (.char 'a'), .literal (.char 'b'),
      .group true none (some 1) (.literal .any)]
    let branches : List Node := [.sequence items, .literal (.char 'c')]
    let s : Setting Rat := ⟨Config.standard, ⟨1, []⟩⟩
    parse "ab(.)|c" = .ok ⟨.alternation branches, {}, s.groups⟩ ∧
    (∃ drawing w' placed,
      (node s (.sequence items) : Walking (Placed Rat)).run {} = .ok drawing w' ∧
      InRow Config.standard ((runs items).map (drawnRun s)) drawing.shape placed ∧
      placed.length = 2) ∧
    ∃ drawing w' placed,
      (node s (.alternation branches) : Walking (Placed Rat)).run {} = .ok drawing w' ∧
      InColumn Config.standard (branches.map (drawn s)) drawing.shape placed := by
  intro items branches s
  have hparse : parse "ab(.)|c" = .ok ⟨.alternation branches, {}, s.groups⟩ := by
    with_unfolding_all rfl
  have hsequence : Node.sequence items ∈ (Node.alternation branches).preorder := by
    simp [branches, preorder, preorderAll]
  obtain ⟨hrow, hcolumn⟩ :=
    node_spaces_siblings hparse Config.nonNegative_standard (w := {}) rfl
  obtain ⟨drawing, w', placed, hrun, hplaced⟩ := hrow items hsequence
  have hlength : placed.length = 2 :=
    hplaced.moved.length_eq.symm.trans (by rw [List.length_map]; decide)
  exact ⟨hparse, ⟨drawing, w', placed, hrun, hplaced, hlength⟩, hcolumn branches List.mem_cons_self⟩

end Drawing

end PatternDiagram
