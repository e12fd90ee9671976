import Mathlib.Logic.Relation
import PatternDiagram.Proofs.Siblings

/-!
# Lines through a drawing

A line goes along connectors, and through the boxes of labels from edge to edge:

* `Shape.Joins`: a connector or a label leads from one point to another;
* `Shape.Leads`: a line can be followed through a shape, from one of them to the next;
* `Placed.Through`: a line can be followed from one end of the axis to the other;
* `Drawing.through_labelBox` and the others: **a line can be followed through each part of a
  drawing** if it can be followed through what is in it. A repetition without rails asks for more:
  its body has to begin and to end where its box does.
-/

namespace PatternDiagram

open Coordinate (ofNat)

/-! ## 1. Lines -/

theorem PathCommand.named_translate (dx dy : Rat) (command : PathCommand Rat) :
    (command.translate dx dy).named = command.named.map (shift dx dy) := by
  cases command <;> rfl

/-- The points of a path move with it. -/
theorem PathCommand.flatMap_named_translate (dx dy : Rat) (commands : List (PathCommand Rat)) :
    (commands.map (translate dx dy)).flatMap named =
      (commands.flatMap named).map (shift dx dy) := by
  rw [List.flatMap_map, List.map_flatMap]
  exact congrArg (commands.flatMap ·) (funext fun command => command.named_translate dx dy)

/-- The styles of connectors. -/
def connectorStyles : List String := ["connector", "connector skip", "connector loop"]

namespace Shape

variable {p q r : Rat × Rat}

/-- **The shape leads from `p` to `q`**: a connector from its first point to its last, a label from
    the middle of its left edge to the middle of its right edge. -/
def Joins (p q : Rat × Rat) : Shape Rat → Prop
  | .path style commands => style ∈ connectorStyles ∧
      (commands.flatMap PathCommand.named).head? = some p ∧
      (commands.flatMap PathCommand.named).getLast? = some q
  | .rect style x y width height _ =>
      style = "label" ∧ (x, y + height / 2) = p ∧ (x + width, y + height / 2) = q
  | _ => False

/-- **A line can be followed** through the shape from `p` to `q`. -/
def Leads (s : Shape Rat) (p q : Rat × Rat) : Prop :=
  Relation.ReflTransGen (fun p q => ∃ leaf ∈ s.leaves, leaf.Joins p q) p q

theorem Joins.translate {s : Shape Rat} (h : s.Joins p q) (dx dy : Rat) :
    (s.translate dx dy).Joins (shift dx dy p) (shift dx dy q) := by
  cases s with
  | path style commands =>
    obtain ⟨hstyle, hfirst, hlast⟩ := h
    refine ⟨hstyle, ?_, ?_⟩
    · rw [PathCommand.flatMap_named_translate, List.head?_map, hfirst]
      rfl
    · rw [PathCommand.flatMap_named_translate, List.getLast?_map, hlast]
      rfl
  | rect style x y width height rx =>
    obtain ⟨hstyle, rfl, rfl⟩ := h
    refine ⟨hstyle, ?_, ?_⟩
    · simp only [shift, add_right_comm]
    · simp only [shift, add_right_comm]
  | group style gx gy children => exact h.elim
  | circle style cx cy radius => exact h.elim
  | text style x y width height content => exact h.elim

namespace Leads

variable {s : Shape Rat}

theorem trans (h : s.Leads p q) (h' : s.Leads q r) : s.Leads p r := Relation.ReflTransGen.trans h h'

/-- **A shape that is moved** leads where it is moved to. -/
theorem translate (h : s.Leads p q) (dx dy : Rat) :
    (s.translate dx dy).Leads (shift dx dy p) (shift dx dy q) := by
  refine Relation.ReflTransGen.lift (shift dx dy) (fun a b hab => ?_) _ _ h
  obtain ⟨leaf, hleaf, hjoins⟩ := hab
  refine ⟨leaf.translate dx dy, ?_, hjoins.translate dx dy⟩
  rw [leaves_translate]
  exact List.mem_map_of_mem hleaf

/-- What leads through a child leads through the whole. -/
theorem of_child {style : String} {children : List (Shape Rat)} (hchild : s ∈ children)
    (h : s.Leads p q) : (plain style children).Leads p q := by
  refine Relation.ReflTransGen.mono (fun a b hab => ?_) _ _ h
  obtain ⟨leaf, hleaf, hjoins⟩ := hab
  refine ⟨leaf, ?_, hjoins⟩
  rw [leaves_plain]
  exact List.mem_flatMap.mpr ⟨s, hchild, hleaf⟩

end Leads

theorem Joins.leads {s : Shape Rat} (h : s.Joins p q) (hleaf : s ∈ s.leaves) : s.Leads p q :=
  Relation.ReflTransGen.single ⟨s, hleaf, h⟩

theorem leads_rail (x₁ x₂ y : Rat) : (rail x₁ x₂ y).Leads (x₁, y) (x₂, y) :=
  Joins.leads (s := .path "connector" [.move x₁ y, .line x₂ y]) ⟨by decide, rfl, rfl⟩
    (List.mem_singleton_self _)

end Shape

namespace Placed

/-- **A line can be followed** from one end of the axis to the other. -/
def Through (p : Placed Rat) : Prop := p.shape.Leads (p.box.ax, p.box.ay) (p.box.ax2, p.box.ay)

theorem Through.of_moved {p q : Placed Rat} (h : p.Through) (hmoved : Boxed.Moved p q) :
    q.Through := by
  obtain ⟨dx, dy, rfl⟩ := hmoved
  exact Shape.Leads.translate h dx dy

end Placed

namespace Drawing

open Placed Spacing

variable {c : Config Rat}

/-! ## 2. Labels and captions -/

/-- A line goes through the box of a label. -/
theorem through_labelBox (hc : c.NonNegative) (style text : String) :
    (labelBox c style text).Through := by
  rw [Through, box_labelBox hc]
  refine .of_child (s := .rect "label" 0 0 ((c.textSize text).1 + 2 * 5)
    ((c.textSize text).2 + 2 * 5) corner) List.mem_cons_self ?_
  exact Shape.Joins.leads ⟨rfl, rfl, rfl⟩ (List.mem_singleton_self _)

/-- **Rails lead from the edges of a frame** to what is in it. -/
theorem through_captionBox (style : String) (caption : Option String) {content : Placed Rat}
    (h : content.Through) : (captionBox c style caption content).Through := by
  rw [captionBox_rat]
  have hleft := Shape.leads_rail (content.box.x - 10) content.box.ax content.box.ay
  have hright := Shape.leads_rail content.box.ax2 (content.box.x2 + 10) content.box.ay
  exact (hleft.of_child (by simp)).trans
    ((Shape.Leads.of_child (by simp) h).trans (hright.of_child (by simp)))

/-! ## 3. Rows -/

/-- Through the first thing, along a rail to the next, and so on to the last. -/
theorem leads_along {s : Shape Rat} {y : Rat} {ps : List (Placed Rat)} {first last : Placed Rat}
    (hfirst : ps.head? = some first) (hlast : ps.getLast? = some last)
    (hthrough : ∀ p ∈ ps, p.box.ay = y ∧ s.Leads (p.box.ax, y) (p.box.ax2, y))
    (hrails : ∀ r ∈ rails ps, ∀ p q, r.Leads p q → s.Leads p q) :
    s.Leads (first.box.ax, y) (last.box.ax2, y) := by
  induction ps generalizing first with
  | nil => cases hfirst
  | cons p rest ih =>
    obtain rfl : p = first := Option.some.inj hfirst
    obtain ⟨hy, hp⟩ := hthrough p List.mem_cons_self
    cases rest with
    | nil =>
      obtain rfl : p = last := Option.some.inj hlast
      exact hp
    | cons q rest =>
      have hrail : s.Leads (p.box.ax2, y) (q.box.ax, y) := by
        rw [← hy]
        exact hrails _ List.mem_cons_self _ _ (Shape.leads_rail ..)
      have hrest := ih rfl (by rwa [List.getLast?_cons_cons] at hlast)
        (fun p hp => hthrough p (List.mem_cons_of_mem _ hp))
        (fun r hr => hrails r (List.mem_cons_of_mem _ hr))
      exact hp.trans (hrail.trans hrest)

/-- **A line goes through a row** from the first thing in it to the last. -/
theorem through_row (c : Config Rat) {items : List (Placed Rat)} (h : ∀ p ∈ items, p.Through) :
    (row c items).Through := by
  by_cases hne : items = []
  · -- The axis of a row of nothing is a point.
    subst hne
    have hends : (row c ([] : List (Placed Rat))).box.ax2 = (row c []).box.ax := add_zero (0 : Rat)
    rw [Through, hends]
    exact Relation.ReflTransGen.refl
  · have hrow := row_spaceHorizontally c.sequencePadding items
    obtain ⟨first, last, hfirst, hlast, heq⟩ := exists_row c hne
    rw [heq]
    generalize spaceHorizontally c.sequencePadding items = placed at hrow hfirst hlast
    have hlevel : first.box.ay = _ := hrow.level first (List.mem_of_mem_head? hfirst)
    show (Shape.plain "sequence" _).Leads (first.box.ax, first.box.ay) (last.box.ax2, first.box.ay)
    refine leads_along hfirst hlast (fun p hp => ?_) fun r hr p q hleads => ?_
    · have hay : p.box.ay = first.box.ay := (hrow.level p hp).trans hlevel.symm
      obtain ⟨i, hi, hmoved⟩ := exists_left_of_forall₂ hrow.moved p hp
      have hthrough := (h i hi).of_moved hmoved
      rw [Through, hay] at hthrough
      exact ⟨hay, hthrough.of_child (List.mem_append_right _ (List.mem_map_of_mem hp))⟩
    · exact hleads.of_child (List.mem_append_left _ hr)

/-! ## 4. Columns -/

theorem joins_fanOut (center ax ay : Rat) :
    (Shape.path "connector" (fanOut center ax ay)).Joins (0, center) (ax, ay) := by
  refine ⟨by decide, rfl, ?_⟩
  rw [fanOut, ← List.cons_append, List.flatMap_append]
  exact List.getLast?_concat

theorem joins_fanIn (center right ax2 ay : Rat) :
    (Shape.path "connector" (fanIn center right ax2 ay)).Joins (ax2, ay) (right, center) := by
  refine ⟨by decide, rfl, ?_⟩
  -- Each of the three bends ends at the fork.
  rw [fanIn]
  split_ifs <;> simp [PathCommand.named]

/-- **A line goes through a column** if it goes through one of the things in it. -/
theorem through_column (c : Config Rat) {branches : List (Placed Rat)} {branch : Placed Rat}
    (hbranch : branch ∈ branches) (h : branch.Through) : (column c branches).Through := by
  have hcolumn := column_stack c branches
  rw [column_rat]
  generalize stack c branches = placed at hcolumn
  obtain ⟨p, hp, hmoved⟩ := exists_right_of_forall₂ hcolumn.moved branch hbranch
  have hout : Shape.Leads _ _ _ := (joins_fanOut (enclosing placed).cy p.box.ax p.box.ay).leads
    (List.mem_singleton_self _)
  have hback : Shape.Leads _ _ _ := (joins_fanIn (enclosing placed).cy
    ((enclosing placed).x2 + 2 * 10) p.box.ax2 p.box.ay).leads (List.mem_singleton_self _)
  have hthrough : p.shape.Leads (p.box.ax, p.box.ay) (p.box.ax2, p.box.ay) := h.of_moved hmoved
  refine Shape.Leads.trans (q := (p.box.ax, p.box.ay)) ?_
    (Shape.Leads.trans (q := (p.box.ax2, p.box.ay)) ?_ ?_)
  · exact .of_child List.mem_cons_self (hout.of_child (List.mem_map_of_mem hp))
  · exact hthrough.of_child
      (List.mem_cons_of_mem _ (List.mem_cons_of_mem _ (List.mem_map_of_mem hp)))
  · exact .of_child (List.mem_cons_of_mem _ List.mem_cons_self)
      (hback.of_child (List.mem_map_of_mem hp))

/-! ## 5. Repetitions -/

/-- **A line goes through a repetition** if it goes through its body, and there are rails to the
    body or no room for them. -/
theorem through_repeated (c : Config Rat) (q : Quantifier) {body : Placed Rat} (h : body.Through)
    (hgap : (q.shape.skips || q.shape.loops) = false →
      body.box.ax = body.box.x ∧ body.box.ax2 = body.box.x2) :
    (repeated c q body).Through := by
  obtain ⟨ways, heq, hrails, -⟩ := exists_repeated c q body
  have hthrough : (settled q body).shape.Leads _ _ := h.of_moved (moved_settled q body)
  rw [heq]
  show (Shape.plain "repeat" (ways ++ [(settled q body).shape])).Leads
    (0, (settled q body).box.ay)
    ((settled q body).box.x2 + lead q.shape, (settled q body).box.ay)
  have hbody : (Shape.plain "repeat" (ways ++ [(settled q body).shape])).Leads _ _ :=
    hthrough.of_child (List.mem_append_right _ (List.mem_singleton_self _))
  cases hways : q.shape.skips || q.shape.loops with
  | true =>
    obtain ⟨hfirst, hsecond⟩ := hrails hways
    have hleft := Shape.leads_rail 0 (settled q body).box.ax (settled q body).box.ay
    have hright := Shape.leads_rail (settled q body).box.ax2
      ((settled q body).box.x2 + lead q.shape) (settled q body).box.ay
    exact (hleft.of_child (List.mem_append_left _ hfirst)).trans
      (hbody.trans (hright.of_child (List.mem_append_left _ hsecond)))
  | false =>
    obtain ⟨hleft, hright⟩ := hgap hways
    have hax : (settled q body).box.ax = 0 := (settled_ax q hleft).trans (lead_eq_zero hways)
    have hax2 : (settled q body).box.ax2 = (settled q body).box.x2 := by
      show body.box.ax2 + _ = body.box.x + _ + body.box.width
      rw [hright, Box.x2, add_right_comm]
    rw [lead_eq_zero hways, add_zero, ← hax2, ← hax]
    exact hbody

end Drawing

end PatternDiagram
