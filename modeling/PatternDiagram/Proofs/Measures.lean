import Mathlib.Algebra.Order.Ring.Rat
import Mathlib.Data.List.Induction
import Mathlib.Order.Bounds.Basic
import Mathlib.Tactic.Linarith
import Mathlib.Tactic.Ring
import PatternDiagram.Proofs.Points

/-!
# Exact measures

Over exact numbers a measured box is the smallest one around what is measured, and it moves with it.

* `Span.exists_widened_all`: an interval that has been widened by several numbers reaches from the
  least to the greatest of them;
* `RawBox.Holds`, `RawBox.Tight`: a point lies in a box; a box is the smallest around some points;
* `Shape.tight_measure`, `tight_enclosing`: **what measuring comes to**, if there is anything to
  measure;
* `Shape.measure_translate`: **a shape that is moved measures as a moved box**;
* `Shape.LiesIn`, `Shape.liesIn_of_mem_leaves`: **what a shape is made of lies within its measured
  box**, at any depth.
-/

namespace PatternDiagram

open Coordinate (ofNat)

/-! ## 1. Intervals -/

namespace Coordinate

theorem isNumber_rat (a : Rat) : IsNumber a := le_refl a

theorem least_rat (a b : Rat) : least a b = min a b := by
  unfold least
  rw [if_pos (isNumber_rat a)]
  rcases lt_or_ge b a with h | h
  · rw [if_pos h, min_eq_right h.le]
  · rw [if_neg (not_lt.mpr h), min_eq_left h]

theorem greatest_rat (a b : Rat) : greatest a b = max a b := by
  unfold greatest
  rw [if_pos (isNumber_rat a)]
  rcases lt_or_ge a b with h | h
  · rw [if_pos h, max_eq_right h.le]
  · rw [if_neg (not_lt.mpr h), max_eq_left h]

end Coordinate

namespace Span

/-- The coordinate lies in the interval. -/
def Holds (s : Span Rat) (x : Rat) : Prop := s.low ≤ x ∧ x ≤ s.high

/-- **An interval that has been widened** by several numbers reaches from the least to the greatest
    of them. -/
theorem exists_widened_all {xs : List Rat} (h : xs ≠ []) :
    ∃ s, xs.foldl widen none = some s ∧ IsLeast {x | x ∈ xs} s.low ∧
      IsGreatest {x | x ∈ xs} s.high := by
  induction xs using List.reverseRecOn with
  | nil => exact absurd rfl h
  | append_singleton xs x ih =>
    have hset : {y | y ∈ xs ++ [x]} = insert x {y | y ∈ xs} := by
      ext y
      simp [or_comm]
    rw [List.foldl_append, hset]
    by_cases hxs : xs = []
    · subst hxs
      refine ⟨⟨x, x⟩, if_pos (Coordinate.isNumber_rat x), ?_, ?_⟩
      · simp
      · simp
    · obtain ⟨s, hs, hlow, hhigh⟩ := ih hxs
      refine ⟨_, congrArg (widen · x) hs, ?_, ?_⟩
      · show IsLeast _ (Coordinate.least s.low x)
        rw [Coordinate.least_rat, min_comm]
        exact hlow.insert x
      · show IsGreatest _ (Coordinate.greatest s.high x)
        rw [Coordinate.greatest_rat, max_comm]
        exact hhigh.insert x

end Span

/-! ## 2. Boxes -/

/-- How far something is moved. -/
def shift (dx dy : Rat) (p : Rat × Rat) : Rat × Rat := (p.1 + dx, p.2 + dy)

/-- The box as it is measured, without its axis. -/
def Box.raw (b : Box Rat) : RawBox Rat :=
  { x := b.x, y := b.y, width := b.width, height := b.height }

namespace RawBox

variable {b b' : RawBox Rat} {ps : List (Rat × Rat)} {p : Rat × Rat}

/-- The point lies in the box. -/
def Holds (b : RawBox Rat) (p : Rat × Rat) : Prop :=
  (b.x ≤ p.1 ∧ p.1 ≤ b.x + b.width) ∧ b.y ≤ p.2 ∧ p.2 ≤ b.y + b.height

/-- **The smallest box around the points.** It has no axis. -/
structure Tight (b : RawBox Rat) (ps : List (Rat × Rat)) : Prop where
  bare : b = { x := b.x, y := b.y, width := b.width, height := b.height }
  left : IsLeast {x | x ∈ ps.map Prod.fst} b.x
  right : IsGreatest {x | x ∈ ps.map Prod.fst} (b.x + b.width)
  top : IsLeast {y | y ∈ ps.map Prod.snd} b.y
  bottom : IsGreatest {y | y ∈ ps.map Prod.snd} (b.y + b.height)

namespace Tight

theorem holds (h : b.Tight ps) (hp : p ∈ ps) : b.Holds p := by
  have hx : p.1 ∈ ps.map Prod.fst := List.mem_map_of_mem hp
  have hy : p.2 ∈ ps.map Prod.snd := List.mem_map_of_mem hp
  exact ⟨⟨h.left.2 hx, h.right.2 hx⟩, h.top.2 hy, h.bottom.2 hy⟩

theorem width_nonneg (h : b.Tight ps) : 0 ≤ b.width := by
  have := h.right.2 h.left.1
  linarith

theorem height_nonneg (h : b.Tight ps) : 0 ≤ b.height := by
  have := h.bottom.2 h.top.1
  linarith

/-- A box that holds all the points, each of its edges at one of them, is the smallest. -/
theorem of_holds (hbare : b = { x := b.x, y := b.y, width := b.width, height := b.height })
    (hholds : ∀ p ∈ ps, b.Holds p) (hleft : ∃ p ∈ ps, p.1 = b.x)
    (hright : ∃ p ∈ ps, p.1 = b.x + b.width) (htop : ∃ p ∈ ps, p.2 = b.y)
    (hbottom : ∃ p ∈ ps, p.2 = b.y + b.height) : b.Tight ps where
  bare := hbare
  left := ⟨List.mem_map.mpr hleft, fun x hx => by
    obtain ⟨p, hp, rfl⟩ := List.mem_map.mp hx
    exact (hholds p hp).1.1⟩
  right := ⟨List.mem_map.mpr hright, fun x hx => by
    obtain ⟨p, hp, rfl⟩ := List.mem_map.mp hx
    exact (hholds p hp).1.2⟩
  top := ⟨List.mem_map.mpr htop, fun y hy => by
    obtain ⟨p, hp, rfl⟩ := List.mem_map.mp hy
    exact (hholds p hp).2.1⟩
  bottom := ⟨List.mem_map.mpr hbottom, fun y hy => by
    obtain ⟨p, hp, rfl⟩ := List.mem_map.mp hy
    exact (hholds p hp).2.2⟩

theorem ne_nil (h : b.Tight ps) : ps ≠ [] := fun hnil => by
  have hleft := h.left.1
  rw [hnil] at hleft
  cases hleft

/-- There is only one. -/
theorem unique (h : b.Tight ps) (h' : b'.Tight ps) : b = b' := by
  have hx : b.x = b'.x := h.left.unique h'.left
  have hy : b.y = b'.y := h.top.unique h'.top
  have hwidth : b.width = b'.width := by
    have := h.right.unique h'.right
    linarith
  have hheight : b.height = b'.height := by
    have := h.bottom.unique h'.bottom
    linarith
  rw [h.bare, h'.bare, hx, hy, hwidth, hheight]

/-- A box that holds all the points holds the smallest one around them. -/
theorem subset (h : b.Tight ps) (hps : ∀ q ∈ ps, b'.Holds q) (hp : b.Holds p) : b'.Holds p := by
  obtain ⟨q₁, hq₁, hleft⟩ := List.mem_map.mp h.left.1
  obtain ⟨q₂, hq₂, hright⟩ := List.mem_map.mp h.right.1
  obtain ⟨q₃, hq₃, htop⟩ := List.mem_map.mp h.top.1
  obtain ⟨q₄, hq₄, hbottom⟩ := List.mem_map.mp h.bottom.1
  have h₁ := (hps q₁ hq₁).1.1
  have h₂ := (hps q₂ hq₂).1.2
  have h₃ := (hps q₃ hq₃).2.1
  have h₄ := (hps q₄ hq₄).2.2
  rw [hleft] at h₁
  rw [hright] at h₂
  rw [htop] at h₃
  rw [hbottom] at h₄
  exact ⟨⟨h₁.trans hp.1.1, hp.1.2.trans h₂⟩, h₃.trans hp.2.1, hp.2.2.trans h₄⟩

/-- It moves with the points. -/
theorem shifted (h : b.Tight ps) (dx dy : Rat) :
    Tight { x := b.x + dx, y := b.y + dy, width := b.width, height := b.height }
      (ps.map (shift dx dy)) := by
  have hset (f : Rat × Rat → Rat) (d : Rat) (hf : ∀ p ∈ ps, f (shift dx dy p) = f p + d) :
      {x | x ∈ (ps.map (shift dx dy)).map f} = (· + d) '' {x | x ∈ ps.map f} := by
    ext x
    simp only [List.map_map, Set.mem_image, List.mem_map, Set.mem_ofPred_eq, Function.comp_apply,
      exists_exists_and_eq_and]
    exact exists_congr fun p => and_congr_right fun hp => by rw [hf p hp]
  have hx := hset Prod.fst dx fun _ _ => rfl
  have hy := hset Prod.snd dy fun _ _ => rfl
  have hmono (d : Rat) : Monotone (· + d) := fun _ _ hle => by simpa using hle
  have hright : b.x + dx + b.width = b.x + b.width + dx := by ring
  have hbottom : b.y + dy + b.height = b.y + b.height + dy := by ring
  refine ⟨rfl, ?_, ?_, ?_, ?_⟩
  · rw [hx]
    exact (hmono dx).map_isLeast h.left
  · rw [hx, hright]
    exact (hmono dx).map_isGreatest h.right
  · rw [hy]
    exact (hmono dy).map_isLeast h.top
  · rw [hy, hbottom]
    exact (hmono dy).map_isGreatest h.bottom

end Tight

end RawBox

/-! ## 3. Measuring -/

/-- **What measuring comes to**: the smallest box around the points. -/
theorem Extent.tight_toRaw {ps : List (Rat × Rat)} (h : ps ≠ []) :
    (Extent.empty.addPoints ps).toRaw.Tight ps := by
  have hxs : ps.map Prod.fst ≠ [] := by simpa using h
  have hys : ps.map Prod.snd ≠ [] := by simpa using h
  obtain ⟨horizontal, hhorizontal, hleft, hright⟩ := Span.exists_widened_all hxs
  obtain ⟨vertical, hvertical, htop, hbottom⟩ := Span.exists_widened_all hys
  have hextent : Extent.empty.addPoints ps = ⟨some horizontal, some vertical⟩ := by
    rw [addPoints_eq]
    exact congrArg₂ Extent.mk hhorizontal hvertical
  rw [hextent]
  refine ⟨rfl, hleft, ?_, htop, ?_⟩
  · show IsGreatest _ (horizontal.low + (horizontal.high - horizontal.low))
    rwa [add_sub_cancel]
  · show IsGreatest _ (vertical.low + (vertical.high - vertical.low))
    rwa [add_sub_cancel]

/-- The box around several things is the smallest around their corners. -/
theorem tight_enclosing {ι : Type} [Boxed ι Rat] {items : List ι} (h : items ≠ []) :
    (enclosing items).raw.Tight (items.flatMap fun i => (Boxed.box i).corners) := by
  have hne : (items.flatMap fun i => (Boxed.box i).corners) ≠ [] := fun hnil => by
    cases items with
    | nil => exact h rfl
    | cons i items => cases hnil
  have htight := Extent.tight_toRaw hne
  rw [enclosing_eq]
  rwa [htight.bare] at htight

theorem forall_corners {P : Rat × Rat → Prop} {x y width height : Rat} :
    (∀ p ∈ corners x y width height, P p) ↔ P (x, y) ∧ P (x + width, y + height) := by
  simp [corners]

/-- The corners of a box lie in it, if its sizes are not negative. -/
theorem RawBox.holds_corners {x y width height : Rat} (hwidth : 0 ≤ width) (hheight : 0 ≤ height) :
    ∀ p ∈ corners x y width height, Holds { x, y, width, height } p := by
  refine forall_corners.mpr ⟨?_, ?_⟩
  · exact ⟨⟨le_refl x, by linarith⟩, le_refl y, by linarith⟩
  · exact ⟨⟨by linarith, le_refl _⟩, by linarith, le_refl _⟩

/-- A box is the smallest around its corners and what lies in it. -/
theorem RawBox.Tight.of_corners {x y width height : Rat} {ps : List (Rat × Rat)}
    (hwidth : 0 ≤ width) (hheight : 0 ≤ height)
    (h : ∀ p ∈ ps, Holds { x, y, width, height } p) :
    Tight { x, y, width, height } (corners x y width height ++ ps) := by
  have hfirst : (x, y) ∈ corners x y width height ++ ps := List.mem_cons_self
  have hsecond : (x + width, y + height) ∈ corners x y width height ++ ps :=
    List.mem_cons_of_mem _ List.mem_cons_self
  refine .of_holds rfl ?_ ⟨_, hfirst, rfl⟩ ⟨_, hsecond, rfl⟩ ⟨_, hfirst, rfl⟩ ⟨_, hsecond, rfl⟩
  exact List.forall_mem_append.mpr ⟨holds_corners hwidth hheight, h⟩

theorem corners_shift (dx dy x y width height : Rat) :
    corners (x + dx) (y + dy) width height = (corners x y width height).map (shift dx dy) := by
  simp only [corners, shift, List.map_cons, List.map_nil, add_right_comm]

theorem PathCommand.points_shift (dx dy ox oy : Rat) (command : PathCommand Rat) :
    command.points (ox + dx) (oy + dy) = (command.points ox oy).map (shift dx dy) := by
  simp only [points, shift, List.map_map, Function.comp_def, add_right_comm]

theorem PathCommand.points_translate (dx dy ox oy : Rat) (command : PathCommand Rat) :
    (command.translate dx dy).points ox oy = command.points (ox + dx) (oy + dy) := by
  cases command <;> simp only [translate, points, named, List.map_cons, List.map_nil, add_assoc,
    add_comm dx, add_comm dy]

namespace Shape

mutual

/-- A shape that counts from somewhere else has its points moved. -/
theorem pointsFrom_shift (dx dy ox oy : Rat) : ∀ s : Shape Rat,
    s.pointsFrom (ox + dx) (oy + dy) = (s.pointsFrom ox oy).map (shift dx dy)
  | .group _ gx gy children => by
      rw [pointsFrom, pointsFrom, ← pointsOf_shift dx dy, add_right_comm ox, add_right_comm oy]
  | .rect _ x y _ _ _ => by
      rw [pointsFrom, pointsFrom, ← corners_shift, add_right_comm ox, add_right_comm oy]
  | .text _ x y _ _ _ => by
      rw [pointsFrom, pointsFrom, ← corners_shift, add_right_comm ox, add_right_comm oy]
  | .circle _ cx cy r => by
      have hx : ox + dx + cx - r = ox + cx - r + dx := by ring
      have hy : oy + dy + cy - r = oy + cy - r + dy := by ring
      rw [pointsFrom, pointsFrom, ← corners_shift, hx, hy]
  | .path _ commands => by
      rw [pointsFrom, pointsFrom, List.map_flatMap]
      exact congrArg (commands.flatMap ·) (funext fun command => command.points_shift dx dy ox oy)

theorem pointsOf_shift (dx dy ox oy : Rat) : ∀ ss : List (Shape Rat),
    pointsOf (ox + dx) (oy + dy) ss = (pointsOf ox oy ss).map (shift dx dy)
  | [] => rfl
  | s :: ss => by
      rw [pointsOf, pointsOf, pointsFrom_shift dx dy, pointsOf_shift dx dy, List.map_append]

end

/-- **A shape that is moved** counts from somewhere else. -/
theorem pointsFrom_translate (dx dy ox oy : Rat) (s : Shape Rat) :
    (s.translate dx dy).pointsFrom ox oy = s.pointsFrom (ox + dx) (oy + dy) := by
  have hx (x : Rat) : ox + (x + dx) = ox + dx + x := by ring
  have hy (y : Rat) : oy + (y + dy) = oy + dy + y := by ring
  cases s with
  | group style gx gy children => rw [translate, pointsFrom, pointsFrom, hx, hy]
  | rect style x y width height rx => rw [translate, pointsFrom, pointsFrom, hx, hy]
  | circle style cx cy r => rw [translate, pointsFrom, pointsFrom, hx, hy]
  | text style x y width height content => rw [translate, pointsFrom, pointsFrom, hx, hy]
  | path style commands =>
    rw [translate, pointsFrom, pointsFrom, List.flatMap_map]
    simp only [PathCommand.points_translate]

theorem points_translate (dx dy : Rat) (s : Shape Rat) :
    (s.translate dx dy).points = s.points.map (shift dx dy) := by
  rw [points, pointsFrom_translate, pointsFrom_shift, points]

@[simp] theorem points_rect (style : String) (x y width height rx : Rat) :
    (rect style x y width height rx).points = corners x y width height := by
  simp [points, pointsFrom]

@[simp] theorem points_text (style : String) (x y width height : Rat) (content : String) :
    (text style x y width height content).points = corners x y width height := by
  simp [points, pointsFrom]

@[simp] theorem points_circle (style : String) (cx cy r : Rat) :
    (circle style cx cy r).points = corners (cx - r) (cy - r) (2 * r) (2 * r) := by
  simp [points, pointsFrom]

@[simp] theorem points_path (style : String) (commands : List (PathCommand Rat)) :
    (path style commands).points = commands.flatMap PathCommand.named := by
  have hcommand : PathCommand.points (ofNat 0 : Rat) (ofNat 0) = PathCommand.named :=
    funext fun command => by simp [PathCommand.points]
  rw [points, pointsFrom, hcommand]

@[simp] theorem points_plain (style : String) (children : List (Shape Rat)) :
    (plain style children).points = children.flatMap points := by
  have hzero : (ofNat 0 + ofNat 0 : Rat) = ofNat 0 := by simp
  rw [plain, points, pointsFrom, pointsOf_eq_flatMap, hzero]
  rfl

/-- The shape measures as the smallest box around its points. -/
theorem tight_measure {s : Shape Rat} (h : s.points ≠ []) : s.measure.Tight s.points := by
  rw [measure_eq]
  exact Extent.tight_toRaw h

theorem measure_eq_of_tight {s : Shape Rat} {b : RawBox Rat} (h : b.Tight s.points) :
    s.measure = b := (tight_measure h.ne_nil).unique h

/-- Where there is nothing to measure, moving makes no difference. -/
theorem measure_of_points {s : Shape Rat} (h : s.points = []) : s.measure = RawBox.zero := by
  rw [measure_eq, h]
  rfl

/-- **A shape that is moved** measures as a moved box. -/
theorem measure_translate {s : Shape Rat} (h : s.points ≠ []) (dx dy : Rat) :
    (s.translate dx dy).measure =
      { x := s.measure.x + dx, y := s.measure.y + dy
        width := s.measure.width, height := s.measure.height } := by
  have hmoved : (s.translate dx dy).points ≠ [] := by
    rw [points_translate]
    simpa using h
  refine (tight_measure hmoved).unique ?_
  rw [points_translate]
  exact (tight_measure h).shifted dx dy

/-! ## 4. Leaves -/

theorem translate_zero (s : Shape Rat) : s.translate 0 0 = s := by
  cases s with
  | path style commands =>
    have hcommand : ∀ command : PathCommand Rat, command.translate 0 0 = command := by
      intro command
      cases command <;> simp [PathCommand.translate]
    rw [translate, List.map_id'' hcommand]
  | _ => simp [translate]

/-- Two moves are one. -/
theorem translate_translate (dx dy ex ey : Rat) (s : Shape Rat) :
    (s.translate dx dy).translate ex ey = s.translate (dx + ex) (dy + ey) := by
  cases s with
  | path style commands =>
    have hcommand : ∀ command : PathCommand Rat,
        (command.translate dx dy).translate ex ey = command.translate (dx + ex) (dy + ey) := by
      intro command
      cases command <;> simp [PathCommand.translate, add_assoc]
    simp [translate, hcommand]
  | _ => simp [translate, add_assoc]

/-- The leaves of a shape move with it. -/
theorem leaves_translate (dx dy : Rat) (s : Shape Rat) :
    (s.translate dx dy).leaves = s.leaves.map (translate dx dy) := by
  cases s with
  | group style gx gy children =>
    have hmoved : (translate dx dy ∘ translate gx gy : Shape Rat → Shape Rat) =
        translate (gx + dx) (gy + dy) := funext fun s => translate_translate gx gy dx dy s
    rw [translate, leaves, leaves, List.map_map, hmoved]
  | _ => rfl

@[simp] theorem leaves_plain (style : String) (children : List (Shape Rat)) :
    (plain style children).leaves = children.flatMap leaves := by
  rw [plain, leaves, leavesOf_eq_flatMap]
  exact List.map_id'' translate_zero _

mutual

/-- **The points of a shape** are those of its leaves. -/
theorem points_eq_leaves : ∀ s : Shape Rat, s.points = s.leaves.flatMap points
  | .group _ gx gy children => by
      rw [points, pointsFrom, leaves, List.flatMap_map]
      simp only [points_translate]
      rw [← List.map_flatMap, ← pointsOf_eq_leaves children, ← pointsOf_shift]
  | .rect .. => by simp [leaves]
  | .text .. => by simp [leaves]
  | .circle .. => by simp [leaves]
  | .path .. => by simp [leaves]

theorem pointsOf_eq_leaves : ∀ ss : List (Shape Rat),
    pointsOf (ofNat 0) (ofNat 0) ss = (leavesOf ss).flatMap points
  | [] => rfl
  | s :: ss => by
      rw [pointsOf, leavesOf, List.flatMap_append, ← points_eq_leaves s, pointsOf_eq_leaves ss]
      rfl

end

/-- The shape lies within the two intervals: its corners if it is a rectangle or a text, the corners
    of the square around it if it is a circle, the points and control points if it is a path. Only
    leaves do. -/
def LiesIn (across down : Span Rat) : Shape Rat → Prop
  | .rect _ x y width height _ =>
      (across.Holds x ∧ across.Holds (x + width)) ∧ down.Holds y ∧ down.Holds (y + height)
  | .text _ x y width height _ =>
      (across.Holds x ∧ across.Holds (x + width)) ∧ down.Holds y ∧ down.Holds (y + height)
  | .circle _ cx cy r =>
      (across.Holds (cx - r) ∧ across.Holds (cx + r)) ∧ down.Holds (cy - r) ∧ down.Holds (cy + r)
  | .path _ commands =>
      ∀ command ∈ commands, ∀ p ∈ command.named, across.Holds p.1 ∧ down.Holds p.2
  | .group .. => False

/-- The shape is no group. -/
def IsLeaf (s : Shape Rat) : Prop := ∀ style dx dy children, s ≠ .group style dx dy children

theorem IsLeaf.translate {s : Shape Rat} (h : s.IsLeaf) (dx dy : Rat) :
    (s.translate dx dy).IsLeaf := by
  cases s with
  | group style gx gy children => exact absurd rfl (h style gx gy children)
  | _ => exact fun _ _ _ _ hgroup => by cases hgroup

/-- **Induction on shapes**: a leaf, or a group with what is known of all its children. -/
@[elab_as_elim] theorem inductionOn {P : Shape Rat → Prop} (leaf : ∀ s : Shape Rat, s.IsLeaf → P s)
    (group : ∀ style dx dy children, (∀ s ∈ children, P s) → P (.group style dx dy children)) :
    ∀ s : Shape Rat, P s
  | .group style dx dy children =>
      group style dx dy children fun s _ => inductionOn leaf group s
  | .rect .. | .circle .. | .text .. | .path .. =>
      leaf _ fun _ _ _ _ hgroup => by cases hgroup

theorem IsLeaf.leaves_eq {s : Shape Rat} (h : s.IsLeaf) : s.leaves = [s] := by
  cases s with
  | group style dx dy children => exact absurd rfl (h style dx dy children)
  | _ => rfl

theorem mem_leaves_group {leaf : Shape Rat} {style : Option String} {dx dy : Rat}
    {children : List (Shape Rat)} : leaf ∈ (group style dx dy children).leaves ↔
      ∃ s ∈ children, ∃ below ∈ s.leaves, leaf = below.translate dx dy := by
  rw [leaves, leavesOf_eq_flatMap]
  simp only [List.mem_map, List.mem_flatMap]
  constructor
  · rintro ⟨below, ⟨s, hs, hbelow⟩, rfl⟩
    exact ⟨s, hs, below, hbelow, rfl⟩
  · rintro ⟨s, hs, below, hbelow, rfl⟩
    exact ⟨below, ⟨s, hs, hbelow⟩, rfl⟩

theorem isLeaf_of_mem_leaves {leaf s : Shape Rat} (h : leaf ∈ s.leaves) : leaf.IsLeaf := by
  induction s using inductionOn generalizing leaf with
  | leaf s hs =>
    rw [hs.leaves_eq] at h
    rwa [List.mem_singleton.mp h]
  | group style dx dy children ih =>
    obtain ⟨s, hs, below, hbelow, rfl⟩ := mem_leaves_group.mp h
    exact (ih s hs hbelow).translate dx dy

/-- A leaf lies where its points lie. -/
theorem liesIn_of_points {across down : Span Rat} {s : Shape Rat} (hs : s.IsLeaf)
    (h : ∀ p ∈ s.points, across.Holds p.1 ∧ down.Holds p.2) : s.LiesIn across down := by
  cases s with
  | group style dx dy children => exact absurd rfl (hs style dx dy children)
  | rect style x y width height rx =>
    rw [points_rect] at h
    obtain ⟨hfirst, hsecond⟩ := forall_corners.mp h
    exact ⟨⟨hfirst.1, hsecond.1⟩, hfirst.2, hsecond.2⟩
  | circle style cx cy r =>
    rw [points_circle] at h
    obtain ⟨hfirst, hsecond⟩ := forall_corners.mp h
    have hx : cx - r + 2 * r = cx + r := by ring
    have hy : cy - r + 2 * r = cy + r := by ring
    rw [hx, hy] at hsecond
    exact ⟨⟨hfirst.1, hsecond.1⟩, hfirst.2, hsecond.2⟩
  | text style x y width height content =>
    rw [points_text] at h
    obtain ⟨hfirst, hsecond⟩ := forall_corners.mp h
    exact ⟨⟨hfirst.1, hsecond.1⟩, hfirst.2, hsecond.2⟩
  | path style commands =>
    rw [points_path] at h
    intro command hcommand p hp
    exact h p (List.mem_flatMap.mpr ⟨command, hcommand, hp⟩)

/-- **What a shape is made of** lies within its measured box, at any depth. -/
theorem liesIn_of_mem_leaves {s leaf : Shape Rat} (h : leaf ∈ s.leaves) :
    leaf.LiesIn ⟨s.measure.x, s.measure.x + s.measure.width⟩
      ⟨s.measure.y, s.measure.y + s.measure.height⟩ := by
  refine liesIn_of_points (isLeaf_of_mem_leaves h) fun p hp => ?_
  have hmem : p ∈ s.points := by
    rw [points_eq_leaves]
    exact List.mem_flatMap.mpr ⟨leaf, h, hp⟩
  exact (tight_measure (List.ne_nil_of_mem hmem)).holds hmem

end Shape

end PatternDiagram
