import PatternDiagram.Drawing.Environment
import PatternDiagram.Proofs.Doubles
import PatternDiagram.Proofs.Mounting
import PatternDiagram.Proofs.Points

/-!
# What finite bounds say about a drawing

Whether a drawing is put on its surface is decided by its bounds alone. They are measured from all
points of the drawing, but a coordinate that is not a number is passed over.

* `Shape.coordinates`: all numbers of a shape; `Shape.unmeasured`: those that no measured point
  depends on;
* `Span.isFinite_of_widened`: an interval with finite ends has been widened by nothing infinite;
* `Shape.isFinite_of_bounds`: **where the bounds are finite, each measured coordinate is finite
  unless it is not a number**;
* `Shape.coordinates_finite_iff`: all numbers of a shape are finite just if its points are;
* `Render.finish_finite_iff`: **which pictures are finite throughout**, and
  `Render.finish_not_finite`: one that is not.
-/

namespace PatternDiagram

/-! ## 1. The numbers of a shape -/

section

variable {α : Type}

namespace PathCommand

/-- The numbers of a command. -/
def coordinates (command : PathCommand α) : List α :=
  command.named.flatMap fun q => [q.1, q.2]

end PathCommand

namespace Shape

mutual

/-- All numbers of a shape and of what is in it. -/
def coordinates : Shape α → List α
  | .group _ dx dy children => dx :: dy :: coordinatesOf children
  | .rect _ x y width height rx => [x, y, width, height, rx]
  | .text _ x y width height _ => [x, y, width, height]
  | .circle _ cx cy r => [cx, cy, r]
  | .path _ commands => commands.flatMap PathCommand.coordinates

/-- All numbers of several shapes. -/
def coordinatesOf : List (Shape α) → List α
  | [] => []
  | s :: ss => s.coordinates ++ coordinatesOf ss

end

mutual

/-- Nothing in the shape is measured. -/
def isVoid : Shape α → Bool
  | .group _ _ _ children => allVoid children
  | .path _ commands => commands.isEmpty
  | .rect .. | .text .. | .circle .. => false

/-- Nothing in any of the shapes is measured. -/
def allVoid : List (Shape α) → Bool
  | [] => true
  | s :: ss => s.isVoid && allVoid ss

end

mutual

/-- The numbers that no measured point depends on: the radii of corners, and the offsets of groups
    in which nothing is measured. -/
def unmeasured : Shape α → List α
  | .group _ dx dy children => (if allVoid children then [dx, dy] else []) ++ unmeasuredOf children
  | .rect _ _ _ _ _ rx => [rx]
  | .text .. | .circle .. | .path .. => []

/-- The numbers of several shapes that no measured point depends on. -/
def unmeasuredOf : List (Shape α) → List α
  | [] => []
  | s :: ss => s.unmeasured ++ unmeasuredOf ss

end

mutual

/-- What is not measured is among the numbers of a shape. -/
theorem mem_coordinates_of_unmeasured {x : α} :
    ∀ {s : Shape α}, x ∈ s.unmeasured → x ∈ s.coordinates
  | .group _ dx dy children, h => by
      rw [unmeasured, List.mem_append] at h
      rw [coordinates]
      rcases h with h | h
      · split at h
        · exact List.mem_append_left (coordinatesOf children) h
        · cases h
      · exact List.mem_append_right [dx, dy] (mem_coordinatesOf_of_unmeasured h)
  | .rect .., h => by
      rw [unmeasured] at h
      rw [coordinates]
      simp_all

theorem mem_coordinatesOf_of_unmeasured {x : α} :
    ∀ {ss : List (Shape α)}, x ∈ unmeasuredOf ss → x ∈ coordinatesOf ss
  | s :: ss, h => by
      rw [unmeasuredOf, List.mem_append] at h
      rw [coordinatesOf, List.mem_append]
      exact h.imp mem_coordinates_of_unmeasured mem_coordinatesOf_of_unmeasured

end

end Shape

end

/-! ## 2. Measuring -/

open Coordinate (isFinite IsNumber ofNat)

/-- Both coordinates of the point are finite. -/
def IsFinitePoint (p : Float × Float) : Prop := isFinite p.1 = true ∧ isFinite p.2 = true

/-- Each coordinate of the point is finite unless it is not a number. -/
def IsBoundedPoint (p : Float × Float) : Prop :=
  (IsNumber p.1 → isFinite p.1 = true) ∧ (IsNumber p.2 → isFinite p.2 = true)

theorem IsFinitePoint.isNumber {p : Float × Float} (h : IsFinitePoint p) :
    IsNumber p.1 ∧ IsNumber p.2 :=
  ⟨Double.isNumber_of_isFinite h.1, Double.isNumber_of_isFinite h.2⟩

theorem IsBoundedPoint.isFinitePoint {p : Float × Float} (h : IsBoundedPoint p)
    (hx : IsNumber p.1) (hy : IsNumber p.2) : IsFinitePoint p := ⟨h.1 hx, h.2 hy⟩

namespace Span

/-- One end of the interval is infinite. -/
def IsUnbounded (s : Span Float) : Prop := Double.IsBottom s.low ∨ Double.IsTop s.high

/-- Once an end is infinite it stays so. -/
theorem IsUnbounded.foldl {s : Span Float} (h : s.IsUnbounded) (xs : List Float) :
    ∃ s', xs.foldl widen (some s) = some s' ∧ s'.IsUnbounded := by
  induction xs generalizing s with
  | nil => exact ⟨s, rfl, h⟩
  | cons x xs ih =>
    exact ih (h.imp (fun hlow => Double.isBottom_least (.inl hlow))
      fun hhigh => Double.isTop_greatest (.inl hhigh))

/-- An interval is widened to infinity by an infinite coordinate. -/
theorem widen_infinite (o : Option (Span Float)) {x : Float} (hnumber : IsNumber x)
    (h : ¬ isFinite x = true) : ∃ s, widen o x = some s ∧ s.IsUnbounded := by
  have hinfinite := Double.isTop_or_isBottom hnumber h
  cases o with
  | none => exact ⟨⟨x, x⟩, if_pos hnumber, hinfinite.symm⟩
  | some s =>
    exact ⟨_, rfl, hinfinite.symm.imp (fun hbottom => Double.isBottom_least (.inr hbottom))
      fun htop => Double.isTop_greatest (.inr htop)⟩

/-- **An interval with finite ends** has been widened by nothing infinite. -/
theorem isFinite_of_widened {o : Option (Span Float)} {xs : List Float} {s : Span Float}
    (h : xs.foldl widen o = some s) (hlow : isFinite s.low = true)
    (hhigh : isFinite s.high = true) : ∀ x ∈ xs, IsNumber x → isFinite x = true := by
  intro x hx hnumber
  refine Decidable.byContradiction fun hnot => ?_
  obtain ⟨front, back, rfl⟩ := List.append_of_mem hx
  obtain ⟨s₁, hwiden, hs₁⟩ := widen_infinite (front.foldl widen o) hnumber hnot
  obtain ⟨s₂, hfoldl, hs₂⟩ := hs₁.foldl back
  rw [List.foldl_append, List.foldl_cons, hwiden, hfoldl] at h
  cases h
  exact hs₂.elim (fun hbottom => hbottom.not_isFinite hlow) fun htop => htop.not_isFinite hhigh

/-- What is known stays known. -/
theorem exists_foldl_widen (xs : List Float) (s : Span Float) :
    ∃ s', xs.foldl widen (some s) = some s' := by
  induction xs generalizing s with
  | nil => exact ⟨s, rfl⟩
  | cons x xs ih => exact ih _

/-- Something is known about an axis as soon as there is a number. -/
theorem exists_widened {o : Option (Span Float)} {xs : List Float} {x : Float} (hx : x ∈ xs)
    (hnumber : IsNumber x) : ∃ s, xs.foldl widen o = some s := by
  obtain ⟨front, back, rfl⟩ := List.append_of_mem hx
  rw [List.foldl_append, List.foldl_cons]
  cases front.foldl widen o with
  | none =>
    rw [widen, if_pos hnumber]
    exact exists_foldl_widen back _
  | some s => exact exists_foldl_widen back _

end Span

/-- The ends of both axes are finite if the box is. -/
theorem Extent.isFinite_of_toRaw {e : Extent Float} {s : Span Float} (hs : e.horizontal = some s)
    (h : e.toRaw.normalize.isFinite = true) :
    (isFinite s.low = true ∧ isFinite s.high = true) ∧
      ∀ v, e.vertical = some v → isFinite v.low = true ∧ isFinite v.high = true := by
  obtain ⟨horizontal, vertical⟩ := e
  cases hs
  simp only [Box.isFinite, RawBox.normalize, toRaw, isEmpty, List.all_cons, Bool.and_eq_true,
    Option.isNone_some, Bool.false_eq_true, if_false] at h
  obtain ⟨hx, hy, hwidth, hheight, -⟩ := h
  refine ⟨⟨hx, (Double.isFinite_of_sub hwidth).1⟩, ?_⟩
  rintro v rfl
  exact ⟨hy, (Double.isFinite_of_sub hheight).1⟩

/-- **What finite bounds say**: each measured coordinate is finite unless it is not a number. -/
theorem Shape.isFinite_of_bounds {s : Shape Float} (h : s.measure.normalize.isFinite = true)
    (hsome : ∃ p ∈ s.points, IsNumber p.1) :
    ∀ p ∈ s.points, IsBoundedPoint p := by
  rw [measure_eq, Extent.addPoints_eq] at h
  obtain ⟨q, hq, hnumber⟩ := hsome
  obtain ⟨span, hspan⟩ := Span.exists_widened (o := none) (List.mem_map_of_mem hq) hnumber
  obtain ⟨⟨hlow, hhigh⟩, hvertical⟩ := Extent.isFinite_of_toRaw hspan h
  intro p hp
  refine ⟨Span.isFinite_of_widened hspan hlow hhigh _ (List.mem_map_of_mem hp), fun hy => ?_⟩
  obtain ⟨v, hv⟩ := Span.exists_widened (o := none) (List.mem_map_of_mem hp) hy
  obtain ⟨hlow, hhigh⟩ := hvertical v hv
  exact Span.isFinite_of_widened hv hlow hhigh _ (List.mem_map_of_mem hp) hy

/-! ## 3. Finite shapes -/

section

variable {x y width height : Float}

/-- The corners of a box are finite if its numbers are, and no infinity is among the corners. -/
theorem corners_finite (hx : IsNumber x) (hy : IsNumber y) (hwidth : IsNumber width)
    (hheight : IsNumber height) (h : ∀ p ∈ corners x y width height, IsBoundedPoint p) :
    ∀ p ∈ corners x y width height, IsFinitePoint p := by
  simp only [corners, List.forall_mem_cons, List.not_mem_nil, false_implies, implies_true,
    and_true] at h ⊢
  have hcorner := h.1.isFinitePoint hx hy
  exact ⟨hcorner, h.2.isFinitePoint (Double.isNumber_finite_add hcorner.1 hwidth)
    (Double.isNumber_finite_add hcorner.2 hheight)⟩

/-- A box with finite corners has finite numbers. -/
theorem finite_of_corners (h : ∀ p ∈ corners x y width height, IsFinitePoint p) :
    (isFinite x = true ∧ isFinite y = true) ∧ isFinite width = true ∧ isFinite height = true := by
  simp only [corners, List.forall_mem_cons] at h
  exact ⟨h.1, (Double.isFinite_of_add h.2.1.1).2, (Double.isFinite_of_add h.2.1.2).2⟩

end

namespace PathCommand

variable {ox oy : Float} {command : PathCommand Float}

/-- The points of a command are finite if its numbers are, and no infinity is among the points. -/
theorem points_finite (hx : IsNumber ox) (hy : IsNumber oy)
    (hnumbers : ∀ x ∈ command.coordinates, isFinite x = true)
    (h : ∀ p ∈ command.points ox oy, IsBoundedPoint p) :
    ∀ p ∈ command.points ox oy, IsFinitePoint p := by
  intro p hp
  obtain ⟨q, hq, rfl⟩ := List.mem_map.mp hp
  have hnumber : ∀ x ∈ [q.1, q.2], isFinite x = true := fun x hx =>
    hnumbers x (List.mem_flatMap.mpr ⟨q, hq, hx⟩)
  exact (h _ hp).isFinitePoint (Double.isNumber_add hx (hnumber _ (by simp)))
    (Double.isNumber_add hy (hnumber _ (by simp)))

/-- A command with finite points has finite numbers, and is counted from something finite. -/
theorem finite_of_points (h : ∀ p ∈ command.points ox oy, IsFinitePoint p) :
    (∀ x ∈ command.coordinates, isFinite x = true) ∧ isFinite ox = true ∧ isFinite oy = true := by
  have hnamed : ∀ q ∈ command.named, IsFinitePoint (ox + q.1, oy + q.2) := fun q hq =>
    h _ (List.mem_map_of_mem hq)
  have hsome : ∃ q, q ∈ command.named := by
    cases command <;> exact ⟨_, List.mem_cons_self⟩
  obtain ⟨q, hq⟩ := hsome
  refine ⟨fun x hx => ?_, (Double.isFinite_of_add (hnamed q hq).1).1,
    (Double.isFinite_of_add (hnamed q hq).2).1⟩
  obtain ⟨q, hq, hx⟩ := List.mem_flatMap.mp hx
  simp only [List.mem_cons, List.not_mem_nil, or_false] at hx
  rcases hx with rfl | rfl
  · exact (Double.isFinite_of_add (hnamed q hq).1).2
  · exact (Double.isFinite_of_add (hnamed q hq).2).2

end PathCommand

namespace Shape

mutual

/-- **The points of a shape are finite** if its numbers are, and no infinity is among the points. -/
theorem pointsFrom_finite {ox oy : Float} (hx : IsNumber ox) (hy : IsNumber oy) :
    ∀ s : Shape Float, (∀ x ∈ s.coordinates, isFinite x = true) →
      (∀ p ∈ s.pointsFrom ox oy, IsBoundedPoint p) → ∀ p ∈ s.pointsFrom ox oy, IsFinitePoint p
  | .group _ dx dy children, hnumbers, h => by
      rw [coordinates, List.forall_mem_cons, List.forall_mem_cons] at hnumbers
      rw [pointsFrom] at h ⊢
      exact pointsOf_finite (Double.isNumber_add hx hnumbers.1)
        (Double.isNumber_add hy hnumbers.2.1) children hnumbers.2.2 h
  | .rect _ x y width height rx, hnumbers, h => by
      simp only [coordinates, List.forall_mem_cons] at hnumbers
      obtain ⟨hx', hy', hwidth, hheight, -⟩ := hnumbers
      exact corners_finite (Double.isNumber_add hx hx') (Double.isNumber_add hy hy')
        (Double.isNumber_of_isFinite hwidth) (Double.isNumber_of_isFinite hheight) h
  | .text _ x y width height _, hnumbers, h => by
      simp only [coordinates, List.forall_mem_cons] at hnumbers
      obtain ⟨hx', hy', hwidth, hheight, -⟩ := hnumbers
      exact corners_finite (Double.isNumber_add hx hx') (Double.isNumber_add hy hy')
        (Double.isNumber_of_isFinite hwidth) (Double.isNumber_of_isFinite hheight) h
  | .circle _ cx cy r, hnumbers, h => by
      simp only [coordinates, List.forall_mem_cons] at hnumbers
      obtain ⟨hx', hy', hr, -⟩ := hnumbers
      have hsize : IsNumber (ofNat 2 * r) := Double.isNumber_mul (by decide +kernel) hr
      exact corners_finite (Double.isNumber_sub (Double.isNumber_add hx hx') hr)
        (Double.isNumber_sub (Double.isNumber_add hy hy') hr) hsize hsize h
  | .path _ commands, hnumbers, h => by
      simp only [coordinates, pointsFrom, List.forall_mem_flatMap] at hnumbers h ⊢
      exact fun command hcommand =>
        PathCommand.points_finite hx hy (hnumbers command hcommand) (h command hcommand)

theorem pointsOf_finite {ox oy : Float} (hx : IsNumber ox) (hy : IsNumber oy) :
    ∀ ss : List (Shape Float), (∀ x ∈ coordinatesOf ss, isFinite x = true) →
      (∀ p ∈ pointsOf ox oy ss, IsBoundedPoint p) → ∀ p ∈ pointsOf ox oy ss, IsFinitePoint p
  | [], _, _ => by simp [pointsOf]
  | s :: ss, hnumbers, h => by
      rw [coordinatesOf, List.forall_mem_append] at hnumbers
      rw [pointsOf, List.forall_mem_append] at h ⊢
      exact ⟨pointsFrom_finite hx hy s hnumbers.1 h.1, pointsOf_finite hx hy ss hnumbers.2 h.2⟩

end

mutual

/-- **A shape with finite points has finite numbers**, as far as they are measured, and is counted
    from something finite if anything in it is measured. -/
theorem finite_of_pointsFrom {ox oy : Float} :
    ∀ s : Shape Float, (∀ p ∈ s.pointsFrom ox oy, IsFinitePoint p) →
      (∀ x ∈ s.unmeasured, isFinite x = true) →
      (∀ x ∈ s.coordinates, isFinite x = true) ∧
        (s.isVoid = false → isFinite ox = true ∧ isFinite oy = true)
  | .group _ dx dy children, h, hunmeasured => by
      rw [pointsFrom] at h
      rw [unmeasured, List.forall_mem_append] at hunmeasured
      obtain ⟨hchildren, hoffset⟩ := finite_of_pointsOf children h hunmeasured.2
      rw [coordinates, isVoid, List.forall_mem_cons, List.forall_mem_cons]
      cases hvoid : allVoid children with
      | true =>
        have hmoved : ∀ x ∈ [dx, dy], isFinite x = true := by simpa [hvoid] using hunmeasured.1
        exact ⟨⟨hmoved dx (by simp), hmoved dy (by simp), hchildren⟩, fun h => by cases h⟩
      | false =>
        obtain ⟨hx, hy⟩ := hoffset hvoid
        obtain ⟨hox, hdx⟩ := Double.isFinite_of_add hx
        obtain ⟨hoy, hdy⟩ := Double.isFinite_of_add hy
        exact ⟨⟨hdx, hdy, hchildren⟩, fun _ => ⟨hox, hoy⟩⟩
  | .rect _ x y width height rx, h, hunmeasured => by
      obtain ⟨⟨hx, hy⟩, hwidth, hheight⟩ := finite_of_corners h
      obtain ⟨hox, hx⟩ := Double.isFinite_of_add hx
      obtain ⟨hoy, hy⟩ := Double.isFinite_of_add hy
      have hrx : isFinite rx = true := hunmeasured rx (by simp [unmeasured])
      exact ⟨by simp [coordinates, hx, hy, hwidth, hheight, hrx], fun _ => ⟨hox, hoy⟩⟩
  | .text _ x y width height _, h, _ => by
      obtain ⟨⟨hx, hy⟩, hwidth, hheight⟩ := finite_of_corners h
      obtain ⟨hox, hx⟩ := Double.isFinite_of_add hx
      obtain ⟨hoy, hy⟩ := Double.isFinite_of_add hy
      exact ⟨by simp [coordinates, hx, hy, hwidth, hheight], fun _ => ⟨hox, hoy⟩⟩
  | .circle _ cx cy r, h, _ => by
      obtain ⟨⟨hx, hy⟩, -⟩ := finite_of_corners h
      obtain ⟨hx, hr⟩ := Double.isFinite_of_sub hx
      obtain ⟨hox, hx⟩ := Double.isFinite_of_add hx
      obtain ⟨hoy, hy⟩ := Double.isFinite_of_add (Double.isFinite_of_sub hy).1
      exact ⟨by simp [coordinates, hx, hy, hr], fun _ => ⟨hox, hoy⟩⟩
  | .path _ [], _, _ => ⟨by simp [coordinates], fun h => by cases h⟩
  | .path _ (command :: commands), h, _ => by
      simp only [pointsFrom, coordinates, List.forall_mem_flatMap] at h ⊢
      exact ⟨fun command hcommand => (PathCommand.finite_of_points (h command hcommand)).1,
        fun _ => (PathCommand.finite_of_points (h command List.mem_cons_self)).2⟩

theorem finite_of_pointsOf {ox oy : Float} :
    ∀ ss : List (Shape Float), (∀ p ∈ pointsOf ox oy ss, IsFinitePoint p) →
      (∀ x ∈ unmeasuredOf ss, isFinite x = true) →
      (∀ x ∈ coordinatesOf ss, isFinite x = true) ∧
        (allVoid ss = false → isFinite ox = true ∧ isFinite oy = true)
  | [], _, _ => ⟨by simp [coordinatesOf], fun h => by cases h⟩
  | s :: ss, h, hunmeasured => by
      rw [pointsOf, List.forall_mem_append] at h
      rw [unmeasuredOf, List.forall_mem_append] at hunmeasured
      obtain ⟨hfirst, hoffset⟩ := finite_of_pointsFrom s h.1 hunmeasured.1
      obtain ⟨hothers, hoffset'⟩ := finite_of_pointsOf ss h.2 hunmeasured.2
      rw [coordinatesOf, List.forall_mem_append, allVoid, Bool.and_eq_false_iff]
      exact ⟨⟨hfirst, hothers⟩, fun hvoid => hvoid.elim hoffset hoffset'⟩

end

/-- **Which shapes are finite throughout**, once it is known that no infinity has been measured:
    those all of whose points are made of numbers. -/
theorem coordinates_finite_iff {s : Shape Float} (h : ∀ p ∈ s.points, IsBoundedPoint p) :
    (∀ x ∈ s.coordinates, isFinite x = true) ↔
      (∀ x ∈ s.unmeasured, isFinite x = true) ∧ ∀ p ∈ s.points, IsNumber p.1 ∧ IsNumber p.2 := by
  have hzero : IsNumber (ofNat 0 : Float) := by decide +kernel
  constructor
  · intro hnumbers
    exact ⟨fun x hx => hnumbers x (mem_coordinates_of_unmeasured hx),
      fun p hp => (pointsFrom_finite hzero hzero s hnumbers h p hp).isNumber⟩
  · rintro ⟨hunmeasured, hpoints⟩
    exact (finite_of_pointsFrom s
      (fun p hp => (h p hp).isFinitePoint (hpoints p hp).1 (hpoints p hp).2) hunmeasured).1

end Shape

/-! ## 4. Pictures -/

/-- A group that is moved from where it is has finite numbers just if it had, and is moved by finite
    numbers. -/
theorem Shape.coordinates_finite_moved {style : String} {dx dy : Float}
    {children : List (Shape Float)} :
    (∀ x ∈ (Shape.group (some style) dx dy children).coordinates, isFinite x = true) ↔
      (isFinite dx = true ∧ isFinite dy = true) ∧
        ∀ x ∈ (Shape.plain style children).coordinates, isFinite x = true := by
  have hzero : isFinite (ofNat 0 : Float) = true := by decide +kernel
  simp only [plain, coordinates, List.forall_mem_cons, hzero, true_and, and_assoc]

namespace Drawing

/-- The first marker stands where no measure has a say. -/
theorem exists_number_framed (c : Config Float) (flags : List String) (content : Placed Float) :
    ∃ p ∈ (framed c flags content).shape.points, IsNumber p.1 := by
  let items := spaceHorizontally c.sequencePadding [marker "begin", content, marker "end"]
  let first : Placed Float := items.head (List.cons_ne_nil _ _)
  have hfirst : first.shape ∈ (rails items ++ items.map Placed.shape) ++
      (if flags.isEmpty then [] else [flagsText c (enclosing items) flags]) :=
    List.mem_append_left _ (List.mem_append_right _ (List.mem_map_of_mem List.mem_cons_self))
  have hnumber : IsNumber (ofNat 0 + ofNat 0 + (ofNat 0 + (ofNat 0 - (marker "begin").box.x)) +
      markerRadius - markerRadius : Float) := by decide +kernel
  exact ⟨_, Shape.mem_pointsOf hfirst List.mem_cons_self, hnumber⟩

end Drawing

/-- A variable with a text that is understood says what its text says. -/
theorem Environment.read_of_text {β : Type} {env : Environment} {name text : String}
    {parse? : String → Option β} {value : β} (htext : env.text? name = some text)
    (hvalue : parse? text = some value) (usual : β) : env.read name parse? usual = .ok value := by
  rw [read, htext]
  simp only [hvalue]

namespace Render

open Drawing

/-- **Which pictures are finite throughout.** A rendering that comes to a picture has measured no
    infinity. What it draws is moved by its margin only then. All numbers of the picture are finite
    just if those are by which it is moved, those on which no measured point depends, and if no
    measured point has a coordinate that is not a number. -/
theorem finish_finite_iff {σ : Type} (surface : Surface σ Float) (c : Config Float) (e : Expression)
    (s : σ) (t : Ticket) (noted : List Warning) (output : RenderOutput Float)
    (h : (finish surface.logged c e (s, []) ⟨t, noted⟩).outcome = .ok output) :
    ∃ dx dy children,
      let drawn : Shape Float := .plain "diagram" children
      let mounted : Shape Float := .group (some "diagram") dx dy children
      (finish surface.logged c e (s, []) ⟨t, noted⟩).surface.2.map Surface.Entry.call =
        [.mount mounted, .resize output.width output.height] ∧
      (expression c e : Script (Placed Float)).result.shape = drawn ∧
      (dx = ofNat 0 + (c.margin - drawn.measure.x) ∧ dy = ofNat 0 + (c.margin - drawn.measure.y)) ∧
      (∀ p ∈ drawn.points, (IsNumber p.1 → isFinite p.1 = true) ∧
        (IsNumber p.2 → isFinite p.2 = true)) ∧
      ((∀ x ∈ mounted.coordinates, isFinite x = true) ↔
        (isFinite dx = true ∧ isFinite dy = true) ∧ (∀ x ∈ drawn.unmeasured, isFinite x = true) ∧
          ∀ p ∈ drawn.points, IsNumber p.1 ∧ IsNumber p.2) := by
  rcases finish_logged_cases (draws_result c e) surface s t noted with
    ⟨-, -, houtcome⟩ | ⟨-, -, -, houtcome⟩ | ⟨-, hfinite, hlog, houtcome⟩
  · rw [houtcome] at h; cases h
  · rw [houtcome] at h; cases h
  rw [houtcome] at h
  split at h <;> cases h
  rw [hlog]
  have hbounded := Shape.isFinite_of_bounds hfinite (exists_number_framed c e.flags.names _)
  refine ⟨_, _, _, surface.calls_record .., rfl, ⟨rfl, rfl⟩, hbounded, ?_⟩
  exact Shape.coordinates_finite_moved.trans
    (and_congr_right fun _ => Shape.coordinates_finite_iff hbounded)

/-- Two texts on top of each other. -/
def twoTexts : Expression :=
  ⟨.alternation [.sequence [.literal (.char 'a'), .literal (.char 'a')],
    .sequence [.literal (.char 'b'), .literal (.char 'b')]], {}, {}⟩

theorem parse_twoTexts : parse "aa|bb" = .ok twoTexts := by with_unfolding_all rfl

/-- With the usual measures nothing is too large. -/
theorem finish_finite_iff_of_standard :
    let c : Config Float := Config.standard
    ∃ e output mounted,
      parse "aa|bb" = .ok e ∧
      (run Canvas.surface.logged c e (Canvas.blank, []) {}).outcome = .ok output ∧
      (run Canvas.surface.logged c e (Canvas.blank, []) {}).surface.2.map Surface.Entry.call =
        [.mount mounted, .resize output.width output.height] ∧
      ∀ x ∈ mounted.coordinates, isFinite x = true := by
  intro c
  obtain ⟨output, houtcome, -⟩ := run_logged_canvas (c := c) (e := twoTexts) (by decide +kernel)
  obtain ⟨dx, dy, children, hcalls, hdrawn, ⟨rfl, rfl⟩, -, hiff⟩ :=
    finish_finite_iff Canvas.surface c twoTexts Canvas.blank (begin twoTexts {}) [] output houtcome
  refine ⟨twoTexts, output, _, parse_twoTexts, houtcome, hcalls, hiff.mpr ?_⟩
  rw [← hdrawn]
  decide +kernel

/-- **A picture that is not finite throughout.** Two texts are so wide that their centres are
    infinite. How far these are from each other is not a number, and the bounds of the picture pass
    over all that is moved by it. -/
theorem finish_not_finite :
    ∃ c e output mounted,
      Config.ofEnvironment (.ofList [("RAILROAD_CHAR_WIDTH", "1e308")]) = .ok c ∧
      parse "aa|bb" = .ok e ∧
      (run Canvas.surface.logged c e (Canvas.blank, []) {}).outcome = .ok output ∧
      (run Canvas.surface.logged c e (Canvas.blank, []) {}).surface.2.map Surface.Entry.call =
        [.mount mounted, .resize output.width output.height] ∧
      ∃ x ∈ mounted.coordinates, isFinite x = false := by
  let c : Config Float := .withFont 1e308 12
  let env := Environment.ofList [("RAILROAD_CHAR_WIDTH", "1e308")]
  have htext : env.text? "RAILROAD_CHAR_WIDTH" = some "1e308" := rfl
  have hwide : Environment.size? "1e308" = some 1e308 := by decide +kernel
  have hconfig : Config.ofEnvironment env = .ok c := by
    rw [Config.ofEnvironment, Environment.read_of_text htext hwide 7]
    rfl
  obtain ⟨output, houtcome, hcalls⟩ :=
    run_logged_canvas (c := c) (e := twoTexts) (by decide +kernel)
  exact ⟨c, twoTexts, output, _, hconfig, parse_twoTexts, houtcome, hcalls, by decide +kernel⟩

end Render

end PatternDiagram
