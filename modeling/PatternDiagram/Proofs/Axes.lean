import PatternDiagram.Proofs.Drawn
import PatternDiagram.Proofs.Spacing

/-!
# Axes within boxes

Every part of a drawing sets its axis by what is in it, and is then measured by all that has been
drawn. Over exact numbers the two fit together.

* `Config.NonNegative`: no measure is below nought;
* `Box.Upright`: a box whose axis lies in it; `Placed.Measured`: a drawing whose box is the measured
  one; `Placed.Sound`: both, and the axis is not above nought;
* `Drawing.sound_labelBox` and the others: **each part of a drawing is sound** if what is in it is;
* `Drawing.drawn_sound`: the drawing of a well-formed tree is sound;
* `Drawing.node_keeps_axis`: **the drawing of each node of a tree that is read** is sound, and what
  is said of its box and its axis still holds when it is moved.
-/

namespace PatternDiagram

open Coordinate (ofNat)

/-! ## 1. Boxes -/

/-- No measure is below nought. -/
structure Config.NonNegative (c : Config Rat) : Prop where
  charWidth : 0 ≤ c.charWidth
  fontSize : 0 ≤ c.fontSize
  lineHeight : 0 ≤ c.lineHeight
  margin : 0 ≤ c.margin
  sequencePadding : 0 ≤ c.sequencePadding
  alternationPadding : 0 ≤ c.alternationPadding

theorem Config.nonNegative_standard : (standard : Config Rat).NonNegative := by
  constructor <;> decide +kernel

theorem Config.NonNegative.textWidth {c : Config Rat} (hc : c.NonNegative) (text : String) :
    0 ≤ (c.textSize text).1 := mul_nonneg (Nat.cast_nonneg _) hc.charWidth

theorem Config.NonNegative.textHeight {c : Config Rat} (hc : c.NonNegative) (text : String) :
    0 ≤ (c.textSize text).2 := hc.lineHeight

/-- **The axis of the box lies in it**, from left to right. -/
structure Box.Upright (b : Box Rat) : Prop where
  width_nonneg : 0 ≤ b.width
  height_nonneg : 0 ≤ b.height
  left : b.x ≤ b.ax
  across : b.ax ≤ b.ax2
  right : b.ax2 ≤ b.x2
  top : b.y ≤ b.ay
  bottom : b.ay ≤ b.y2

theorem Box.Upright.translate {b : Box Rat} (h : b.Upright) (dx dy : Rat) :
    (b.translate dx dy).Upright := by
  have hright := h.right
  have hbottom := h.bottom
  simp only [x2, y2] at hright hbottom
  refine ⟨h.width_nonneg, h.height_nonneg, ?_, ?_, ?_, ?_, ?_⟩
  · exact add_le_add_left h.left dx
  · exact add_le_add_left h.across dx
  · show b.ax2 + dx ≤ b.x + dx + b.width
    linarith
  · exact add_le_add_left h.top dy
  · show b.ay + dy ≤ b.y + dy + b.height
    linarith

namespace Shape

/-- A shape is measured without an axis. -/
theorem measure_bare (s : Shape Rat) :
    s.measure = { x := s.measure.x, y := s.measure.y
                  width := s.measure.width, height := s.measure.height } := by
  by_cases h : s.points = []
  · rw [measure_of_points h]
    rfl
  · exact (tight_measure h).bare

theorem measure_width_nonneg (s : Shape Rat) : 0 ≤ s.measure.width := by
  by_cases h : s.points = []
  · rw [measure_of_points h]
    exact le_refl 0
  · exact (tight_measure h).width_nonneg

theorem measure_height_nonneg (s : Shape Rat) : 0 ≤ s.measure.height := by
  by_cases h : s.points = []
  · rw [measure_of_points h]
    exact le_refl 0
  · exact (tight_measure h).height_nonneg

theorem holds_of_mem_points {s : Shape Rat} {p : Rat × Rat} (h : p ∈ s.points) :
    s.measure.Holds p := (tight_measure (List.ne_nil_of_mem h)).holds h

theorem mem_points_plain {style : String} {children : List (Shape Rat)} {child : Shape Rat}
    {p : Rat × Rat} (hchild : child ∈ children) (hp : p ∈ child.points) :
    p ∈ (plain style children).points := by
  rw [points_plain]
  exact List.mem_flatMap.mpr ⟨child, hchild, hp⟩

/-- **What lies in the box of a child** lies in the box of the whole. -/
theorem holds_plain {style : String} {children : List (Shape Rat)} {child : Shape Rat}
    {p : Rat × Rat} (hchild : child ∈ children) (hpoints : child.points ≠ [])
    (hp : child.measure.Holds p) : (plain style children).measure.Holds p := by
  exact (tight_measure hpoints).subset
    (fun q hq => holds_of_mem_points (mem_points_plain hchild hq)) hp

theorem points_plain_ne_nil {style : String} {children : List (Shape Rat)} {child : Shape Rat}
    (hchild : child ∈ children) (hpoints : child.points ≠ []) :
    (plain style children).points ≠ [] := by
  obtain ⟨p, hp⟩ := List.exists_mem_of_ne_nil _ hpoints
  exact List.ne_nil_of_mem (mem_points_plain hchild hp)

@[simp] theorem points_rail (x₁ x₂ y : Rat) : (rail x₁ x₂ y).points = [(x₁, y), (x₂, y)] := by
  rw [rail, points_path]
  rfl

theorem forall_points_rail {P : Rat × Rat → Prop} {x₁ x₂ y : Rat} :
    (∀ p ∈ (rail x₁ x₂ y).points, P p) ↔ P (x₁, y) ∧ P (x₂, y) := by simp

theorem mem_points_rail_left (x₁ x₂ y : Rat) : (x₁, y) ∈ (rail x₁ x₂ y).points := by simp

theorem mem_points_rail_right (x₁ x₂ y : Rat) : (x₂, y) ∈ (rail x₁ x₂ y).points := by simp

end Shape

/-! ## 2. Drawings -/

namespace Placed

/-- The box of the drawing is the measured one. -/
def Measured (p : Placed Rat) : Prop := p.shape.measure = p.box.raw

/-- There is something to be seen. -/
def Visible (p : Placed Rat) : Prop := p.shape.points ≠ []

/-- **The drawing is sound**: its box is the measured one, its axis lies in it, and the axis is not
    above nought. -/
structure Sound (p : Placed Rat) : Prop where
  measured : p.Measured
  upright : p.box.Upright
  ay_nonneg : 0 ≤ p.box.ay

variable {p : Placed Rat}

theorem Visible.translate (h : p.Visible) (dx dy : Rat) : (p.translate dx dy).Visible := by
  show (p.shape.translate dx dy).points ≠ []
  rw [Shape.points_translate]
  exact mt List.map_eq_nil_iff.mp h

theorem Measured.eq (h : p.Measured) : p.shape.measure = p.box.raw := h

/-- What is measured lies between the edges of the box. -/
theorem Measured.between (h : p.Measured) {q : Rat × Rat} (hq : q ∈ p.shape.points) :
    p.box.x ≤ q.1 ∧ q.1 ≤ p.box.x2 := by
  have hholds := Shape.holds_of_mem_points hq
  rw [h.eq] at hholds
  exact hholds.1

/-- **A drawing that is moved** has the measured box still. -/
theorem Measured.translate (h : p.Measured) (hvisible : p.Visible) (dx dy : Rat) :
    (p.translate dx dy).Measured := by
  show (p.shape.translate dx dy).measure = _
  rw [Shape.measure_translate hvisible, h.eq]
  rfl

/-- What is moved has the measured box still, and its axis lies in it. -/
theorem Sound.of_moved {q : Placed Rat} (h : p.Sound) (hvisible : p.Visible)
    (hmoved : Boxed.Moved p q) : q.Measured ∧ q.Visible ∧ q.box.Upright := by
  obtain ⟨dx, dy, rfl⟩ := hmoved
  exact ⟨h.measured.translate hvisible dx dy, hvisible.translate dx dy, h.upright.translate dx dy⟩

/-- Wherever the pictures have been moved, their axes lie in their boxes. -/
theorem upright_of_moved {items placed : List (Placed Rat)}
    (hmoved : List.Forall₂ Boxed.Moved items placed) (h : ∀ p ∈ items, p.box.Upright) :
    ∀ p ∈ placed, p.box.Upright := by
  intro p hp
  obtain ⟨i, hi, dx, dy, rfl⟩ := Spacing.exists_left_of_forall₂ hmoved p hp
  exact (h i hi).translate dx dy

/-- The ends of its axis lie in the measured box. -/
theorem Measured.holds_axis (h : p.Measured) (hupright : p.box.Upright) :
    p.shape.measure.Holds (p.box.ax, p.box.ay) ∧ p.shape.measure.Holds (p.box.ax2, p.box.ay) := by
  have hleft := hupright.left.trans hupright.across
  have hright := hupright.across.trans hupright.right
  rw [h.eq]
  exact ⟨⟨⟨hupright.left, hright⟩, hupright.top, hupright.bottom⟩,
    ⟨⟨hleft, hupright.right⟩, hupright.top, hupright.bottom⟩⟩

theorem measured_ofShape (shape : Shape Rat) (axis : Option (Axis Rat)) :
    (ofShape shape axis).Measured := by
  cases axis with
  | none => exact shape.measure_bare
  | some axis => exact shape.measure_bare

/-- Where no axis is given, lines attach to the middle of the edges. -/
theorem upright_ofShape_none (shape : Shape Rat) : (ofShape shape none).box.Upright := by
  have hwidth := shape.measure_width_nonneg
  have hheight := shape.measure_height_nonneg
  have hbox : (ofShape shape none).box = shape.measure.normalize := rfl
  rw [hbox, shape.measure_bare]
  refine ⟨hwidth, hheight, le_refl _, ?_, le_refl _, ?_, ?_⟩
  · show shape.measure.x ≤ shape.measure.x + shape.measure.width
    linarith
  · show shape.measure.y ≤ shape.measure.y + shape.measure.height / 2
    linarith
  · show shape.measure.y + shape.measure.height / 2 ≤ shape.measure.y + shape.measure.height
    linarith

/-- **An axis that is given** lies in the box if its ends do. -/
theorem upright_ofShape {shape : Shape Rat} {axis : Axis Rat}
    (hleft : shape.measure.Holds (axis.ax, axis.ay))
    (hright : shape.measure.Holds (axis.ax2, axis.ay)) (hacross : axis.ax ≤ axis.ax2) :
    (ofShape shape (some axis)).box.Upright :=
  ⟨shape.measure_width_nonneg, shape.measure_height_nonneg, hleft.1.1, hacross, hright.1.2,
    hleft.2.1, hleft.2.2⟩

end Placed

namespace Drawing

open Placed Spacing

variable {c : Config Rat}

/-! ## 3. Labels and captions -/

@[simp] theorem labelPadding_rat : (labelPadding : Rat) = 5 := rfl

@[simp] theorem curve_rat : (curve : Rat) = 10 := rfl

theorem points_labelBox (style text : String) :
    (labelBox c style text).shape.points =
      corners 0 0 ((c.textSize text).1 + 2 * 5) ((c.textSize text).2 + 2 * 5) ++
        corners 5 5 (c.textSize text).1 (c.textSize text).2 := by
  simp [labelBox, ofShape]

/-- **The box of a label** is as large as its text and what is around it. -/
theorem box_labelBox (hc : c.NonNegative) (style text : String) :
    (labelBox c style text).box =
      { x := 0, y := 0, width := (c.textSize text).1 + 2 * 5
        height := (c.textSize text).2 + 2 * 5
        ax := 0, ax2 := 0 + ((c.textSize text).1 + 2 * 5)
        ay := 0 + ((c.textSize text).2 + 2 * 5) / 2 } := by
  have hwidth := hc.textWidth text
  have hheight := hc.textHeight text
  have htight : RawBox.Tight
      { x := 0, y := 0, width := (c.textSize text).1 + 2 * 5
        height := (c.textSize text).2 + 2 * 5 } (labelBox c style text).shape.points := by
    rw [points_labelBox]
    refine .of_corners (by linarith) (by linarith) (forall_corners.mpr ⟨?_, ?_⟩)
    · exact ⟨⟨by norm_num, by linarith⟩, by norm_num, by linarith⟩
    · exact ⟨⟨by linarith, by linarith⟩, by linarith, by linarith⟩
  have hbox : (labelBox c style text).box = (labelBox c style text).shape.measure.normalize := rfl
  rw [hbox, Shape.measure_eq_of_tight htight]
  rfl

/-- **A label is sound**, and it can be seen. -/
theorem sound_labelBox (hc : c.NonNegative) (style text : String) :
    (labelBox c style text).Sound ∧ (labelBox c style text).Visible := by
  have hheight := hc.textHeight text
  refine ⟨⟨measured_ofShape _ none, upright_ofShape_none _, ?_⟩, ?_⟩
  · rw [box_labelBox hc]
    linarith
  · rw [Visible, points_labelBox]
    exact List.cons_ne_nil _ _

/-- The frame of what has a caption lies ten around it, and its axis leads from edge to edge. -/
theorem captionBox_rat (c : Config Rat) (style : String) (caption : Option String)
    (content : Placed Rat) :
    captionBox c style caption content = ofShape
      (.plain style
        (caption.toList.map (captionText c (content.box.x - 10) (content.box.y - 10)) ++
          [.rect "box" (content.box.x - 10) (content.box.y - 10) (content.box.width + 2 * 10)
              (content.box.height + 2 * 10) corner,
            .rail (content.box.x - 10) content.box.ax content.box.ay,
            .rail content.box.ax2 (content.box.x2 + 10) content.box.ay,
            content.shape]))
      (some ⟨content.box.x - 10, content.box.x2 + 10, content.box.ay⟩) := by
  have hright : content.box.x - 10 + (content.box.width + 2 * 10) = content.box.x2 + 10 := by
    rw [Box.x2]
    ring
  rw [← hright]
  rfl

/-- **What has a caption is sound** if what is in it is. -/
theorem sound_captionBox (style : String) (caption : Option String) {content : Placed Rat}
    (h : content.Sound) :
    (captionBox c style caption content).Sound ∧ (captionBox c style caption content).Visible := by
  have hleft := h.upright.left
  have hacross := h.upright.across
  have hright := h.upright.right
  rw [captionBox_rat]
  -- The axis leads from the left end of one rail to the right end of the other.
  refine ⟨⟨measured_ofShape _ _, upright_ofShape ?_ ?_ ?_, h.ay_nonneg⟩, ?_⟩
  · exact Shape.holds_of_mem_points
      (Shape.mem_points_plain (by simp) (Shape.mem_points_rail_left _ content.box.ax _))
  · exact Shape.holds_of_mem_points
      (Shape.mem_points_plain (by simp) (Shape.mem_points_rail_right content.box.ax2 _ _))
  · show content.box.x - 10 ≤ content.box.x2 + 10
    linarith
  · refine Shape.points_plain_ne_nil (List.mem_append_right _ List.mem_cons_self) ?_
    rw [Shape.points_rect]
    exact List.cons_ne_nil _ _

/-! ## 4. Rows -/

/-- A row of something leads from the first to the last of what is in it. -/
theorem exists_row (c : Config Rat) {items : List (Placed Rat)} (hne : items ≠ []) :
    ∃ first last, (spaceHorizontally c.sequencePadding items).head? = some first ∧
      (spaceHorizontally c.sequencePadding items).getLast? = some last ∧
      row c items = ofShape
        (.plain "sequence" (rails (spaceHorizontally c.sequencePadding items) ++
          (spaceHorizontally c.sequencePadding items).map Placed.shape))
        (some ⟨first.box.ax, last.box.ax2, first.box.ay⟩) := by
  have hlength := (row_spaceHorizontally c.sequencePadding items).moved.length_eq
  unfold row
  cases h : spaceHorizontally c.sequencePadding items with
  | nil =>
    rw [h] at hlength
    exact absurd (List.length_eq_zero_iff.mp hlength) hne
  | cons first rest =>
    have hlast := List.getLast?_eq_some_getLast (List.cons_ne_nil first rest)
    refine ⟨first, _, rfl, hlast, ?_⟩
    simp only [List.head?_cons, hlast]

/-- The axis of the first thing in a row begins before the axis of the last one ends. -/
theorem ax_le_ax2_of_row {padding : Rat} {items placed : List (Placed Rat)} (hpadding : 0 ≤ padding)
    (h : Row padding items placed) (hitems : ∀ p ∈ items, p.box.Upright) {first last : Placed Rat}
    (hfirst : placed.head? = some first) (hlast : placed.getLast? = some last) :
    first.box.ax ≤ last.box.ax2 := by
  have hplaced := upright_of_moved h.moved hitems
  have hpairs := h.pairwise hpadding fun i hi => (hitems i hi).width_nonneg
  have huprightfirst := hplaced first (List.mem_of_mem_head? hfirst)
  have huprightlast := hplaced last (List.mem_of_mem_getLast? hlast)
  cases placed with
  | nil => cases hfirst
  | cons p rest =>
    obtain rfl : p = first := Option.some.inj hfirst
    rcases List.mem_cons.mp (List.mem_of_mem_getLast? hlast) with rfl | hrest
    · exact huprightlast.across
    · have hbehind : p.box.x2 ≤ last.box.x := (List.pairwise_cons.mp hpairs).1 last hrest
      calc p.box.ax ≤ p.box.ax2 := huprightfirst.across
        _ ≤ p.box.x2 := huprightfirst.right
        _ ≤ last.box.x := hbehind
        _ ≤ last.box.ax := huprightlast.left
        _ ≤ last.box.ax2 := huprightlast.across

/-- **A row is sound** if what is in it is sound and can be seen. -/
theorem sound_row (hc : c.NonNegative) {items : List (Placed Rat)} (hne : items ≠ [])
    (h : ∀ p ∈ items, p.Sound ∧ p.Visible) : (row c items).Sound ∧ (row c items).Visible := by
  have hrow := row_spaceHorizontally c.sequencePadding items
  obtain ⟨first, last, hfirst, hlast, heq⟩ := exists_row c hne
  rw [heq]
  generalize spaceHorizontally c.sequencePadding items = placed at hrow hfirst hlast
  have hplaced (p : Placed Rat) (hp : p ∈ placed) : p.Measured ∧ p.Visible ∧ p.box.Upright := by
    obtain ⟨i, hi, hmoved⟩ := exists_left_of_forall₂ hrow.moved p hp
    exact (h i hi).1.of_moved (h i hi).2 hmoved
  have hchild (p : Placed Rat) (hp : p ∈ placed) :
      p.shape ∈ rails placed ++ placed.map Placed.shape :=
    List.mem_append_right _ (List.mem_map_of_mem hp)
  have hmemfirst := List.mem_of_mem_head? hfirst
  have hmemlast := List.mem_of_mem_getLast? hlast
  obtain ⟨hmeasuredfirst, hvisiblefirst, huprightfirst⟩ := hplaced first hmemfirst
  obtain ⟨hmeasuredlast, hvisiblelast, huprightlast⟩ := hplaced last hmemlast
  have hlevelfirst : first.box.ay = _ := hrow.level first hmemfirst
  have hlevellast : last.box.ay = _ := hrow.level last hmemlast
  refine ⟨⟨measured_ofShape _ _, upright_ofShape ?_ ?_ ?_, ?_⟩, ?_⟩
  · exact Shape.holds_plain (hchild first hmemfirst) hvisiblefirst
      (hmeasuredfirst.holds_axis huprightfirst).1
  · show RawBox.Holds _ (last.box.ax2, first.box.ay)
    rw [hlevelfirst, ← hlevellast]
    exact Shape.holds_plain (hchild last hmemlast) hvisiblelast
      (hmeasuredlast.holds_axis huprightlast).2
  · exact ax_le_ax2_of_row hc.sequencePadding hrow (fun p hp => (h p hp).1.upright) hfirst hlast
  · show 0 ≤ first.box.ay
    rw [hlevelfirst]
    exact greatestOf_nonneg _
  · exact Shape.points_plain_ne_nil (hchild first hmemfirst) hvisiblefirst

/-- Of a row of nothing there is nothing to be seen, wherever it is moved. -/
theorem points_row_nil (c : Config Rat) : (row c []).shape.points = [] := rfl

/-- The row of nothing is sound. -/
theorem sound_row_nil (c : Config Rat) : (row c []).Sound := by
  have hay : (row c []).box.ay = 0 + 0 / 2 := rfl
  exact ⟨measured_ofShape _ none, upright_ofShape_none _, by rw [hay]; norm_num⟩

/-! ## 5. Columns -/

/-- Several pictures together reach no further up or to the left than all of them do. -/
theorem le_enclosing {items : List (Placed Rat)} (hne : items ≠ [])
    (hupright : ∀ p ∈ items, p.box.Upright) {left top : Rat}
    (h : ∀ p ∈ items, left ≤ p.box.x ∧ top ≤ p.box.y) :
    left ≤ (enclosing items).x ∧ top ≤ (enclosing items).y := by
  have htight := tight_enclosing hne
  have hcorners : ∀ q ∈ items.flatMap fun p => (Boxed.box p).corners, left ≤ q.1 ∧ top ≤ q.2 := by
    refine List.forall_mem_flatMap.mpr fun p hp => forall_corners.mpr ⟨h p hp, ?_, ?_⟩
    · exact (h p hp).1.trans (le_add_of_nonneg_right (hupright p hp).width_nonneg)
    · exact (h p hp).2.trans (le_add_of_nonneg_right (hupright p hp).height_nonneg)
  constructor
  · obtain ⟨q, hq, heq⟩ := List.mem_map.mp htight.left.1
    exact (hcorners q hq).1.trans_eq heq
  · obtain ⟨q, hq, heq⟩ := List.mem_map.mp htight.top.1
    exact (hcorners q hq).2.trans_eq heq

/-- Pictures on top of each other begin twenty on the right of the fork. -/
theorem le_x_of_mem_stack (c : Config Rat) (branches : List (Placed Rat)) :
    ∀ p ∈ stack c branches, 20 ≤ p.box.x := by
  intro p hp
  obtain ⟨q, hq, rfl⟩ := List.mem_map.mp hp
  let spaced := spaceVertically c.alternationPadding branches
  have hspaced : spaced ≠ [] := List.ne_nil_of_mem hq
  have htight := tight_enclosing hspaced
  have hcorner : (q.box.x, q.box.y) ∈ spaced.flatMap fun i => (Boxed.box i).corners :=
    List.mem_flatMap.mpr ⟨q, hq, List.mem_cons_self⟩
  have hleft : (enclosing spaced).x ≤ q.box.x := (htight.holds hcorner).1.1
  show 20 ≤ q.box.x + (2 * 10 - (enclosing spaced).x)
  linarith

theorem column_stack (c : Config Rat) (branches : List (Placed Rat)) :
    Column c.alternationPadding branches (stack c branches) :=
  (column_spaceVertically c.alternationPadding branches).sideways
    (ofNat 2 * curve - (enclosing (spaceVertically c.alternationPadding branches)).x)

/-- The ends of the axis of a column are where its ways fork. -/
theorem column_rat (c : Config Rat) (branches : List (Placed Rat)) :
    column c branches = ofShape
      (.plain "alternation"
        (.plain "fan-out" ((stack c branches).map fun p => .path "connector"
            (fanOut (enclosing (stack c branches)).cy p.box.ax p.box.ay)) ::
          .plain "fan-in" ((stack c branches).map fun p => .path "connector"
            (fanIn (enclosing (stack c branches)).cy ((enclosing (stack c branches)).x2 + 2 * 10)
              p.box.ax2 p.box.ay)) ::
          (stack c branches).map Placed.shape))
      (some ⟨0, (enclosing (stack c branches)).x2 + 2 * 10, (enclosing (stack c branches)).cy⟩) :=
  rfl

theorem mem_points_fanOut (center ax ay : Rat) :
    (0, center) ∈ (Shape.path "connector" (fanOut center ax ay)).points := by
  rw [Shape.points_path]
  exact List.mem_cons_self

theorem mem_points_fanIn (center right ax2 ay : Rat) :
    (right, center) ∈ (Shape.path "connector" (fanIn center right ax2 ay)).points := by
  rw [Shape.points_path, fanIn]
  -- Each of the three bends ends at the fork.
  split_ifs <;> simp [PathCommand.named]

/-- **A column is sound** if what is in it is. -/
theorem sound_column (hc : c.NonNegative) {branches : List (Placed Rat)} (hne : branches ≠ [])
    (h : ∀ p ∈ branches, p.box.Upright) :
    (column c branches).Sound ∧ (column c branches).Visible := by
  have hcolumn := column_stack c branches
  have hx := le_x_of_mem_stack c branches
  have hy := hcolumn.y_nonneg hc.alternationPadding fun p hp => (h p hp).height_nonneg
  rw [column_rat]
  generalize stack c branches = placed at hcolumn hx hy
  have hplaced := upright_of_moved hcolumn.moved h
  obtain ⟨p, hp⟩ : ∃ p, p ∈ placed := by
    refine List.exists_mem_of_ne_nil _ fun hnil => hne ?_
    rw [hnil] at hcolumn
    exact List.forall₂_nil_right_iff.mp hcolumn.moved
  have hne := List.ne_nil_of_mem hp
  have htight := tight_enclosing hne
  -- Nothing reaches beyond the fork or above nought.
  obtain ⟨hleft, htop⟩ := le_enclosing hne hplaced fun p hp => ⟨hx p hp, hy p hp⟩
  have hwidth : 0 ≤ (enclosing placed).width := htight.width_nonneg
  have hheight : 0 ≤ (enclosing placed).height := htight.height_nonneg
  -- The ways to and from a branch lead from one fork to the other.
  have hstart := mem_points_fanOut (enclosing placed).cy p.box.ax p.box.ay
  refine ⟨⟨measured_ofShape _ _, upright_ofShape ?_ ?_ ?_, ?_⟩, ?_⟩
  · exact Shape.holds_of_mem_points (Shape.mem_points_plain List.mem_cons_self
      (Shape.mem_points_plain (List.mem_map_of_mem hp) hstart))
  · exact Shape.holds_of_mem_points (Shape.mem_points_plain
      (List.mem_cons_of_mem _ List.mem_cons_self)
      (Shape.mem_points_plain (List.mem_map_of_mem hp) (mem_points_fanIn ..)))
  · show 0 ≤ (enclosing placed).x + (enclosing placed).width + 2 * 10
    linarith
  · show 0 ≤ (enclosing placed).y + (enclosing placed).height / 2
    linarith
  · exact List.ne_nil_of_mem (Shape.mem_points_plain List.mem_cons_self
      (Shape.mem_points_plain (List.mem_map_of_mem hp) hstart))

/-! ## 6. Repetitions -/

/-- The body of a repetition, behind the room for the ways around it. -/
def settled {α : Type} [Coordinate α] (q : Quantifier) (body : Placed α) : Placed α :=
  body.translate (lead q.shape - body.box.x) (ofNat 0)

theorem lead_nonneg (shape : RepeatShape) : 0 ≤ (lead shape : Rat) := by
  unfold lead
  split_ifs <;> simp

/-- The axis of a repetition leads from edge to edge. Where there is a way around the body or back
    to its front, rails lead to the body and away from it. -/
theorem exists_repeated (c : Config Rat) (q : Quantifier) (body : Placed Rat) :
    ∃ ways, repeated c q body = ofShape
        (.plain "repeat" (ways ++ [(settled q body).shape]))
        (some ⟨0, (settled q body).box.x2 + lead q.shape, (settled q body).box.ay⟩) ∧
      ((q.shape.skips || q.shape.loops) = true →
        .rail 0 (settled q body).box.ax (settled q body).box.ay ∈ ways ∧
        .rail (settled q body).box.ax2 ((settled q body).box.x2 + lead q.shape)
          (settled q body).box.ay ∈ ways) ∧
      ((q.shape.skips || q.shape.loops) = false →
        ways = q.label.toList.map (repeatText c q.shape (settled q body).box)) := by
  refine ⟨_, rfl, fun h => ?_, fun h => ?_⟩
  · -- The rails come before the ways around the body and back, and before the words.
    rw [if_pos h]
    exact ⟨List.mem_append_left _ (List.mem_append_left _ (List.mem_append_left _
        List.mem_cons_self)),
      List.mem_append_left _ (List.mem_append_left _ (List.mem_append_left _
        (List.mem_cons_of_mem _ List.mem_cons_self)))⟩
  · have hskips : q.shape.skips = false := (Bool.or_eq_false_iff.mp h).1
    have hloops : q.shape.loops = false := (Bool.or_eq_false_iff.mp h).2
    simp only [hskips, hloops]
    rfl

theorem settled_x (q : Quantifier) (body : Placed Rat) :
    (settled q body).box.x = lead q.shape := add_sub_cancel _ _

theorem moved_settled (q : Quantifier) (body : Placed Rat) :
    Boxed.Moved body (settled q body) := ⟨lead q.shape - body.box.x, 0, rfl⟩

theorem settled_ax (q : Quantifier) {body : Placed Rat} (h : body.box.ax = body.box.x) :
    (settled q body).box.ax = lead q.shape :=
  (congrArg (· + _) h).trans (settled_x q body)

theorem settled_ay (q : Quantifier) (body : Placed Rat) :
    (settled q body).box.ay = body.box.ay := add_zero _

/-- Without a way around the body or back to its front, the body begins where the repetition
    does. -/
theorem lead_eq_zero {shape : RepeatShape} (h : (shape.skips || shape.loops) = false) :
    (lead shape : Rat) = 0 := by
  obtain ⟨hskips, hloops⟩ := Bool.or_eq_false_iff.mp h
  rw [lead, hskips, hloops]
  rfl

/-- **A repetition is sound** if its body is sound and can be seen. -/
theorem sound_repeated (c : Config Rat) (q : Quantifier) {body : Placed Rat} (h : body.Sound)
    (hvisible : body.Visible) : (repeated c q body).Sound ∧ (repeated c q body).Visible := by
  obtain ⟨ways, heq, hrails, -⟩ := exists_repeated c q body
  obtain ⟨hmeasured, hseen, hupright⟩ := h.of_moved hvisible (moved_settled q body)
  have hay : 0 ≤ (settled q body).box.ay := by
    rw [settled_ay]
    exact h.ay_nonneg
  have hright : lead q.shape ≤ (settled q body).box.x2 := by
    rw [Box.x2, settled_x]
    exact le_add_of_nonneg_right hupright.width_nonneg
  have hlead : (0 : Rat) ≤ lead q.shape := lead_nonneg q.shape
  have hbody : (settled q body).shape ∈ ways ++ [(settled q body).shape] :=
    List.mem_append_right _ (List.mem_singleton_self _)
  have hacross : 0 ≤ (settled q body).box.x2 + lead q.shape := by linarith
  rw [heq]
  refine ⟨?_, Shape.points_plain_ne_nil hbody hseen⟩
  cases hways : q.shape.skips || q.shape.loops with
  | true =>
    obtain ⟨hfirst, hsecond⟩ := hrails hways
    refine ⟨measured_ofShape _ _, upright_ofShape ?_ ?_ hacross, hay⟩
    · exact Shape.holds_of_mem_points (Shape.mem_points_plain (List.mem_append_left _ hfirst)
        (Shape.mem_points_rail_left ..))
    · exact Shape.holds_of_mem_points (Shape.mem_points_plain (List.mem_append_left _ hsecond)
        (Shape.mem_points_rail_right ..))
  | false =>
    -- Without rails the axis leads from edge to edge of the body.
    have hx : (settled q body).box.x = 0 := (settled_x q body).trans (lead_eq_zero hways)
    have hedges (x : Rat) (hlow : 0 ≤ x) (hhigh : x ≤ (settled q body).box.x2) :
        (Shape.plain "repeat" (ways ++ [(settled q body).shape])).measure.Holds
          (x, (settled q body).box.ay) := by
      refine Shape.holds_plain hbody hseen ?_
      rw [hmeasured.eq]
      exact ⟨⟨hx.le.trans hlow, hhigh⟩, hupright.top, hupright.bottom⟩
    rw [lead_eq_zero hways, add_zero]
    rw [lead_eq_zero hways] at hright
    exact ⟨measured_ofShape _ _,
      upright_ofShape (hedges 0 (le_refl 0) hright) (hedges _ hright (le_refl _)) hright, hay⟩

/-! ## 7. Trees -/

variable {s : Setting Rat}

/-- The runs of a sequence are sound and can be seen if its items are sound, since none of these is
    a sequence. -/
theorem sound_drawnRuns (hc : s.config.NonNegative) {items : List Node}
    (hitems : ∀ x ∈ items, x.isItem = true)
    (h : ∀ x ∈ items, (drawn s x).Sound ∧ (x ≠ .sequence [] → (drawn s x).Visible)) :
    ∀ p ∈ (Node.runs items).map (drawnRun s), p.Sound ∧ p.Visible := by
  refine forall_drawnRuns s (sound_labelBox hc) fun x hx => ?_
  refine ⟨(h x hx).1, (h x hx).2 fun hempty => ?_⟩
  have hitem := hitems x hx
  rw [hempty] at hitem
  cases hitem

/-- **The drawing of a well-formed tree is sound.** Nothing is to be seen of the empty sequence
    only. -/
theorem drawn_sound (hc : s.config.NonNegative) {x : Node} (hx : x.WellFormed) :
    (drawn s x).Sound ∧ (x ≠ .sequence [] → (drawn s x).Visible) := by
  induction x using Node.induction with
  | sequence items ih =>
    obtain ⟨⟨-, hitems⟩, hall⟩ := (Node.every_sequence items).mp hx
    rw [drawn_sequence]
    by_cases hnil : items = []
    · subst hnil
      exact ⟨sound_row_nil s.config, fun h => absurd rfl h⟩
    · have hruns := sound_drawnRuns hc hitems fun x hmem => ih x hmem (hall x hmem)
      have hrow := sound_row hc (map_drawnRun_ne_nil s hnil) hruns
      exact ⟨hrow.1, fun _ => hrow.2⟩
  | alternation branches ih =>
    obtain ⟨⟨hlength, -⟩, hall⟩ := (Node.every_alternation branches).mp hx
    have hne : branches.map (drawn s) ≠ [] := by
      rw [ne_eq, List.map_eq_nil_iff]
      rintro rfl
      cases hlength
    rw [drawn_alternation]
    have hcolumn := sound_column hc hne fun p hp => by
      obtain ⟨x, hx, rfl⟩ := List.mem_map.mp hp
      exact (ih x hx (hall x hx)).1.upright
    exact ⟨hcolumn.1, fun _ => hcolumn.2⟩
  | group capturing name index body ih =>
    have hbody := (ih ((Node.every_group ..).mp hx).2).1
    rw [drawn_group]
    exact ⟨(sound_captionBox _ _ hbody).1, fun _ => (sound_captionBox _ _ hbody).2⟩
  | lookaround direction polarity body ih =>
    have hbody := (ih ((Node.every_lookaround ..).mp hx).2).1
    rw [drawn_lookaround]
    exact ⟨(sound_captionBox _ _ hbody).1, fun _ => (sound_captionBox _ _ hbody).2⟩
  | repetition q body ih =>
    obtain ⟨⟨-, hunit⟩, hall⟩ := (Node.every_repetition q body).mp hx
    obtain ⟨hsound, hvisible⟩ := ih hall
    have hrepeated := sound_repeated s.config q hsound <| hvisible fun hempty => by
      rw [hempty] at hunit
      cases hunit
    rw [drawn_repetition]
    exact ⟨hrepeated.1, fun _ => hrepeated.2⟩
  | leaf x hleaf =>
    obtain ⟨style, text, heq⟩ := exists_drawn_leaf s hleaf
    rw [heq]
    exact ⟨(sound_labelBox hc style text).1, fun _ => (sound_labelBox hc style text).2⟩

/-- **The axis of a node lies in its box.** For every node of a tree that is read, a walk that
    nobody calls off comes to a drawing whose box is the measured one, with an axis that lies in it
    and is not above nought. When the drawing is moved, its box and its axis move with it, and the
    box is still the measured one, unless it is the drawing of an empty sequence: that one measures
    as the box of no size at the origin, wherever it is moved. -/
theorem node_keeps_axis {source : String} {e : Expression} (hparse : parse source = .ok e)
    {c : Config Rat} (hc : c.NonNegative) {x : Node} (hx : x ∈ e.root.preorder) {w : Walk}
    (hw : w.ticket.cancelled = false) :
    ∃ placed w', (node ⟨c, e.groups⟩ x : Walking (Placed Rat)).run w = .ok placed w' ∧
      placed.shape.measure = placed.box.raw ∧ placed.box.Upright ∧ 0 ≤ placed.box.ay ∧
      ∀ moved, Boxed.Moved placed moved → moved.box.Upright ∧
        (x ≠ .sequence [] → moved.shape.measure = moved.box.raw) ∧
        (x = .sequence [] → moved.shape.measure = RawBox.zero) := by
  obtain ⟨w', hrun⟩ := run_node_drawn (⟨c, e.groups⟩ : Setting Rat) x hw
  obtain ⟨hsound, hvisible⟩ :=
    drawn_sound (s := ⟨c, e.groups⟩) hc (Node.wellFormed_of_mem_preorder hparse hx)
  refine ⟨_, w', hrun, hsound.measured, hsound.upright, hsound.ay_nonneg, ?_⟩
  rintro moved ⟨dx, dy, rfl⟩
  refine ⟨hsound.upright.translate dx dy, fun hne => ?_, fun hempty => ?_⟩
  · exact hsound.measured.translate (hvisible hne) dx dy
  · refine Shape.measure_of_points ?_
    have hpoints : (drawn (⟨c, e.groups⟩ : Setting Rat) x).shape.points = [] := by
      rw [hempty, drawn_sequence]
      exact points_row_nil c
    show ((drawn (⟨c, e.groups⟩ : Setting Rat) x).shape.translate dx dy).points = []
    rw [Shape.points_translate, hpoints, List.map_nil]

/-- A caption that is wider than its frame, and a branch of which nothing is to be seen, moved five
    to the right. -/
theorem node_keeps_axis_of_branches :
    let e : Expression := ⟨.alternation [.group true none (some 1) (.literal (.char 'a')),
      .sequence []], {}, ⟨1, []⟩⟩
    parse "(a)|" = .ok e ∧
    (∃ placed w', (node ⟨Config.standard, e.groups⟩ e.root : Walking (Placed Rat)).run {} =
        .ok placed w' ∧
      placed.shape.measure = placed.box.raw ∧ placed.box.Upright ∧ 0 ≤ placed.box.ay) ∧
    ∃ nothing w', (node ⟨Config.standard, e.groups⟩ (.sequence []) : Walking (Placed Rat)).run {} =
        .ok nothing w' ∧
      (nothing.translate 5 0).shape.measure = RawBox.zero := by
  intro e
  have hparse : parse "(a)|" = .ok e := by with_unfolding_all rfl
  have hempty : Node.sequence [] ∈ e.root.preorder := by simp [e, Node.preorder, Node.preorderAll]
  obtain ⟨placed, w', hrun, hmeasure, hupright, hay, -⟩ :=
    node_keeps_axis hparse Config.nonNegative_standard List.mem_cons_self (w := {}) rfl
  obtain ⟨nothing, w'', hrun', -, -, -, hmoved⟩ :=
    node_keeps_axis hparse Config.nonNegative_standard hempty (w := {}) rfl
  exact ⟨hparse, ⟨placed, w', hrun, hmeasure, hupright, hay⟩, nothing, w'', hrun',
    (hmoved _ ⟨5, 0, rfl⟩).2.2 rfl⟩

end Drawing

end PatternDiagram
